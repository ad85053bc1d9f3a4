import BoxFirmware.MqttPacket
import BoxFirmware.PrefixCode

/-! The packets of the Paho library in both directions. An `MQTTString` is its bytes, with
`none` for one that is not given; one given by `cstring` and by `lenstring` at once is left
out, and so is what a deserializer that fails has stored up to there. -/
namespace BoxFirmware.MqttWire
open ByteMem CText MqttPacket

abbrev msgUnsubscribe : Nat := 10
abbrev msgUnsuback : Nat := 11

section Serialize

def checked (buf : List UInt8) (buflen need : Nat) (packet : List UInt8) : Int × List UInt8 :=
  if buflen < need then (mqttPacketBufferTooShort, buf) else (packet.length, putBytes buf packet)

structure WillOptions where
  topicName : List UInt8
  message : List UInt8
  retained : Nat
  qos : Nat

structure ConnectOptions extends ConnectData where
  willFlag : Nat
  will : WillOptions

variable (options : ConnectOptions)

def mqttSerializeConnectLength : Nat :=
  (if options.mqttVersion = 3 then 12 else if options.mqttVersion = 4 then 10 else 0) +
    (options.clientID.length + 2) +
    (if options.willFlag = 0 then 0
      else options.will.topicName.length + 2 + options.will.message.length + 2) +
    credentialLength options.username + credentialLength options.password

def flagsByte (cleansession will willQos willRetain password username : Nat) : UInt8 :=
  UInt8.ofNat (cleansession % 2 * 2 + will % 2 * 4 + willQos % 4 * 8 + willRetain % 2 * 32 +
    password % 2 * 64 + username % 2 * 128)

def connectFlags : UInt8 :=
  flagsByte options.cleansession (if options.willFlag = 0 then 0 else 1)
    (if options.willFlag = 0 then 0 else options.will.qos)
    (if options.willFlag = 0 then 0 else options.will.retained)
    options.password.isSome.toNat options.username.isSome.toNat

def connectStrings : List UInt8 :=
  writeCString options.clientID ++
    (if options.willFlag = 0 then []
      else writeCString options.will.topicName ++ writeCString options.will.message) ++
    writeCredential options.username ++ writeCredential options.password

def connectProtocol : List UInt8 :=
  if options.mqttVersion = 4 then writeCString (ascii "MQTT") ++ [4]
  else writeCString (ascii "MQIsdp") ++ [3]

def connectPacket : List UInt8 :=
  [header msgConnect 0 0 0] ++ mqttPacketEncode (mqttSerializeConnectLength options) ++
    connectProtocol options ++ [connectFlags options] ++ writeInt options.keepAliveInterval ++
    connectStrings options

def mqttSerializeConnect (buf : List UInt8) (buflen : Nat) : Int × List UInt8 :=
  checked buf buflen (mqttPacketLen (mqttSerializeConnectLength options)) (connectPacket options)

def connackPacket (connackRc sessionPresent : UInt8) : List UInt8 :=
  [header msgConnack 0 0 0] ++ mqttPacketEncode 2 ++ [sessionPresent % 2, connackRc]

/-- The buffer is compared with the two bytes of the body. -/
def mqttSerializeConnack (buf : List UInt8) (buflen : Nat) (connackRc sessionPresent : UInt8) :
    Int × List UInt8 :=
  checked buf buflen 2 (connackPacket connackRc sessionPresent)

def mqttSerializeSubscribeLength (topics : List (List UInt8 × UInt8)) : Nat :=
  topics.foldl (fun len t => len + (2 + t.1.length + 1)) 2

def subscribePacket (dup packetid : Nat) (topics : List (List UInt8 × UInt8)) : List UInt8 :=
  [header msgSubscribe dup 1 0] ++ mqttPacketEncode (mqttSerializeSubscribeLength topics) ++
    writeInt packetid ++ topics.flatMap (fun t => writeCString t.1 ++ [t.2])

def mqttSerializeSubscribe (buf : List UInt8) (buflen dup packetid : Nat)
    (topics : List (List UInt8 × UInt8)) : Int × List UInt8 :=
  checked buf buflen (mqttPacketLen (mqttSerializeSubscribeLength topics))
    (subscribePacket dup packetid topics)

def subackPacket (packetid : Nat) (grantedQoss : List UInt8) : List UInt8 :=
  [header msgSuback 0 0 0] ++ mqttPacketEncode (2 + grantedQoss.length) ++ writeInt packetid ++
    grantedQoss

def mqttSerializeSuback (buf : List UInt8) (buflen packetid : Nat) (grantedQoss : List UInt8) :
    Int × List UInt8 :=
  checked buf buflen (2 + grantedQoss.length) (subackPacket packetid grantedQoss)

def mqttSerializeUnsubscribeLength (topicFilters : List (List UInt8)) : Nat :=
  topicFilters.foldl (fun len t => len + (2 + t.length)) 2

def unsubscribePacket (dup packetid : Nat) (topicFilters : List (List UInt8)) : List UInt8 :=
  [header msgUnsubscribe dup 1 0] ++
    mqttPacketEncode (mqttSerializeUnsubscribeLength topicFilters) ++ writeInt packetid ++
    topicFilters.flatMap writeCString

def mqttSerializeUnsubscribe (buf : List UInt8) (buflen dup packetid : Nat)
    (topicFilters : List (List UInt8)) : Int × List UInt8 :=
  checked buf buflen (mqttPacketLen (mqttSerializeUnsubscribeLength topicFilters))
    (unsubscribePacket dup packetid topicFilters)

def unsubackPacket (packetid : Nat) : List UInt8 :=
  [header msgUnsuback 0 0 0] ++ mqttPacketEncode 2 ++ writeInt packetid

/-- The buffer is compared with the two bytes of the body. -/
def mqttSerializeUnsuback (buf : List UInt8) (buflen packetid : Nat) : Int × List UInt8 :=
  checked buf buflen 2 (unsubackPacket packetid)

theorem serializeConnect_plain (buf : List UInt8) (buflen : Nat) (plain : options.willFlag = 0) :
    mqttSerializeConnect options buf buflen =
      MqttPacket.mqttSerializeConnect buf buflen options.toConnectData := by
  have length : mqttSerializeConnectLength options =
      MqttPacket.mqttSerializeConnectLength options.toConnectData := by
    simp [mqttSerializeConnectLength, MqttPacket.mqttSerializeConnectLength, plain]
  have flags : connectFlags options = MqttPacket.connectFlags options.toConnectData := by
    unfold connectFlags MqttPacket.connectFlags flagsByte
    cases options.password <;> cases options.username <;> simp [plain]
  have packet : connectPacket options = [header msgConnect 0 0 0] ++
      mqttPacketEncode (MqttPacket.mqttSerializeConnectLength options.toConnectData) ++
      (if options.mqttVersion = 4 then writeCString (ascii "MQTT") ++ [4]
        else writeCString (ascii "MQIsdp") ++ [3]) ++
      [MqttPacket.connectFlags options.toConnectData] ++ writeInt options.keepAliveInterval ++
      writeCString options.clientID ++ writeCredential options.username ++
      writeCredential options.password := by
    simp [connectPacket, connectStrings, connectProtocol, plain, length, flags]
  rw [mqttSerializeConnect, packet, length]
  rfl

theorem serializeSubscribe_single (buf : List UInt8) (buflen dup packetid : Nat)
    (topicFilter : List UInt8) (requestedQos : Nat) :
    mqttSerializeSubscribe buf buflen dup packetid [(topicFilter, UInt8.ofNat requestedQos)] =
      MqttPacket.mqttSerializeSubscribe buf buflen dup packetid topicFilter requestedQos := by
  simp [mqttSerializeSubscribe, subscribePacket, mqttSerializeSubscribeLength,
    MqttPacket.mqttSerializeSubscribe, checked, serialized]

end Serialize

section Deserialize

/-- `readMQTTLenString` at the pointer `curdata`: the string and the pointer behind it. -/
def readMqttLenString (m : Mem) (curdata enddata : Nat) : Option (List UInt8 × Nat) :=
  if curdata + 1 < enddata then
    let len := readInt (shift m curdata)
    if curdata + 2 + len ≤ enddata then some (slice m (curdata + 2) len, curdata + 2 + len)
    else none
  else none

/-- `memcmp` over `min(6, len)` or `min(4, len)` bytes. -/
def mqttPacketCheckVersion (protocol : List UInt8) (version : UInt8) : Bool :=
  version = 3 ∧ protocol.take 6 = (ascii "MQIsdp").take protocol.length ∨
    version = 4 ∧ protocol.take 4 = (ascii "MQTT").take protocol.length

def readWill (data : ConnectOptions) (buf : Mem) (flags : UInt8) (curdata enddata : Nat) :
    Option (ConnectOptions × Nat) :=
  let data := { data with willFlag := flags.toNat / 4 % 2 }
  if flags.toNat / 4 % 2 = 0 then some (data, curdata)
  else do
    let (topicName, curdata) ← readMqttLenString buf curdata enddata
    let (message, curdata) ← readMqttLenString buf curdata enddata
    let will := { topicName, message, qos := flags.toNat / 8 % 4, retained := flags.toNat / 32 % 2 }
    return ({ data with will }, curdata)

def readCredential (buf : Mem) (curdata enddata : Nat) : Option (List UInt8 × Nat) :=
  if enddata < curdata + 3 then none else readMqttLenString buf curdata enddata

def readCredentials (data : ConnectOptions) (buf : Mem) (flags : UInt8) (curdata enddata : Nat) :
    Option ConnectOptions :=
  if flags.toNat / 128 % 2 = 1 then do
    let (username, curdata) ← readCredential buf curdata enddata
    let data := { data with username }
    if flags.toNat / 64 % 2 = 1 then do
      let (password, _) ← readCredential buf curdata enddata
      return { data with password }
    else return data
  else if flags.toNat / 64 % 2 = 1 then none
  else some data

/-- `MQTTDeserialize_connect`: the connect data that it fills out, when its code is 1. The end
is the caller's length; the remaining length of the packet is read and not used. -/
def mqttDeserializeConnect (data : ConnectOptions) (buf : Mem) (len : Nat) :
    Option ConnectOptions :=
  if typeBits (buf 0) ≠ msgConnect then none
  else do
    let (protocol, curdata) ← readMqttLenString buf (1 + (mqttPacketDecodeBuf (shift buf 1)).1) len
    if mqttPacketCheckVersion protocol (buf curdata) then
      let flags := buf (curdata + 1)
      let keepAliveInterval := readInt (shift buf (curdata + 2))
      let (clientID, curdata) ← readMqttLenString buf (curdata + 4) len
      let data := { data with cleansession := flags.toNat / 2 % 2, keepAliveInterval, clientID }
      let (data, curdata) ← readWill data buf flags curdata len
      readCredentials data buf flags curdata len
    else none

/-- The `while` loop over the entries of a packet: those read, and whether they fill it. A
round takes at least one byte. -/
def entries {α : Type} (entry : (curdata : Nat) → Option (α × Nat)) (enddata : Nat) :
    (fuel curdata : Nat) → List α × Bool
  | 0, curdata => ([], enddata ≤ curdata)
  | fuel + 1, curdata =>
    if curdata < enddata then
      match entry curdata with
      | none => ([], false)
      | some (a, curdata) =>
        let r := entries entry enddata fuel curdata
        (a :: r.1, r.2)
    else ([], true)

def subscribeEntry (buf : Mem) (enddata curdata : Nat) : Option ((List UInt8 × UInt8) × Nat) := do
  let (topicFilter, curdata) ← readMqttLenString buf curdata enddata
  if enddata ≤ curdata then none else return ((topicFilter, buf curdata), curdata + 1)

structure Topics (α : Type) where
  dup : Nat
  packetid : Nat
  entries : List α

/-- The common part of the two. A packet cut short leaves the length of its length field as
the code, and `maxcount` is not looked at. -/
def deserializeTopics {α : Type} (entry : Mem → (enddata curdata : Nat) → Option (α × Nat))
    (buf : Mem) : Nat × Topics α :=
  let (rc, mylen) := mqttPacketDecodeBuf (shift buf 1)
  let r := entries (entry buf (1 + rc + mylen)) (1 + rc + mylen) mylen (1 + rc + 2)
  (if r.2 then 1 else rc, ⟨dupBits (buf 0), readInt (shift buf (1 + rc)), r.1⟩)

def mqttDeserializeSubscribe (buf : Mem) : Int × Option (Topics (List UInt8 × UInt8)) :=
  if typeBits (buf 0) ≠ msgSubscribe then (-1, none)
  else
    let r := deserializeTopics subscribeEntry buf
    (r.1, some r.2)

def mqttDeserializeUnsubscribe (buf : Mem) : Int × Option (Topics (List UInt8)) :=
  if typeBits (buf 0) ≠ msgUnsubscribe then (0, none)
  else
    let r := deserializeTopics (fun m enddata curdata => readMqttLenString m curdata enddata) buf
    (r.1, some r.2)

/-- The `while` loop of `MQTTDeserialize_suback`; the check lets one code through behind the
last place. -/
def grantedLoop (buf : Mem) (maxcount : Nat) : (left curdata count : Nat) → Bool × List UInt8
  | 0, _, _ => (true, [])
  | left + 1, curdata, count =>
    if maxcount < count then (false, [])
    else
      let r := grantedLoop buf maxcount left (curdata + 1) (count + 1)
      (r.1, buf curdata :: r.2)

/-- `MQTTDeserialize_suback`: its code, and the packet id and the granted QoS that it stores. -/
def mqttDeserializeSuback (buf : Mem) (maxcount : Nat) : Int × Option (Nat × List UInt8) :=
  if typeBits (buf 0) ≠ msgSuback then (0, none)
  else
    let (rc, mylen) := mqttPacketDecodeBuf (shift buf 1)
    if mylen < 2 then (rc, none)
    else
      let r := grantedLoop buf maxcount (mylen - 2) (1 + rc + 2) 0
      (if r.1 then 1 else -1, some (readInt (shift buf (1 + rc)), r.2))

/-- `MQTTDeserialize_ack`: its code, the type and the DUP flag, and the packet id where it is
stored. -/
def mqttDeserializeAck (buf : Mem) : Int × Nat × Nat × Option Nat :=
  let (rc, mylen) := mqttPacketDecodeBuf (shift buf 1)
  if mylen < 2 then (rc, typeBits (buf 0), dupBits (buf 0), none)
  else (1, typeBits (buf 0), dupBits (buf 0), some (readInt (shift buf (1 + rc))))

def mqttDeserializeUnsuback (buf : Mem) : Int × Option Nat :=
  let (rc, type, _, packetid) := mqttDeserializeAck buf
  (if type = msgUnsuback then 1 else rc, packetid)

end Deserialize

section Room

inductive Packet
  | connect (options : ConnectOptions)
  | connack (connackRc sessionPresent : UInt8)
  | publish (dup qos retained packetid : Nat) (topicName payload : List UInt8)
  | ack (packettype dup packetid : Nat)
  | subscribe (dup packetid : Nat) (topics : List (List UInt8 × UInt8))
  | suback (packetid : Nat) (grantedQoss : List UInt8)
  | unsubscribe (dup packetid : Nat) (topicFilters : List (List UInt8))
  | unsuback (packetid : Nat)
  | zero (packettype : Nat)

variable (buf : List UInt8) (buflen : Nat)

def Packet.serialize : Packet → Int × List UInt8
  | connect options => mqttSerializeConnect options buf buflen
  | connack connackRc sessionPresent => mqttSerializeConnack buf buflen connackRc sessionPresent
  | publish dup qos retained packetid topicName payload =>
    mqttSerializePublish buf buflen dup qos retained packetid topicName payload
  | ack packettype dup packetid => mqttSerializeAck buf buflen packettype dup packetid
  | subscribe dup packetid topics => mqttSerializeSubscribe buf buflen dup packetid topics
  | suback packetid grantedQoss => mqttSerializeSuback buf buflen packetid grantedQoss
  | unsubscribe dup packetid topicFilters =>
    mqttSerializeUnsubscribe buf buflen dup packetid topicFilters
  | unsuback packetid => mqttSerializeUnsuback buf buflen packetid
  | zero packettype => mqttSerializeZero buf buflen packettype

def Packet.remLen : Packet → Nat
  | connect options => mqttSerializeConnectLength options
  | publish _ qos _ _ topicName payload => mqttSerializePublishLength qos topicName payload
  | subscribe _ _ topics => mqttSerializeSubscribeLength topics
  | suback _ grantedQoss => 2 + grantedQoss.length
  | unsubscribe _ _ topicFilters => mqttSerializeUnsubscribeLength topicFilters
  | zero _ => 0
  | connack _ _ | ack _ _ _ | unsuback _ => 2

def Packet.need : Packet → Nat
  | connack _ _ | unsuback _ | zero _ => 2
  | ack _ _ _ => 4
  | suback _ grantedQoss => 2 + grantedQoss.length
  | p => mqttPacketLen p.remLen

def Packet.bytes : Packet → List UInt8
  | connect options => connectPacket options
  | connack connackRc sessionPresent => connackPacket connackRc sessionPresent
  | publish dup qos retained packetid topicName payload =>
    publishPacket dup qos retained packetid topicName payload
  | ack packettype dup packetid =>
    [header packettype dup (if packettype = msgPubrel then 1 else 0) 0] ++ mqttPacketEncode 2 ++
      writeInt packetid
  | subscribe dup packetid topics => subscribePacket dup packetid topics
  | suback packetid grantedQoss => subackPacket packetid grantedQoss
  | unsubscribe dup packetid topicFilters => unsubscribePacket dup packetid topicFilters
  | unsuback packetid => unsubackPacket packetid
  | zero packettype => [header packettype 0 0 0] ++ mqttPacketEncode 0

theorem Packet.serialize_eq (p : Packet) :
    p.serialize buf buflen = checked buf buflen p.need p.bytes := by
  cases p <;> rfl

def Packet.uncounted : Packet → Nat
  | connect options => if options.mqttVersion = 3 ∨ options.mqttVersion = 4 then 0 else 12
  | _ => 0

theorem writeCString_length (string : List UInt8) : (writeCString string).length = string.length + 2 := by
  simp [writeCString, writeInt]

theorem writeCredential_length (string : Option (List UInt8)) :
    (writeCredential string).length = credentialLength string := by
  cases string with
  | none => rfl
  | some string => exact writeCString_length string

theorem foldl_length {α : Type} {size : α → Nat} {write : α → List UInt8}
    (same : ∀ t, (write t).length = size t) (ts : List α) (len : Nat) :
    ts.foldl (fun len t => len + size t) len = len + (ts.flatMap write).length := by
  induction ts generalizing len with
  | nil => rfl
  | cons t ts ih => rw [List.foldl_cons, ih, List.flatMap_cons, List.length_append, same, Nat.add_assoc]

theorem subscribeLength_eq (topics : List (List UInt8 × UInt8)) :
    mqttSerializeSubscribeLength topics =
      2 + (topics.flatMap (fun t => writeCString t.1 ++ [t.2])).length :=
  foldl_length (fun t => by
    rw [List.length_append, writeCString_length, List.length_singleton]
    omega) topics 2

theorem unsubscribeLength_eq (topicFilters : List (List UInt8)) :
    mqttSerializeUnsubscribeLength topicFilters = 2 + (topicFilters.flatMap writeCString).length :=
  foldl_length (fun t => by
    rw [writeCString_length]
    omega) topicFilters 2

/-- A packet is its header byte, its length field and what the field counts, and for a
CONNECT of another version the twelve bytes that it does not count. -/
theorem Packet.bytes_length (p : Packet) :
    p.bytes.length = 1 + (mqttPacketEncode p.remLen).length + p.remLen + p.uncounted := by
  cases p with
  | connect options =>
    have name : (connectProtocol options).length = if options.mqttVersion = 4 then 7 else 9 := by
      unfold connectProtocol
      split <;> rfl
    simp only [Packet.bytes, connectPacket, connectStrings, Packet.remLen, Packet.uncounted,
      List.length_append, writeCString_length, writeCredential_length, name, List.length_singleton]
    unfold mqttSerializeConnectLength
    split_ifs <;> simp_all [writeCString_length, writeInt] <;> omega
  | publish dup qos retained packetid topicName payload =>
    simp only [Packet.bytes, publishPacket, Packet.remLen, Packet.uncounted, List.length_append,
      writeCString_length, List.length_singleton]
    unfold mqttSerializePublishLength
    split <;> simp [writeInt] <;> omega
  | subscribe dup packetid topics =>
    simp only [Packet.bytes, subscribePacket, Packet.remLen, Packet.uncounted, List.length_append,
      subscribeLength_eq, writeInt, List.length_cons, List.length_nil]
    omega
  | suback packetid grantedQoss =>
    simp [Packet.bytes, subackPacket, Packet.remLen, Packet.uncounted, writeInt]
    omega
  | unsubscribe dup packetid topicFilters =>
    simp only [Packet.bytes, unsubscribePacket, Packet.remLen, Packet.uncounted,
      List.length_append, unsubscribeLength_eq, writeInt, List.length_cons, List.length_nil]
    omega
  | connack | ack | unsuback =>
    have two : (mqttPacketEncode 2).length = 1 := rfl
    simp [Packet.bytes, connackPacket, unsubackPacket, Packet.remLen, Packet.uncounted, writeInt, two]
  | zero => simp [Packet.bytes, Packet.remLen, Packet.uncounted, Nat.add_comm]

theorem encode_length {n : Nat} (small : n < 128 ^ 4) : (mqttPacketEncode n).length =
    if n < 128 then 1 else if n < 16384 then 2 else if n < 2097152 then 3 else 4 := by
  simp only [mqttPacketEncode, encodeDigits]
  split_ifs <;> first | rfl | omega

/-- `MQTTPacket_len` is the size of the packet, or one more at the last lengths of a size. -/
theorem mqttPacketLen_bounds {n : Nat} (small : n < 128 ^ 4) :
    1 + (mqttPacketEncode n).length + n ≤ mqttPacketLen n ∧
      mqttPacketLen n ≤ 1 + (mqttPacketEncode n).length + n + 1 := by
  rw [encode_length small]
  unfold mqttPacketLen
  dsimp only
  split_ifs <;> omega

def Packet.Overruns (p : Packet) : Prop :=
  match p with
  | connack _ _ | unsuback _ => 2 ≤ buflen ∧ buflen < 4
  | suback _ _ => p.remLen ≤ buflen ∧ buflen < 1 + (mqttPacketEncode p.remLen).length + p.remLen
  | connect _ =>
    p.uncounted ≠ 0 ∧ mqttPacketLen p.remLen ≤ buflen ∧
      buflen < 1 + (mqttPacketEncode p.remLen).length + p.remLen + 12
  | _ => False

/-- A serializer writes behind the end of the buffer exactly where its check leaves out part of
the packet: the CONNACK, SUBACK and UNSUBACK, and a CONNECT of a version that is not 3 or 4.
None refuses a buffer that is larger than the packet. -/
theorem serialize_room (p : Packet) (small : p.remLen < 128 ^ 4) :
    ((buflen : Int) < (p.serialize buf buflen).1 ↔ p.Overruns buflen) ∧
      ((p.serialize buf buflen).1 = mqttPacketBufferTooShort → buflen ≤ p.bytes.length) := by
  have size := p.bytes_length
  have bounds := mqttPacketLen_bounds small
  rw [p.serialize_eq, checked]
  have exceeds : ((buflen : Int) < (if buflen < p.need then (mqttPacketBufferTooShort, buf)
      else ((p.bytes.length : Int), putBytes buf p.bytes)).1) ↔
        p.need ≤ buflen ∧ buflen < p.bytes.length := by
    split_ifs with short <;> simp [mqttPacketBufferTooShort] <;> omega
  have refused : (if buflen < p.need then (mqttPacketBufferTooShort, buf)
      else ((p.bytes.length : Int), putBytes buf p.bytes)).1 = mqttPacketBufferTooShort →
        buflen < p.need := by
    split_ifs with short <;> simp [mqttPacketBufferTooShort, short]
  rw [exceeds]
  have two : (mqttPacketEncode 2).length = 1 := rfl
  have none : (mqttPacketEncode 0).length = 1 := rfl
  refine ⟨?_, fun short => ?_⟩
  · cases p <;> simp only [Packet.Overruns, Packet.need, Packet.uncounted, Packet.remLen] at * <;>
      first | omega | (split_ifs at * <;> simp_all <;> omega)
  · have less := refused short
    cases p <;> simp only [Packet.need, Packet.uncounted, Packet.remLen] at * <;> omega

theorem serialize_room_unsuback :
    (2 : Int) < ((Packet.unsuback 1).serialize [] 2).1 ∧ (Packet.unsuback 1).Overruns 2 :=
  have exceeds : (Packet.unsuback 1).Overruns 2 := ⟨Nat.le_refl 2, by decide⟩
  ⟨(serialize_room [] 2 (.unsuback 1) (by decide)).1.mpr exceeds, exceeds⟩

end Room

end BoxFirmware.MqttWire
