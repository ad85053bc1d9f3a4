import BoxFirmware.ByteMem
import BoxFirmware.CText

/-! The Paho packet functions that `mqtt_thread` calls. A serializer returns its
code and the buffer, unchanged when the packet does not fit; a deserializer reads
memory from the start of the buffer on and is not stopped by its end. An `int`
length is a natural, and what the thread never sets in a connect packet (a will,
a string given by length) is left out. -/
namespace BoxFirmware.MqttPacket
open ByteMem CText

abbrev msgConnect : Nat := 1
abbrev msgConnack : Nat := 2
abbrev msgPublish : Nat := 3
abbrev msgPuback : Nat := 4
abbrev msgPubrec : Nat := 5
abbrev msgPubrel : Nat := 6
abbrev msgPubcomp : Nat := 7
abbrev msgSubscribe : Nat := 8
abbrev msgSuback : Nat := 9
abbrev msgPingreq : Nat := 12
abbrev msgPingresp : Nat := 13

def mqttPacketBufferTooShort : Int := -2

def header (type dup qos retain : Nat) : UInt8 :=
  UInt8.ofNat (type % 16 * 16 + dup % 2 * 8 + qos % 4 * 2 + retain % 2)

def typeBits (b : UInt8) : Nat := b.toNat / 16
def dupBits (b : UInt8) : Nat := b.toNat / 8 % 2
def qosBits (b : UInt8) : Nat := b.toNat / 2 % 4
def retainBits (b : UInt8) : Nat := b.toNat % 2

theorem header_toNat (type dup qos retain : Nat) :
    (header type dup qos retain).toNat =
      type % 16 * 16 + dup % 2 * 8 + qos % 4 * 2 + retain % 2 := by
  simp only [header, UInt8.toNat_ofNat']
  omega

@[simp] theorem typeBits_header (type dup qos retain : Nat) :
    typeBits (header type dup qos retain) = type % 16 := by
  rw [typeBits, header_toNat]
  omega

@[simp] theorem dupBits_header (type dup qos retain : Nat) :
    dupBits (header type dup qos retain) = dup % 2 := by
  rw [dupBits, header_toNat]
  omega

@[simp] theorem qosBits_header (type dup qos retain : Nat) :
    qosBits (header type dup qos retain) = qos % 4 := by
  rw [qosBits, header_toNat]
  omega

@[simp] theorem retainBits_header (type dup qos retain : Nat) :
    retainBits (header type dup qos retain) = retain % 2 := by
  rw [retainBits, header_toNat]
  omega

def packetType (packet : List UInt8) : Nat :=
  match packet with
  | [] => 0
  | head :: _ => typeBits head

/-- The `do` loop of `MQTTPacket_encode`; an `int` has at most five digits. -/
def encodeDigits : (fuel : Nat) → Nat → List UInt8
  | 0, _ => []
  | fuel + 1, length =>
    if length / 128 > 0 then UInt8.ofNat (length % 128 + 128) :: encodeDigits fuel (length / 128)
    else [UInt8.ofNat (length % 128)]

def mqttPacketEncode (length : Nat) : List UInt8 := encodeDigits 5 length

/-- `MQTTPacket_decode`: the count it returns, the value, and the source behind. A fifth
length byte is counted but not read. -/
def decodeLoop {σ : Type} (getchar : σ → Option UInt8 × σ) :
    (left : Nat) → σ → (multiplier value len : Nat) → Nat × Nat × σ
  | 0, s, _, value, len => (len + 1, value, s)
  | left + 1, s, multiplier, value, len =>
    match getchar s with
    | (none, s) => (len + 1, value, s)
    | (some c, s) =>
      let value := value + c.toNat % 128 * multiplier
      if c.toNat ≥ 128 then decodeLoop getchar left s (multiplier * 128) value (len + 1)
      else (len + 1, value, s)

def mqttPacketDecode {σ : Type} (getchar : σ → Option UInt8 × σ) (s : σ) : Nat × Nat × σ :=
  decodeLoop getchar 4 s 1 0 0

def bufchar (ptr : Mem) : Option UInt8 × Mem := (some (ptr 0), shift ptr 1)

def mqttPacketDecodeBuf (ptr : Mem) : Nat × Nat :=
  let (len, value, _) := mqttPacketDecode bufchar ptr
  (len, value)

theorem decodeLoop_congr {left : Nat} {p q : Mem} (same : ∀ i < left, p i = q i)
    (multiplier value len : Nat) :
    (decodeLoop bufchar left p multiplier value len).1 =
        (decodeLoop bufchar left q multiplier value len).1 ∧
      (decodeLoop bufchar left p multiplier value len).2.1 =
        (decodeLoop bufchar left q multiplier value len).2.1 ∧
      (decodeLoop bufchar left p multiplier value len).1 ≤ len + left + 1 := by
  induction left generalizing p q multiplier value len with
  | zero => exact ⟨rfl, rfl, by simp [decodeLoop]⟩
  | succ left ih =>
    have rest : ∀ i < left, shift p 1 i = shift q 1 i := fun i hi => by
      simpa [shift] using same (1 + i) (by omega)
    simp only [decodeLoop, bufchar, ← same 0 (by omega)]
    split
    · obtain ⟨count, decoded, bound⟩ := ih rest (multiplier * 128)
        (value + (p 0).toNat % 128 * multiplier) (len + 1)
      exact ⟨count, decoded, by omega⟩
    · exact ⟨rfl, rfl, by omega⟩

theorem decodeBuf_congr {p q : Mem} (same : ∀ i < 4, p i = q i) :
    mqttPacketDecodeBuf p = mqttPacketDecodeBuf q ∧ (mqttPacketDecodeBuf p).1 ≤ 5 := by
  obtain ⟨count, value, bound⟩ := decodeLoop_congr same 1 0 0
  have equal : mqttPacketDecodeBuf p = mqttPacketDecodeBuf q := Prod.ext count value
  exact ⟨equal, bound⟩

theorem decodeLoop_count {left : Nat} {p : Mem} (multiplier value len : Nat) :
    len < (decodeLoop bufchar left p multiplier value len).1 := by
  induction left generalizing p multiplier value len with
  | zero => exact Nat.lt_succ_self len
  | succ left ih =>
    simp only [decodeLoop, bufchar]
    split
    · exact Nat.lt_of_succ_lt (ih _ _ _)
    · exact Nat.lt_succ_self len

theorem decodeLoop_agree (left : Nat) {p q : Mem} (multiplier value len : Nat)
    (same : ∀ i, len + i < (decodeLoop bufchar left p multiplier value len).1 → p i = q i) :
    (decodeLoop bufchar left p multiplier value len).1 =
        (decodeLoop bufchar left q multiplier value len).1 ∧
      (decodeLoop bufchar left p multiplier value len).2.1 =
        (decodeLoop bufchar left q multiplier value len).2.1 := by
  induction left generalizing p q multiplier value len with
  | zero => exact ⟨rfl, rfl⟩
  | succ left ih =>
    have first : p 0 = q 0 := same 0 (decodeLoop_count multiplier value len)
    simp only [decodeLoop, bufchar, ← first] at same ⊢
    split
    · rename_i more
      rw [if_pos more] at same
      exact ih _ _ _ (fun i inside => by
        simpa [shift] using same (1 + i) (by rw [← Nat.add_assoc]; exact inside))
    · exact ⟨rfl, rfl⟩

theorem decodeBuf_agree {p q : Mem} (same : ∀ i < (mqttPacketDecodeBuf p).1, p i = q i) :
    mqttPacketDecodeBuf p = mqttPacketDecodeBuf q := by
  have loop := decodeLoop_agree 4 1 0 0
    (fun i inside => same i (by rwa [Nat.zero_add] at inside))
  exact Prod.ext loop.1 loop.2

theorem bufchar_ofList (c : UInt8) (rest : List UInt8) :
    bufchar (ofList (c :: rest)) = (some c, ofList rest) := by
  have behind : shift (ofList ([c] ++ rest)) 1 = ofList rest := shift_ofList rfl rest
  exact Prod.ext rfl behind

theorem decodeLoop_encode {fuel left n : Nat} (enough : n < 128 ^ (fuel + 1))
    (small : n < 128 ^ (left + 1)) (rest : List UInt8) (multiplier value len : Nat) :
    decodeLoop bufchar (left + 1) (ofList (encodeDigits (fuel + 1) n ++ rest)) multiplier value len =
      (len + (encodeDigits (fuel + 1) n).length, value + multiplier * n, ofList rest) := by
  induction fuel generalizing left n multiplier value len with
  | zero =>
    have last : ¬ n / 128 > 0 := by omega
    have digit : (UInt8.ofNat (n % 128)).toNat = n := by
      rw [UInt8.toNat_ofNat']
      omega
    simp only [encodeDigits, if_neg last, List.cons_append, List.nil_append, decodeLoop,
      bufchar_ofList, digit, List.length_singleton]
    rw [if_neg (by omega), Nat.mod_eq_of_lt (by omega), Nat.mul_comm]
  | succ fuel ih =>
    by_cases more : n / 128 > 0
    · have digit : (UInt8.ofNat (n % 128 + 128)).toNat = n % 128 + 128 := by
        rw [UInt8.toNat_ofNat']
        omega
      have split := Nat.div_add_mod n 128
      cases left with
      | zero => omega
      | succ left =>
        rw [encodeDigits, if_pos more, List.cons_append, decodeLoop, bufchar_ofList]
        dsimp only
        rw [digit, if_pos (by omega), ih (by rw [Nat.pow_succ] at enough; omega)
          (by rw [Nat.pow_succ] at small; omega)]
        refine Prod.ext ?_ (Prod.ext ?_ rfl)
        · simp only [List.length_cons]
          omega
        · have value : multiplier * n = n % 128 * multiplier + multiplier * 128 * (n / 128) := by
            rw [Nat.mul_assoc, Nat.mul_comm (n % 128), ← Nat.mul_add, Nat.add_comm, split]
          dsimp only
          rw [Nat.add_mod_right, Nat.mod_mod, Nat.add_assoc, value]
    · have digit : (UInt8.ofNat (n % 128)).toNat = n := by
        rw [UInt8.toNat_ofNat']
        omega
      simp only [encodeDigits, if_neg more, List.cons_append, List.nil_append, decodeLoop,
        bufchar_ofList, digit, List.length_singleton]
      rw [if_neg (by omega), Nat.mod_eq_of_lt (by omega), Nat.mul_comm]

theorem decodeBuf_encode {n : Nat} (small : n < 128 ^ 4) (rest : List UInt8) :
    mqttPacketDecodeBuf (ofList (mqttPacketEncode n ++ rest)) = ((mqttPacketEncode n).length, n) := by
  have field : decodeLoop bufchar 4 (ofList (mqttPacketEncode n ++ rest)) 1 0 0 =
      (0 + (mqttPacketEncode n).length, 0 + 1 * n, ofList rest) :=
    decodeLoop_encode (by omega) small rest 1 0 0
  rw [mqttPacketDecodeBuf, mqttPacketDecode, field]
  simp

def mqttPacketLen (remLen : Nat) : Nat :=
  let remLen := remLen + 1
  if remLen < 128 then remLen + 1
  else if remLen < 16384 then remLen + 2
  else if remLen < 2097151 then remLen + 3
  else remLen + 4

def readInt (ptr : Mem) : Nat := 256 * (ptr 0).toNat + (ptr 1).toNat

def writeInt (anInt : Nat) : List UInt8 :=
  [UInt8.ofNat (anInt / 256), UInt8.ofNat (anInt % 256)]

def writeCString (string : List UInt8) : List UInt8 := writeInt string.length ++ string

def putBytes (buf bytes : List UInt8) : List UInt8 := bytes ++ buf.drop bytes.length

def serialized (buf : List UInt8) (buflen remLen : Nat) (packet : List UInt8) :
    Int × List UInt8 :=
  if mqttPacketLen remLen > buflen then (mqttPacketBufferTooShort, buf)
  else (packet.length, putBytes buf packet)

def mqttSerializePublishLength (qos : Nat) (topicName payload : List UInt8) : Nat :=
  2 + topicName.length + payload.length + if qos > 0 then 2 else 0

def publishPacket (dup qos retained packetid : Nat) (topicName payload : List UInt8) :
    List UInt8 :=
  [header msgPublish dup qos retained] ++
    mqttPacketEncode (mqttSerializePublishLength qos topicName payload) ++
    writeCString topicName ++ (if qos > 0 then writeInt packetid else []) ++ payload

def mqttSerializePublish (buf : List UInt8) (buflen dup qos retained packetid : Nat)
    (topicName payload : List UInt8) : Int × List UInt8 :=
  serialized buf buflen (mqttSerializePublishLength qos topicName payload)
    (publishPacket dup qos retained packetid topicName payload)

def mqttSerializeAck (buf : List UInt8) (buflen packettype dup packetid : Nat) :
    Int × List UInt8 :=
  if buflen < 4 then (mqttPacketBufferTooShort, buf)
  else
    let qos := if packettype = msgPubrel then 1 else 0
    let packet := [header packettype dup qos 0] ++ mqttPacketEncode 2 ++ writeInt packetid
    (packet.length, putBytes buf packet)

def mqttSerializeZero (buf : List UInt8) (buflen packettype : Nat) : Int × List UInt8 :=
  if buflen < 2 then (mqttPacketBufferTooShort, buf)
  else
    let packet := [header packettype 0 0 0] ++ mqttPacketEncode 0
    (packet.length, putBytes buf packet)

def mqttSerializePingreq (buf : List UInt8) (buflen : Nat) : Int × List UInt8 :=
  mqttSerializeZero buf buflen msgPingreq

def mqttSerializeSubscribe (buf : List UInt8) (buflen dup packetid : Nat)
    (topicFilter : List UInt8) (requestedQos : Nat) : Int × List UInt8 :=
  let remLen := 2 + (2 + topicFilter.length + 1)
  serialized buf buflen remLen
    ([header msgSubscribe dup 1 0] ++ mqttPacketEncode remLen ++ writeInt packetid ++
      writeCString topicFilter ++ [UInt8.ofNat requestedQos])

/-- `MQTTPacket_connectData`; a string is what its `cstring` points to. -/
structure ConnectData where
  mqttVersion : Nat
  clientID : List UInt8
  keepAliveInterval : Nat
  cleansession : Nat
  username : Option (List UInt8)
  password : Option (List UInt8)

def credentialLength (string : Option (List UInt8)) : Nat :=
  match string with
  | none => 0
  | some s => s.length + 2

def mqttSerializeConnectLength (options : ConnectData) : Nat :=
  (if options.mqttVersion = 3 then 12 else if options.mqttVersion = 4 then 10 else 0) +
    (options.clientID.length + 2) + credentialLength options.username +
    credentialLength options.password

def connectFlags (options : ConnectData) : UInt8 :=
  UInt8.ofNat (options.cleansession % 2 * 2 + (if options.password.isSome then 64 else 0) +
    if options.username.isSome then 128 else 0)

def writeCredential (string : Option (List UInt8)) : List UInt8 :=
  match string with
  | none => []
  | some s => writeCString s

def mqttSerializeConnect (buf : List UInt8) (buflen : Nat) (options : ConnectData) :
    Int × List UInt8 :=
  let len := mqttSerializeConnectLength options
  serialized buf buflen len
    ([header msgConnect 0 0 0] ++ mqttPacketEncode len ++
      (if options.mqttVersion = 4 then writeCString (ascii "MQTT") ++ [4]
        else writeCString (ascii "MQIsdp") ++ [3]) ++
      [connectFlags options] ++ writeInt options.keepAliveInterval ++
      writeCString options.clientID ++ writeCredential options.username ++
      writeCredential options.password)

/-- `MQTTDeserialize_connack`: its code, and the return code of the broker where it is
written. The code of a packet cut short is the length of its length field. -/
def mqttDeserializeConnack (buf : Mem) : Nat × Option Nat :=
  if typeBits (buf 0) ≠ msgConnack then (0, none)
  else
    let (rc, mylen) := mqttPacketDecodeBuf (shift buf 1)
    if mylen < 2 then (rc, none) else (1, some (buf (1 + rc + 1)).toNat)

theorem deserializeConnack_congr {p q : Mem} (same : ∀ i < 8, p i = q i) :
    mqttDeserializeConnack p = mqttDeserializeConnack q := by
  obtain ⟨decoded, bound⟩ := decodeBuf_congr (p := shift p 1) (q := shift q 1)
    (fun i hi => by simpa [shift] using same (1 + i) (by omega))
  unfold mqttDeserializeConnack
  dsimp only
  rw [same 0 (by omega), ← decoded, same (1 + (mqttPacketDecodeBuf (shift p 1)).1 + 1) (by omega)]

/-- The variables behind the pointers of `MQTTDeserialize_publish`; `payload` is an offset
into the buffer once the pointer has been set. -/
structure PublishVars where
  dup : Nat
  qos : Nat
  retained : Nat
  packetid : Nat
  payload : Option Nat
  payloadlen : Int

/-- The flags are written before the topic is checked, and the packet id and the payload
length are not checked at all. -/
def mqttDeserializePublish (vars : PublishVars) (buf : Mem) : Nat × PublishVars :=
  if typeBits (buf 0) ≠ msgPublish then (0, vars)
  else
    let vars := { vars with
      dup := dupBits (buf 0)
      qos := qosBits (buf 0)
      retained := retainBits (buf 0) }
    let (rc, mylen) := mqttPacketDecodeBuf (shift buf 1)
    let curdata := 1 + rc
    let enddata := curdata + mylen
    if mylen ≤ 1 then (rc, vars)
    else
      let len := readInt (shift buf curdata)
      let curdata := curdata + 2
      if curdata + len > enddata then (rc, vars)
      else
        let curdata := curdata + len
        let packetid := if vars.qos > 0 then readInt (shift buf curdata) else vars.packetid
        let curdata := if vars.qos > 0 then curdata + 2 else curdata
        (1, { vars with
          packetid := packetid
          payload := some curdata
          payloadlen := (enddata : Int) - curdata })

theorem deserializePublish_other {m : Mem} (vars : PublishVars) (other : typeBits (m 0) ≠ msgPublish) :
    mqttDeserializePublish vars m = (0, vars) := if_pos other

def idAt (m : Mem) : Nat :=
  let rc := (mqttPacketDecodeBuf (shift m 1)).1
  1 + rc + 2 + readInt (shift m (1 + rc))

theorem deserializePublish_view {m : Mem} (vars : PublishVars) (publish : typeBits (m 0) = msgPublish) :
    (mqttDeserializePublish vars m).2.qos = qosBits (m 0) ∧
      (mqttDeserializePublish vars m).2.payload =
        if (mqttPacketDecodeBuf (shift m 1)).2 ≤ 1 ∨
            1 + (mqttPacketDecodeBuf (shift m 1)).1 + (mqttPacketDecodeBuf (shift m 1)).2 < idAt m
          then vars.payload
        else some (if qosBits (m 0) > 0 then idAt m + 2 else idAt m) := by
  have known : ¬ typeBits (m 0) ≠ msgPublish := fun other => other publish
  have place : 1 + (mqttPacketDecodeBuf (shift m 1)).1 + 2 +
      readInt (shift m (1 + (mqttPacketDecodeBuf (shift m 1)).1)) = idAt m := rfl
  unfold mqttDeserializePublish
  rw [if_neg known]
  dsimp only
  rw [place]
  by_cases short : (mqttPacketDecodeBuf (shift m 1)).2 ≤ 1
  · rw [if_pos short, if_pos (Or.inl short)]
    exact ⟨rfl, rfl⟩
  · rw [if_neg short]
    by_cases cut : 1 + (mqttPacketDecodeBuf (shift m 1)).1 + (mqttPacketDecodeBuf (shift m 1)).2 < idAt m
    · rw [if_pos cut, if_pos (Or.inr cut)]
      exact ⟨rfl, rfl⟩
    · rw [if_neg cut, if_neg (not_or.mpr ⟨short, cut⟩)]
      exact ⟨rfl, rfl⟩

theorem readInt_writeInt {n : Nat} (word : n < 65536) (rest : List UInt8) :
    readInt (ofList (writeInt n ++ rest)) = n := by
  have high : (ofList (writeInt n ++ rest) 0).toNat = n / 256 := by
    rw [show ofList (writeInt n ++ rest) 0 = UInt8.ofNat (n / 256) from rfl, UInt8.toNat_ofNat']
    omega
  have low : (ofList (writeInt n ++ rest) 1).toNat = n % 256 := by
    rw [show ofList (writeInt n ++ rest) 1 = UInt8.ofNat (n % 256) from rfl, UInt8.toNat_ofNat']
    omega
  rw [readInt, high, low]
  omega

/-- A PUBLISH within the protocol's bounds; a QoS of 3 is let through, as the thread does. -/
structure Publish where
  dup : Nat
  qos : Nat
  retained : Nat
  packetid : Nat
  topicName : List UInt8
  payload : List UInt8
  dup_lt : dup < 2
  qos_lt : qos < 4
  retained_lt : retained < 2
  packetid_lt : packetid < 65536
  topicName_lt : topicName.length < 65536
  length_lt : mqttSerializePublishLength qos topicName payload < 128 ^ 4

def Publish.packet (p : Publish) : List UInt8 :=
  publishPacket p.dup p.qos p.retained p.packetid p.topicName p.payload

def Publish.offset (p : Publish) : Nat :=
  1 + (mqttPacketEncode (mqttSerializePublishLength p.qos p.topicName p.payload)).length +
    (2 + p.topicName.length) + if p.qos > 0 then 2 else 0

theorem Publish.packet_split (p : Publish) :
    ∃ front, p.packet = front ++ p.payload ∧ front.length = p.offset := by
  refine ⟨_, rfl, ?_⟩
  unfold Publish.offset
  split <;> simp [writeCString, writeInt] <;> omega

theorem deserializePublish_packet (vars : PublishVars) (p : Publish) (rest : List UInt8) :
    mqttDeserializePublish vars (ofList (p.packet ++ rest)) =
      (1, { dup := p.dup
            qos := p.qos
            retained := p.retained
            packetid := if p.qos > 0 then p.packetid else vars.packetid
            payload := some p.offset
            payloadlen := p.payload.length }) := by
  obtain ⟨dup, qos, retained, packetid, topicName, payload, dupBit, qosWord, retainBit, idWord,
    topicWord, small⟩ := p
  simp only [Publish.packet, Publish.offset, publishPacket, writeCString] at *
  let length := mqttSerializePublishLength qos topicName payload
  let digits := mqttPacketEncode length
  let id := if qos > 0 then writeInt packetid else []
  let text := [header msgPublish dup qos retained] ++ digits ++
    (writeInt topicName.length ++ topicName) ++ id ++ payload ++ rest
  have size : length = 2 + topicName.length + payload.length + if qos > 0 then 2 else 0 := rfl
  have view : ∀ (front back : List UInt8) (k : Nat), text = front ++ back → front.length = k →
      shift (ofList text) k = ofList back := by
    intro front back k split count
    rw [split]
    exact shift_ofList count back
  have decoded : mqttPacketDecodeBuf (shift (ofList text) 1) = (digits.length, length) := by
    rw [view [header msgPublish dup qos retained]
      (digits ++ (writeInt topicName.length ++ topicName ++ id ++ payload ++ rest)) 1
      (by simp [text]) rfl]
    exact decodeBuf_encode small _
  have topic : readInt (shift (ofList text) (1 + digits.length)) = topicName.length := by
    rw [view ([header msgPublish dup qos retained] ++ digits)
      (writeInt topicName.length ++ (topicName ++ id ++ payload ++ rest)) (1 + digits.length)
      (by simp [text]) (by simp; omega)]
    exact readInt_writeInt topicWord _
  have own : qos > 0 →
      readInt (shift (ofList text) (1 + digits.length + 2 + topicName.length)) = packetid := by
    intro positive
    rw [view ([header msgPublish dup qos retained] ++ digits ++
        (writeInt topicName.length ++ topicName)) (writeInt packetid ++ (payload ++ rest))
      (1 + digits.length + 2 + topicName.length)
      (by simp [text, id, positive]) (by simp [writeInt]; omega)]
    exact readInt_writeInt idWord _
  have head : ofList text 0 = header msgPublish dup qos retained := rfl
  change mqttDeserializePublish vars (ofList text) = _
  unfold mqttDeserializePublish
  simp only [head, decoded, topic, typeBits_header, dupBits_header, qosBits_header,
    retainBits_header, Nat.mod_eq_of_lt dupBit, Nat.mod_eq_of_lt qosWord,
    Nat.mod_eq_of_lt retainBit]
  rw [if_neg (by decide), if_neg (by rw [size]; omega), if_neg (by rw [size]; split <;> omega)]
  have start : 1 + digits.length + 2 + topicName.length =
      1 + (mqttPacketEncode (mqttSerializePublishLength qos topicName payload)).length +
        (2 + topicName.length) := by
    change 1 + digits.length + 2 + topicName.length = 1 + digits.length + (2 + topicName.length)
    omega
  by_cases positive : qos > 0
  · simp only [if_pos positive] at size ⊢
    rw [own positive, ← start]
    congr 2
    omega
  · simp only [if_neg positive] at size ⊢
    rw [← start]
    congr 2
    omega

/-- What has arrived when `MQTTPacket_read` asks for it: the header byte, each byte of the
length, and how many bytes of the body. -/
structure Delivery where
  header : Bool
  lengthByte : Nat → Bool
  body : Nat

/-- `transport_getdata` with some bytes arrived: those, and the ones still to come. -/
def transportGetdata (arrived count : Nat) (inbox : List UInt8) : List UInt8 × List UInt8 :=
  (inbox.take (min arrived count), inbox.drop (min arrived count))

def getLengthByte (d : Delivery) (s : Nat × List UInt8) : Option UInt8 × (Nat × List UInt8) :=
  let (bytes, inbox) := transportGetdata (if d.lengthByte s.1 then 1 else 0) 1 s.2
  (bytes.head?, (s.1 + 1, inbox))

def readBody (d : Delivery) (buf : List UInt8) (buflen : Nat) (head : UInt8) (remLen : Nat)
    (inbox : List UInt8) : Int × List UInt8 × List UInt8 :=
  let front := head :: mqttPacketEncode remLen
  if remLen + front.length > buflen then (-1, putBytes buf front, inbox)
  else if remLen = 0 then (typeBits head, putBytes buf front, inbox)
  else
    let r := transportGetdata d.body remLen inbox
    (if r.1.length ≠ remLen then -1 else typeBits head, putBytes buf (front ++ r.1), r.2)

def mqttPacketRead (d : Delivery) (buf : List UInt8) (buflen : Nat) (inbox : List UInt8) :
    Int × List UInt8 × List UInt8 :=
  let r := transportGetdata (if d.header then 1 else 0) 1 inbox
  match r.1 with
  | [] => (-1, buf, r.2)
  | head :: _ =>
    let length := mqttPacketDecode (getLengthByte d) (0, r.2)
    readBody d buf buflen head length.2.1 length.2.2.2

theorem mqttPacketRead_cons {d : Delivery} (buf : List UInt8) (buflen : Nat) (head : UInt8)
    (inbox : List UInt8) (come : d.header = true) :
    mqttPacketRead d buf buflen (head :: inbox) =
      readBody d buf buflen head (mqttPacketDecode (getLengthByte d) (0, inbox)).2.1
        (mqttPacketDecode (getLengthByte d) (0, inbox)).2.2.2 := by
  simp [mqttPacketRead, transportGetdata, come]

theorem mqttPacketRead_wait {d : Delivery} (buf : List UInt8) (buflen : Nat)
    (inbox : List UInt8) (wait : d.header = false ∨ inbox = []) :
    mqttPacketRead d buf buflen inbox = (-1, buf, inbox) := by
  rcases wait with late | rfl
  · simp [mqttPacketRead, transportGetdata, late]
  · simp [mqttPacketRead, transportGetdata]

@[simp] theorem putBytes_take (buf bytes : List UInt8) :
    (putBytes buf bytes).take bytes.length = bytes := by
  simp [putBytes]

theorem putBytes_length {buf bytes : List UInt8} (fits : bytes.length ≤ buf.length) :
    (putBytes buf bytes).length = buf.length := by
  simp only [putBytes, List.length_append, List.length_drop]
  omega

theorem encodeDigits_length (fuel n : Nat) : (encodeDigits fuel n).length ≤ fuel := by
  induction fuel generalizing n with
  | zero => exact Nat.le_refl 0
  | succ fuel ih =>
    rw [encodeDigits]
    split
    · exact Nat.succ_le_succ (ih _)
    · exact Nat.succ_le_succ (Nat.zero_le _)

theorem mqttPacketRead_length {d : Delivery} {buf inbox : List UInt8} {buflen : Nat}
    (size : buf.length = buflen) (room : 6 ≤ buflen) :
    (mqttPacketRead d buf buflen inbox).2.1.length = buflen := by
  by_cases wait : d.header = false ∨ inbox = []
  · rw [mqttPacketRead_wait buf buflen inbox wait]
    exact size
  · cases inbox with
    | nil => simp at wait
    | cons head inbox =>
      rw [mqttPacketRead_cons buf buflen head inbox (by simpa using wait)]
      generalize (mqttPacketDecode (getLengthByte d) (0, inbox)).2.1 = remLen
      generalize (mqttPacketDecode (getLengthByte d) (0, inbox)).2.2.2 = inbox
      have digits := encodeDigits_length 5 remLen
      rw [← show mqttPacketEncode remLen = encodeDigits 5 remLen from rfl] at digits
      unfold readBody
      dsimp only
      split_ifs with large empty short
      · rw [putBytes_length (by simp only [List.length_cons]; omega), size]
      · rw [putBytes_length (by omega), size]
      all_goals
        rw [putBytes_length (by
          simp only [transportGetdata, List.length_append, List.length_take]
          omega), size]

theorem readBody_got {d : Delivery} {buf inbox : List UInt8} {buflen remLen : Nat} {head : UInt8}
    (size : buf.length = buflen) (got : 0 < (readBody d buf buflen head remLen inbox).1) :
    (readBody d buf buflen head remLen inbox).1 =
        packetType (readBody d buf buflen head remLen inbox).2.1 ∧
      (readBody d buf buflen head remLen inbox).2.1.length = buflen := by
  unfold readBody at got ⊢
  dsimp only at got ⊢
  split_ifs at got ⊢ with large empty short
  · exact absurd got (by simp)
  · refine ⟨rfl, ?_⟩
    rw [putBytes_length (by omega), size]
  · exact absurd got (by simp)
  · refine ⟨rfl, ?_⟩
    rw [putBytes_length, size]
    rw [List.length_append]
    omega

theorem mqttPacketRead_got {d : Delivery} {buf inbox : List UInt8} {buflen : Nat}
    (size : buf.length = buflen) (got : 0 < (mqttPacketRead d buf buflen inbox).1) :
    (mqttPacketRead d buf buflen inbox).1 = packetType (mqttPacketRead d buf buflen inbox).2.1 ∧
      (mqttPacketRead d buf buflen inbox).2.1.length = buflen := by
  by_cases wait : d.header = false ∨ inbox = []
  · rw [mqttPacketRead_wait buf buflen inbox wait] at got
    cases got
  · cases inbox with
    | nil => simp at wait
    | cons head inbox =>
      rw [mqttPacketRead_cons buf buflen head inbox (by simpa using wait)] at got ⊢
      exact readBody_got size got

def sentBytes (r : Int × List UInt8) : List UInt8 := r.2.take r.1.toNat

theorem sentBytes_serialized (buf : List UInt8) (buflen remLen : Nat) (packet : List UInt8) :
    sentBytes (serialized buf buflen remLen packet) =
      if mqttPacketLen remLen > buflen then [] else packet := by
  unfold sentBytes serialized
  split
  · simp [mqttPacketBufferTooShort]
  · simp

@[simp] theorem packetType_header (type dup qos retain : Nat) (rest : List UInt8) :
    packetType (header type dup qos retain :: rest) = type % 16 :=
  typeBits_header type dup qos retain

theorem packetType_publish (buf : List UInt8) (buflen dup qos retained packetid : Nat)
    (topicName payload : List UInt8) :
    packetType (sentBytes (mqttSerializePublish buf buflen dup qos retained packetid topicName
      payload)) ∈ [0, msgPublish] := by
  rw [mqttSerializePublish, sentBytes_serialized]
  split
  · simp [packetType]
  · simp [publishPacket, msgPublish]

theorem sentBytes_ack (buf : List UInt8) {buflen : Nat} (packettype dup packetid : Nat)
    (room : 4 ≤ buflen) : sentBytes (mqttSerializeAck buf buflen packettype dup packetid) =
      header packettype dup (if packettype = msgPubrel then 1 else 0) 0 :: 2 ::
        writeInt packetid := by
  unfold mqttSerializeAck
  rw [if_neg (by omega), sentBytes]
  simp only [Int.toNat_natCast, putBytes_take]
  rfl

theorem serializeAck_fst (buf : List UInt8) {buflen : Nat} (packettype dup packetid : Nat)
    (room : 4 ≤ buflen) : (mqttSerializeAck buf buflen packettype dup packetid).1 = 4 := by
  unfold mqttSerializeAck
  rw [if_neg (by omega)]
  rfl

theorem packetType_subscribe (buf : List UInt8) (buflen dup packetid requestedQos : Nat)
    (topicFilter : List UInt8) :
    packetType (sentBytes (mqttSerializeSubscribe buf buflen dup packetid topicFilter
      requestedQos)) ∈ [0, msgSubscribe] := by
  rw [mqttSerializeSubscribe, sentBytes_serialized]
  split
  · simp [packetType]
  · simp [msgSubscribe]

theorem sentBytes_pingreq (buf : List UInt8) {buflen : Nat} (room : 2 ≤ buflen) :
    sentBytes (mqttSerializePingreq buf buflen) = [header msgPingreq 0 0 0, 0] := by
  unfold mqttSerializePingreq mqttSerializeZero
  rw [if_neg (by omega), sentBytes]
  simp only [Int.toNat_natCast, putBytes_take]
  rfl

theorem sentBytes_connect (buf : List UInt8) {buflen : Nat} (options : ConnectData)
    (fits : mqttPacketLen (mqttSerializeConnectLength options) ≤ buflen) :
    packetType (sentBytes (mqttSerializeConnect buf buflen options)) = msgConnect := by
  rw [mqttSerializeConnect, sentBytes_serialized, if_neg (by omega)]
  simp

end BoxFirmware.MqttPacket
