import BoxFirmware.MqttWire

/-! What one end serializes is what the other end deserializes. A CONNECT is read to the end
that the caller gives and its remaining length is not used; in the other packets the
remaining length is the end. -/
namespace BoxFirmware.MqttReadBack
open ByteMem CText MqttWire PrefixCode
open MqttPacket hiding connectFlags mqttSerializeConnect mqttSerializeConnectLength mqttSerializeSubscribe

section Cursor

/-- The bytes lie at the pointer. -/
def At (m : Mem) (curdata : Nat) (bytes : List UInt8) : Prop :=
  slice m curdata bytes.length = bytes

variable {m : Mem} {curdata enddata : Nat}

theorem at_append {front back : List UInt8} :
    At m curdata (front ++ back) ↔ At m curdata front ∧ At m (curdata + front.length) back := by
  unfold At
  rw [List.length_append, slice_add]
  exact ⟨fun same => List.append_inj same (slice_length _ _ _),
    fun same => congrArg₂ (· ++ ·) same.1 same.2⟩

theorem at_cons {b : UInt8} {back : List UInt8} :
    At m curdata (b :: back) ↔ m curdata = b ∧ At m (curdata + 1) back := by
  have one : At m curdata [b] ↔ m curdata = b := by simp [At, slice]
  have split : At m curdata ([b] ++ back) ↔ At m curdata [b] ∧ At m (curdata + 1) back := at_append
  rw [← one]
  exact split

theorem At.move {bytes : List UInt8} (here : At m curdata bytes) (place : Nat)
    (same : curdata = place) : At m place bytes := same ▸ here

instance (bytes : List UInt8) : Decidable (At m curdata bytes) :=
  inferInstanceAs (Decidable (_ = _))

theorem At.readInt {n : Nat} (here : At m curdata (writeInt n)) (word : n < 65536) :
    readInt (shift m curdata) = n := by
  rw [writeInt, at_cons, at_cons] at here
  obtain ⟨high, low, -⟩ := here
  rw [MqttPacket.readInt, shift_apply, shift_apply, Nat.add_zero, high, low, UInt8.toNat_ofNat',
    UInt8.toNat_ofNat']
  omega

theorem At.string {string : List UInt8} (here : At m curdata (writeCString string))
    (word : string.length < 65536) (inside : curdata + 2 + string.length ≤ enddata) :
    readMqttLenString m curdata enddata = some (string, curdata + 2 + string.length) := by
  rw [writeCString, at_append] at here
  obtain ⟨count, text⟩ := here
  unfold readMqttLenString
  rw [if_pos (by omega)]
  dsimp only
  rw [count.readInt word, if_pos inside]
  have same : slice m (curdata + 2) string.length = string := text
  rw [same]

theorem At.length {n : Nat} (here : At m curdata (mqttPacketEncode n)) (small : n < 128 ^ 4) :
    mqttPacketDecodeBuf (shift m curdata) = ((mqttPacketEncode n).length, n) := by
  have field := decodeBuf_encode small []
  rw [List.append_nil] at field
  rw [← field]
  refine (decodeBuf_agree fun i inside => ?_).symm
  rw [field] at inside
  have byte : (mqttPacketEncode n)[i]? = some (m (curdata + i)) := by
    rw [← slice_getElem? m curdata (mqttPacketEncode n).length i inside]
    exact congrArg (·[i]?) (Eq.symm here)
  rw [shift_apply, ofList, List.getD_eq_getElem?_getD, byte, Option.getD_some]

end Cursor

section Connect

theorem flagsByte_toNat (cleansession will willQos willRetain password username : Nat) :
    (flagsByte cleansession will willQos willRetain password username).toNat =
      cleansession % 2 * 2 + will % 2 * 4 + willQos % 4 * 8 + willRetain % 2 * 32 +
        password % 2 * 64 + username % 2 * 128 := by
  rw [flagsByte, UInt8.toNat_ofNat']
  omega

/-- A CONNECT within the protocol's bounds, of any version. -/
structure Connect extends ConnectOptions where
  keepAliveInterval_lt : keepAliveInterval < 65536
  clientID_lt : clientID.length < 65536
  topicName_lt : will.topicName.length < 65536
  message_lt : will.message.length < 65536
  username_lt : ∀ string ∈ username, string.length < 65536
  password_lt : ∀ string ∈ password, string.length < 65536

variable (c : Connect) {m : Mem} {curdata len : Nat} (data : ConnectOptions)

/-- With what follows the packet: a password has a user name, and the last of the two is not
empty. -/
def Connect.Accepted (spare : Nat) : Prop :=
  (c.password.isSome → c.username.isSome) ∧
    (∀ string ∈ c.username, c.password = none → 0 < string.length + spare) ∧
    ∀ string ∈ c.password, 0 < string.length + spare

instance (spare : Nat) : Decidable (c.Accepted spare) :=
  inferInstanceAs (Decidable (_ ∧ _ ∧ _))

def Connect.readInto : ConnectOptions :=
  { data with
    cleansession := c.cleansession % 2
    keepAliveInterval := c.keepAliveInterval
    clientID := c.clientID
    willFlag := if c.willFlag = 0 then 0 else 1
    will :=
      if c.willFlag = 0 then data.will
      else { c.will with qos := c.will.qos % 4, retained := c.will.retained % 2 }
    username := c.username <|> data.username
    password := c.password <|> data.password }

theorem Connect.flags_clean : (connectFlags c.toConnectOptions).toNat / 2 % 2 = c.cleansession % 2 := by
  rw [connectFlags, flagsByte_toNat]
  omega

theorem Connect.flags_will :
    (connectFlags c.toConnectOptions).toNat / 4 % 2 = if c.willFlag = 0 then 0 else 1 := by
  rw [connectFlags, flagsByte_toNat]
  split_ifs <;> omega

theorem Connect.flags_qos (will : c.willFlag ≠ 0) :
    (connectFlags c.toConnectOptions).toNat / 8 % 4 = c.will.qos % 4 := by
  rw [connectFlags, flagsByte_toNat]
  simp only [will, if_false]
  omega

theorem Connect.flags_retained (will : c.willFlag ≠ 0) :
    (connectFlags c.toConnectOptions).toNat / 32 % 2 = c.will.retained % 2 := by
  rw [connectFlags, flagsByte_toNat]
  simp only [will, if_false]
  omega

theorem Connect.flags_password :
    (connectFlags c.toConnectOptions).toNat / 64 % 2 = c.password.isSome.toNat := by
  have bit := Bool.toNat_lt c.password.isSome
  rw [connectFlags, flagsByte_toNat]
  split_ifs <;> omega

theorem Connect.flags_username :
    (connectFlags c.toConnectOptions).toNat / 128 % 2 = c.username.isSome.toNat := by
  have bit := Bool.toNat_lt c.username.isSome
  rw [connectFlags, flagsByte_toNat]
  split_ifs <;> omega

def Connect.willBytes : List UInt8 :=
  if c.willFlag = 0 then [] else writeCString c.will.topicName ++ writeCString c.will.message

theorem readWill_at (here : At m curdata c.willBytes)
    (inside : curdata + c.willBytes.length ≤ len) :
    readWill data m (connectFlags c.toConnectOptions) curdata len =
      some ({ data with
        willFlag := if c.willFlag = 0 then 0 else 1
        will :=
          if c.willFlag = 0 then data.will
          else { c.will with qos := c.will.qos % 4, retained := c.will.retained % 2 } },
        curdata + c.willBytes.length) := by
  unfold readWill
  rw [c.flags_will]
  by_cases off : c.willFlag = 0
  · simp [off, Connect.willBytes]
  · have text : c.willBytes = writeCString c.will.topicName ++ writeCString c.will.message :=
      if_neg off
    rw [text, at_append] at here
    rw [text, List.length_append] at inside ⊢
    rw [writeCString_length] at here
    rw [writeCString_length, writeCString_length] at inside
    have topic := here.1.string c.topicName_lt (show _ ≤ len by omega)
    have back : At m (curdata + 2 + c.will.topicName.length) (writeCString c.will.message) := by
      rw [show curdata + 2 + c.will.topicName.length = curdata + (c.will.topicName.length + 2) by omega]
      exact here.2
    have message := back.string c.message_lt (show _ ≤ len by omega)
    simp only [off, if_false, Nat.one_ne_zero]
    rw [topic]
    dsimp only [Option.bind_eq_bind, Option.bind_some]
    rw [message]
    simp only [Option.bind_some, c.flags_qos off, c.flags_retained off, writeCString_length]
    refine congrArg some (Prod.ext rfl ?_)
    dsimp only
    omega

theorem readCredential_at {string : List UInt8} (here : At m curdata (writeCString string))
    (word : string.length < 65536) (inside : curdata + 2 + string.length ≤ len) :
    readCredential m curdata len =
      if len < curdata + 3 then none else some (string, curdata + 2 + string.length) := by
  rw [readCredential, here.string word inside]

theorem readCredentials_at
    (here : At m curdata (writeCredential c.username ++ writeCredential c.password)) {spare : Nat}
    (finish : curdata + (credentialLength c.username + credentialLength c.password) + spare = len) :
    readCredentials data m (connectFlags c.toConnectOptions) curdata len =
      if c.Accepted spare then
        some { data with
          username := c.username <|> data.username
          password := c.password <|> data.password }
      else none := by
  unfold readCredentials
  rw [c.flags_username, c.flags_password]
  have name := c.username_lt
  have word := c.password_lt
  cases user : c.username with
  | none =>
    cases secret : c.password with
    | none =>
      have yes : c.Accepted spare := by simp [Connect.Accepted, user, secret]
      simp [yes]
    | some password =>
      have no : ¬ c.Accepted spare := by simp [Connect.Accepted, user, secret]
      simp [no]
  | some username =>
    rw [user] at here finish name
    rw [at_append] at here
    have room : curdata + 2 + username.length ≤ len := by
      simp only [credentialLength] at finish
      omega
    have first := readCredential_at here.1 (name username rfl) room
    have back : curdata + (writeCredential (some username)).length = curdata + 2 + username.length := by
      rw [writeCredential_length, credentialLength]
      omega
    cases secret : c.password with
    | none =>
      have accepted : c.Accepted spare ↔ 0 < username.length + spare :=
        ⟨fun known => known.2.1 username user secret, fun positive =>
          ⟨fun _ => by simp [user], fun _ same _ => by cases user.symm.trans same; exact positive,
            fun _ same => by simp [secret] at same⟩⟩
      rw [secret] at finish
      simp only [credentialLength] at finish
      simp only [Option.isSome_some, Bool.toNat_true, if_true, Option.isSome_none, Bool.toNat_false,
        Nat.zero_ne_one, if_false, Option.bind_eq_bind]
      rw [first]
      by_cases short : len < curdata + 3
      · rw [if_pos short, if_neg (by rw [accepted]; omega)]
        rfl
      · rw [if_neg short, if_pos (by rw [accepted]; omega)]
        rfl
    | some password =>
      have accepted : c.Accepted spare ↔ 0 < password.length + spare :=
        ⟨fun known => known.2.2 password secret, fun positive =>
          ⟨fun _ => by simp [user], fun _ _ same => by simp [secret] at same,
            fun _ same => by cases secret.symm.trans same; exact positive⟩⟩
      rw [secret] at here finish word
      rw [back] at here
      simp only [credentialLength] at finish
      have second := readCredential_at here.2 (word password rfl) (show _ ≤ len by omega)
      simp only [Option.isSome_some, Bool.toNat_true, if_true, Option.bind_eq_bind]
      rw [first, if_neg (by omega)]
      dsimp only [Option.bind_some]
      rw [second]
      by_cases short : len < curdata + 2 + username.length + 3
      · rw [if_pos short, if_neg (by rw [accepted]; omega)]
        rfl
      · rw [if_neg short, if_pos (by rw [accepted]; omega)]
        rfl

theorem Connect.length_lt : mqttSerializeConnectLength c.toConnectOptions < 128 ^ 4 := by
  have client := c.clientID_lt
  have topic := c.topicName_lt
  have message := c.message_lt
  have bounded : ∀ string : Option (List UInt8), (∀ s ∈ string, s.length < 65536) →
      credentialLength string ≤ 65537 := by
    intro string word
    cases string with
    | none => exact Nat.zero_le _
    | some s => exact Nat.add_le_add_right (Nat.le_of_lt_succ (word s rfl)) 2
  have user := bounded c.username c.username_lt
  have secret := bounded c.password c.password_lt
  unfold mqttSerializeConnectLength
  split_ifs <;> omega

theorem connectProtocol_known (options : ConnectOptions) : ∃ name version,
    connectProtocol options = writeCString name ++ [version] ∧ name.length < 65536 ∧
      mqttPacketCheckVersion name version = true := by
  unfold connectProtocol
  split
  · exact ⟨ascii "MQTT", 4, rfl, by decide, by decide⟩
  · exact ⟨ascii "MQIsdp", 3, rfl, by decide, by decide⟩

theorem deserializeConnect_packet (here : At m 0 (connectPacket c.toConnectOptions))
    (whole : (connectPacket c.toConnectOptions).length ≤ len) :
    mqttDeserializeConnect data m len =
      if c.Accepted (len - (connectPacket c.toConnectOptions).length) then some (c.readInto data)
      else none := by
  obtain ⟨name, version, protocol, short, known⟩ := connectProtocol_known c.toConnectOptions
  let digits := mqttPacketEncode (mqttSerializeConnectLength c.toConnectOptions)
  have strings : connectStrings c.toConnectOptions = writeCString c.clientID ++ (c.willBytes ++
      (writeCredential c.username ++ writeCredential c.password)) := by
    simp [connectStrings, Connect.willBytes]
  have text : connectPacket c.toConnectOptions = header msgConnect 0 0 0 :: (digits ++
      (writeCString name ++ (version :: connectFlags c.toConnectOptions ::
        (writeInt c.keepAliveInterval ++ connectStrings c.toConnectOptions)))) := by
    simp [connectPacket, protocol, digits]
  have size : (connectPacket c.toConnectOptions).length = 1 + digits.length + 2 + name.length + 6 +
      c.clientID.length + c.willBytes.length +
        (credentialLength c.username + credentialLength c.password) := by
    rw [text, strings]
    simp only [List.length_cons, List.length_append, writeCString_length, writeCredential_length,
      writeInt, List.length_nil]
    omega
  rw [size] at whole ⊢
  rw [text, strings] at here
  simp only [at_cons, at_append, writeCString_length] at here
  obtain ⟨type, count, title, byte, flags, interval, client, will, credentials⟩ := here
  have two (n : Nat) : (writeInt n).length = 2 := rfl
  rw [two] at client will credentials
  let front := 1 + digits.length + 2 + name.length
  have field := (count.move 1 rfl).length c.length_lt
  have titled := (title.move (1 + digits.length) (by omega)).string short
    (show _ ≤ len by omega)
  have spelled : m front = version := by rw [← byte]; congr 1; omega
  have flagged : m (front + 1) = connectFlags c.toConnectOptions := by rw [← flags]; congr 1; omega
  have kept := (interval.move (front + 2) (by omega)).readInt c.keepAliveInterval_lt
  have named := (client.move (front + 4) (by omega)).string c.clientID_lt
    (show _ ≤ len by omega)
  have willed := fun data => readWill_at c data
    (will.move (front + 4 + 2 + c.clientID.length) (by omega)) (show _ ≤ len by omega)
  have trusted := fun data => readCredentials_at c data
    ((at_append.mpr credentials).move (front + 4 + 2 + c.clientID.length + c.willBytes.length) (by omega))
    (show _ + (len - (1 + digits.length + 2 + name.length + 6 + c.clientID.length +
      c.willBytes.length + (credentialLength c.username + credentialLength c.password))) = len by omega)
  unfold mqttDeserializeConnect
  rw [if_neg (by rw [type]; simp), field]
  dsimp only
  rw [titled]
  dsimp only [Option.bind_eq_bind, Option.bind_some]
  rw [spelled, if_pos known, flagged, kept, named]
  dsimp only [Option.bind_some]
  rw [willed]
  dsimp only [Option.bind_some]
  rw [trusted]
  rw [c.flags_clean]
  rfl

theorem checked_done {buf packet : List UInt8} {buflen need : Nat}
    (done : 0 < (checked buf buflen need packet).1) :
    (checked buf buflen need packet).1 = packet.length ∧
      sentBytes (checked buf buflen need packet) = packet := by
  unfold checked at done ⊢
  split at done
  · exact absurd done (by simp [mqttPacketBufferTooShort])
  · rename_i room
    rw [if_neg room]
    exact ⟨rfl, by simp [sentBytes]⟩

/-- A server reads a CONNECT as the connect data that the client has serialized, unless a
password comes without a user name or the last of the two is empty and ends the buffer. -/
theorem connect_read_back (buf : List UInt8) (buflen : Nat)
    (done : 0 < (mqttSerializeConnect c.toConnectOptions buf buflen).1)
    (sent : At m 0 (sentBytes (mqttSerializeConnect c.toConnectOptions buf buflen)))
    (whole : (mqttSerializeConnect c.toConnectOptions buf buflen).1 ≤ len) :
    mqttDeserializeConnect data m len =
      if c.Accepted (len - (mqttSerializeConnect c.toConnectOptions buf buflen).1.toNat) then
        some (c.readInto data)
      else none := by
  obtain ⟨size, bytes⟩ := checked_done done
  rw [mqttSerializeConnect, bytes] at sent
  rw [mqttSerializeConnect, size] at whole ⊢
  rw [Int.toNat_natCast]
  exact deserializeConnect_packet c data sent (by exact_mod_cast whole)

def login : Connect where
  mqttVersion := 4
  clientID := ascii "7"
  keepAliveInterval := 60
  cleansession := 1
  username := some (ascii "box")
  password := some (ascii "key")
  willFlag := 1
  will := ⟨ascii "gone", [], 1, 2⟩
  keepAliveInterval_lt := by decide
  clientID_lt := by decide
  topicName_lt := by decide
  message_lt := by decide
  username_lt := by simp [ascii]
  password_lt := by simp [ascii]

theorem connect_read_back_login :
    mqttDeserializeConnect login.toConnectOptions
        (ofList (mqttSerializeConnect login.toConnectOptions [] 64).2) 40 =
      some (login.readInto login.toConnectOptions) :=
  (connect_read_back login login.toConnectOptions [] 64 (by decide) (by decide) (by decide)).trans
    (if_pos (by decide))

end Connect

section Topics

/-- A string in front of a list of bytes. -/
def readString : List UInt8 → Option (List UInt8 × List UInt8)
  | high :: low :: rest =>
    if 256 * high.toNat + low.toNat ≤ rest.length then
      some (rest.take (256 * high.toNat + low.toNat), rest.drop (256 * high.toNat + low.toNat))
    else none
  | _ => none

def readByte : List UInt8 → Option (UInt8 × List UInt8)
  | [] => none
  | b :: rest => some (b, rest)

theorem readString_back {string : List UInt8} (word : string.length < 65536) :
    ReadsBack readString writeCString string := by
  intro rest
  have count : 256 * (UInt8.ofNat (string.length / 256)).toNat +
      (UInt8.ofNat (string.length % 256)).toNat = string.length := by
    rw [UInt8.toNat_ofNat', UInt8.toNat_ofNat']
    omega
  rw [writeCString, writeInt, List.append_assoc, List.cons_append, List.cons_append,
    List.nil_append, readString, count, if_pos (by simp)]
  simp

theorem readString_canonical : Canonical readString writeCString := by
  intro bytes string rest got
  unfold readString at got
  split at got
  · rename_i high low back
    split at got
    · rename_i inside
      cases got
      have bound := high.toNat_lt
      have bound' := low.toNat_lt
      rw [writeCString, List.length_take, Nat.min_eq_left inside, writeInt]
      have first : UInt8.ofNat ((256 * high.toNat + low.toNat) / 256) = high := by
        rw [show (256 * high.toNat + low.toNat) / 256 = high.toNat by omega, UInt8.ofNat_toNat]
      have second : UInt8.ofNat ((256 * high.toNat + low.toNat) % 256) = low := by
        rw [show (256 * high.toNat + low.toNat) % 256 = low.toNat by omega, UInt8.ofNat_toNat]
      rw [first, second, List.append_assoc, List.take_append_drop]
      rfl
    · cases got
  · cases got

theorem readString_advances : Advances readString := by
  intro bytes string rest got
  rw [readString_canonical got, List.length_append, writeCString_length]
  omega

theorem readByte_back (b : UInt8) : ReadsBack readByte (fun b => [b]) b := fun _ => rfl

theorem readByte_canonical : Canonical readByte (fun b => [b]) := by
  intro bytes b rest got
  cases bytes with
  | nil => cases got
  | cons c bytes =>
    cases got
    rfl

/-- A topic filter and the QoS requested for it. -/
abbrev readTopic : List UInt8 → Option ((List UInt8 × UInt8) × List UInt8) := both readString readByte

def writeTopic (t : List UInt8 × UInt8) : List UInt8 := writeCString t.1 ++ [t.2]

theorem readTopic_canonical : Canonical readTopic writeTopic :=
  both_canonical readString_canonical readByte_canonical

theorem readTopic_advances : Advances readTopic := by
  intro bytes t rest got
  rw [readTopic_canonical got, List.length_append, writeTopic, List.length_append,
    writeCString_length]
  omega

def window (m : Mem) (curdata enddata : Nat) : List UInt8 := slice m curdata (enddata - curdata)

variable {α : Type} {m : Mem} {curdata enddata : Nat}

def Windowed (entry : Nat → Option (α × Nat)) (read : List UInt8 → Option (α × List UInt8))
    (m : Mem) (enddata : Nat) : Prop :=
  ∀ curdata ≤ enddata, match entry curdata with
    | none => read (window m curdata enddata) = none
    | some (a, next) => next ≤ enddata ∧ read (window m curdata enddata) = some (a, window m next enddata)

theorem window_length (inside : curdata ≤ enddata) : curdata + (window m curdata enddata).length = enddata := by
  rw [window, slice_length]
  omega

theorem window_cons (inside : curdata < enddata) :
    window m curdata enddata = m curdata :: window m (curdata + 1) enddata := by
  rw [window, show enddata - curdata = 1 + (enddata - (curdata + 1)) by omega, slice_add]
  simp [slice, window]

theorem window_drop (count : Nat) :
    (window m curdata enddata).drop count = window m (curdata + count) enddata := by
  rw [window, slice_drop, window, Nat.sub_sub]

theorem string_windowed (m : Mem) (enddata : Nat) :
    Windowed (fun curdata => readMqttLenString m curdata enddata) readString m enddata := by
  intro curdata inside
  dsimp only
  unfold readMqttLenString
  by_cases short : curdata + 1 < enddata
  · have front : window m curdata enddata =
        m curdata :: m (curdata + 1) :: window m (curdata + 2) enddata := by
      rw [window_cons (by omega), window_cons short]
    have back := window_length (m := m) (show curdata + 2 ≤ enddata by omega)
    have count : readInt (shift m curdata) = 256 * (m curdata).toNat + (m (curdata + 1)).toNat := rfl
    rw [if_pos short, front]
    dsimp only
    rw [count]
    by_cases fits : curdata + 2 + (256 * (m curdata).toNat + (m (curdata + 1)).toNat) ≤ enddata
    · rw [if_pos fits]
      refine ⟨fits, ?_⟩
      rw [readString, if_pos (by omega), window_drop, window, slice_take m _ (by omega)]
    · rw [if_neg fits]
      dsimp only
      rw [readString, if_neg (by omega)]
  · rw [if_neg short]
    dsimp only
    by_cases one : curdata < enddata
    · rw [window_cons one, window, show enddata - (curdata + 1) = 0 by omega]
      rfl
    · rw [window, show enddata - curdata = 0 by omega]
      rfl

theorem topic_windowed (m : Mem) (enddata : Nat) :
    Windowed (subscribeEntry m enddata) readTopic m enddata := by
  intro curdata inside
  have front := string_windowed m enddata curdata inside
  unfold subscribeEntry
  dsimp only at front
  cases got : readMqttLenString m curdata enddata with
  | none =>
    rw [got] at front
    dsimp only at front
    show both readString readByte (window m curdata enddata) = none
    rw [both, front]
  | some r =>
    obtain ⟨topic, next⟩ := r
    rw [got] at front
    dsimp only [Option.bind_eq_bind, Option.bind_some] at front ⊢
    rw [readTopic, both, front.2]
    by_cases finish : enddata ≤ next
    · rw [if_pos finish]
      dsimp only
      rw [window, show enddata - next = 0 by omega]
      rfl
    · rw [if_neg finish]
      refine ⟨by omega, ?_⟩
      rw [window_cons (by omega)]
      rfl

theorem entries_window {entry : Nat → Option (α × Nat)}
    {read : List UInt8 → Option (α × List UInt8)} (windowed : Windowed entry read m enddata)
    (inside : curdata ≤ enddata) (fuel : Nat) :
    entries entry enddata fuel curdata =
      ((readAll read fuel (window m curdata enddata)).1,
        (readAll read fuel (window m curdata enddata)).2.isEmpty) := by
  induction fuel generalizing curdata with
  | zero =>
    refine Prod.ext rfl ?_
    rw [entries, readAll]
    by_cases last : enddata ≤ curdata
    · rw [decide_eq_true last, window, show enddata - curdata = 0 by omega]
      rfl
    · rw [decide_eq_false last, window_cons (by omega)]
      rfl
  | succ fuel ih =>
    by_cases more : curdata < enddata
    · have here := windowed curdata inside
      rw [entries, if_pos more, readAll, if_neg (by rw [window_cons more]; simp)]
      cases got : entry curdata with
      | none =>
        rw [got] at here
        dsimp only at here ⊢
        rw [here, window_cons more]
        rfl
      | some r =>
        rw [got] at here
        dsimp only at here ⊢
        rw [here.2, ih here.1]
    · rw [entries, if_neg more, window, show enddata - curdata = 0 by omega]
      rfl

theorem entries_none {entry : Nat → Option (α × Nat)} (past : enddata ≤ curdata) (fuel : Nat) :
    entries entry enddata fuel curdata = ([], true) := by
  cases fuel with
  | zero => simp [entries, past]
  | succ fuel => rw [entries, if_neg (by omega)]

variable (entry : Mem → (enddata curdata : Nat) → Option (α × Nat))
  {read : List UInt8 → Option (α × List UInt8)} {write : α → List UInt8}

def body (m : Mem) : List UInt8 :=
  window m (1 + (mqttPacketDecodeBuf (shift m 1)).1 + 2)
    (1 + (mqttPacketDecodeBuf (shift m 1)).1 + (mqttPacketDecodeBuf (shift m 1)).2)

/-- The entries fill the packet, or stand in front of one that is cut short. -/
structure Fills (m : Mem) (read : List UInt8 → Option (α × List UInt8)) (write : α → List UInt8)
    (code : Nat) (topics : Topics α) : Prop where
  dup : topics.dup = dupBits (m 0)
  packetid : topics.packetid = readInt (shift m (1 + (mqttPacketDecodeBuf (shift m 1)).1))
  entries : ∃ left, body m = topics.entries.flatMap write ++ left ∧
    (left = [] ∧ code = 1 ∨ left ≠ [] ∧ read left = none ∧ code = (mqttPacketDecodeBuf (shift m 1)).1)

theorem deserializeTopics_fills (windowed : ∀ enddata, Windowed (entry m enddata) read m enddata)
    (canonical : Canonical read write) (advances : Advances read) :
    Fills m read write (deserializeTopics entry m).1 (deserializeTopics entry m).2 := by
  refine ⟨rfl, rfl, ?_⟩
  unfold deserializeTopics body
  dsimp only
  generalize (mqttPacketDecodeBuf (shift m 1)).1 = rc
  generalize (mqttPacketDecodeBuf (shift m 1)).2 = mylen
  by_cases long : 2 ≤ mylen
  · have inside : 1 + rc + 2 ≤ 1 + rc + mylen := by omega
    have size := window_length (m := m) inside
    rw [entries_window (windowed _) inside]
    have split := readAll_canonical canonical mylen (window m (1 + rc + 2) (1 + rc + mylen))
    have stops := readAll_stops advances
      (show (window m (1 + rc + 2) (1 + rc + mylen)).length ≤ mylen by omega)
    refine ⟨_, split, ?_⟩
    dsimp only
    by_cases filled : (readAll read mylen (window m (1 + rc + 2) (1 + rc + mylen))).2 = []
    · exact Or.inl ⟨filled, by rw [filled]; rfl⟩
    · refine Or.inr ⟨filled, stops.resolve_left filled, ?_⟩
      rw [if_neg (by rwa [List.isEmpty_iff])]
  · rw [entries_none (by omega), window, show 1 + rc + mylen - (1 + rc + 2) = 0 by omega]
    exact ⟨[], rfl, Or.inl ⟨rfl, rfl⟩⟩

theorem deserializeTopics_back (windowed : ∀ enddata, Windowed (entry m enddata) read m enddata)
    (advances : Advances read) {head : UInt8} {packetid : Nat} {codes : List α}
    (back : ∀ a ∈ codes, ReadsBack read write a) (word : packetid < 65536)
    (small : 2 + (codes.flatMap write).length < 128 ^ 4)
    (here : At m 0 ([head] ++ mqttPacketEncode (2 + (codes.flatMap write).length) ++
      writeInt packetid ++ codes.flatMap write)) :
    m 0 = head ∧ deserializeTopics entry m = (1, ⟨dupBits head, packetid, codes⟩) := by
  have two : (writeInt packetid).length = 2 := rfl
  rw [List.append_assoc, List.append_assoc, List.singleton_append, at_cons, at_append, at_append,
    two] at here
  obtain ⟨first, count, id, text⟩ := here
  have field := (count.move 1 rfl).length small
  unfold deserializeTopics
  rw [field]
  dsimp only
  generalize (mqttPacketEncode (2 + (codes.flatMap write).length)).length = rc at id text ⊢
  have number := (id.move (1 + rc) (by omega)).readInt word
  have bytes : window m (1 + rc + 2) (1 + rc + (2 + (codes.flatMap write).length)) =
      codes.flatMap write := by
    rw [window, show 1 + rc + (2 + (codes.flatMap write).length) - (1 + rc + 2) =
      (codes.flatMap write).length by omega]
    exact text.move _ (by omega)
  rw [first, number, entries_window (windowed _) (by omega), bytes,
    readAll_back advances back (by omega)]
  exact ⟨rfl, rfl⟩

/-- What is read of any SUBSCRIBE or UNSUBSCRIBE are the topics that it was written from, up to
the first that is cut short. The code is 1 when they fill the packet and else the length of
its length field, which is 1 again for a packet of less than 128 bytes. -/
theorem topics_fill (m : Mem) :
    (typeBits (m 0) = msgSubscribe → ∃ (code : Nat) (topics : _),
      mqttDeserializeSubscribe m = ((code : Int), some topics) ∧
        Fills m readTopic writeTopic code topics) ∧
    (typeBits (m 0) = msgUnsubscribe → ∃ (code : Nat) (topics : _),
      mqttDeserializeUnsubscribe m = ((code : Int), some topics) ∧
        Fills m readString writeCString code topics) := by
  constructor
  · intro type
    exact ⟨_, _, if_neg (fun other => other type),
      deserializeTopics_fills subscribeEntry (topic_windowed m) readTopic_canonical readTopic_advances⟩
  · intro type
    exact ⟨_, _, if_neg (fun other => other type),
      deserializeTopics_fills (fun m enddata curdata => readMqttLenString m curdata enddata)
        (string_windowed m) readString_canonical readString_advances⟩

/-- The length of the only topic leads behind the end, and the packet is reported as read. -/
theorem topics_fill_cut :
    mqttDeserializeSubscribe (ofList [0x82, 4, 0, 1, 0, 5]) = (1, some ⟨0, 1, []⟩) ∧
      Fills (ofList [0x82, 4, 0, 1, 0, 5]) readTopic writeTopic 1 ⟨0, 1, []⟩ := by
  have cut : mqttDeserializeSubscribe (ofList [0x82, 4, 0, 1, 0, 5]) = (1, some ⟨0, 1, []⟩) := rfl
  obtain ⟨code, topics, read, fills⟩ := (topics_fill (ofList [0x82, 4, 0, 1, 0, 5])).1 (by decide)
  obtain ⟨one, same⟩ := Prod.mk.inj (cut.symm.trans read)
  obtain rfl : 1 = code := by omega
  obtain rfl := Option.some.inj same
  exact ⟨cut, fills⟩

/-- The topics of a SUBSCRIBE or an UNSUBSCRIBE, however many, are read as they were
serialized. -/
theorem topics_read_back (m : Mem) (buf : List UInt8) (buflen dup : Nat) {packetid : Nat} (word : packetid < 65536) :
    (∀ topics : List (List UInt8 × UInt8), (∀ t ∈ topics, t.1.length < 65536) →
      mqttSerializeSubscribeLength topics < 128 ^ 4 →
      0 < (mqttSerializeSubscribe buf buflen dup packetid topics).1 →
      At m 0 (sentBytes (mqttSerializeSubscribe buf buflen dup packetid topics)) →
        mqttDeserializeSubscribe m = (1, some ⟨dup % 2, packetid, topics⟩)) ∧
    ∀ topicFilters : List (List UInt8), (∀ t ∈ topicFilters, t.length < 65536) →
      mqttSerializeUnsubscribeLength topicFilters < 128 ^ 4 →
      0 < (mqttSerializeUnsubscribe buf buflen dup packetid topicFilters).1 →
      At m 0 (sentBytes (mqttSerializeUnsubscribe buf buflen dup packetid topicFilters)) →
        mqttDeserializeUnsubscribe m = (1, some ⟨dup % 2, packetid, topicFilters⟩) := by
  constructor
  · intro topics words small done sent
    rw [mqttSerializeSubscribe] at done sent
    rw [(checked_done done).2] at sent
    have size : mqttSerializeSubscribeLength topics = 2 + (topics.flatMap writeTopic).length :=
      subscribeLength_eq topics
    rw [subscribePacket, size] at sent
    rw [size] at small
    obtain ⟨first, back⟩ := deserializeTopics_back subscribeEntry (topic_windowed m) readTopic_advances
      (fun t member => both_readsBack (readString_back (words t member)) (readByte_back t.2))
      word small sent
    rw [mqttDeserializeSubscribe, first, typeBits_header, if_neg (by decide), back]
    simp
  · intro topicFilters words small done sent
    rw [mqttSerializeUnsubscribe] at done sent
    rw [(checked_done done).2] at sent
    have size := unsubscribeLength_eq topicFilters
    rw [unsubscribePacket, size] at sent
    rw [size] at small
    obtain ⟨first, back⟩ := deserializeTopics_back (fun m enddata curdata => readMqttLenString m curdata enddata)
      (string_windowed m) readString_advances (fun t member => readString_back (words t member))
      word small sent
    rw [mqttDeserializeUnsubscribe, first, typeBits_header, if_neg (by decide), back]
    simp

theorem topics_read_back_two :
    mqttDeserializeSubscribe (ofList (mqttSerializeSubscribe [] 64 0 9
        [(ascii "out", 1), (ascii "door", 2)]).2) =
      (1, some ⟨0, 9, [(ascii "out", 1), (ascii "door", 2)]⟩) :=
  (topics_read_back _ [] 64 0 (show 9 < 65536 by decide)).1 [(ascii "out", 1), (ascii "door", 2)]
    (by decide) (by decide) (by decide) (by decide)

end Topics

section Acks
variable {m : Mem}

theorem ack_at {head : UInt8} {packetid : Nat} (word : packetid < 65536)
    (here : At m 0 ([head] ++ mqttPacketEncode 2 ++ writeInt packetid)) :
    mqttDeserializeAck m = (1, typeBits head, dupBits head, some packetid) := by
  rw [List.append_assoc, List.singleton_append, at_cons, at_append] at here
  obtain ⟨first, count, id⟩ := here
  have field := (count.move 1 rfl).length (by decide)
  have one : (mqttPacketEncode 2).length = 1 := rfl
  rw [one] at id field
  have number := (id.move (1 + 1) rfl).readInt word
  unfold mqttDeserializeAck
  rw [field, first]
  dsimp only
  rw [if_neg (by decide), number]

/-- The acknowledgements and the CONNACK are read as they were serialized. What
`MQTTDeserialize_unsuback` returns does not tell an UNSUBACK from any other of them. -/
theorem acks_read_back (m : Mem) (buf : List UInt8) {buflen : Nat} (room : 4 ≤ buflen) :
    (∀ packettype dup packetid, packetid < 65536 →
      At m 0 (sentBytes (mqttSerializeAck buf buflen packettype dup packetid)) →
        mqttDeserializeAck m = (1, packettype % 16, dup % 2, some packetid) ∧
          mqttDeserializeUnsuback m = (1, some packetid)) ∧
    (∀ packetid < 65536, At m 0 (sentBytes (mqttSerializeUnsuback buf buflen packetid)) →
      mqttDeserializeUnsuback m = (1, some packetid)) ∧
    ∀ connackRc sessionPresent,
      At m 0 (sentBytes (mqttSerializeConnack buf buflen connackRc sessionPresent)) →
        mqttDeserializeConnack m = (1, some connackRc.toNat) := by
  refine ⟨fun packettype dup packetid word sent => ?_, fun packetid word sent => ?_,
    fun connackRc sessionPresent sent => ?_⟩
  · rw [sentBytes_ack buf packettype dup packetid room] at sent
    have ack := ack_at word sent
    rw [typeBits_header, dupBits_header] at ack
    refine ⟨ack, ?_⟩
    rw [mqttDeserializeUnsuback, ack]
    dsimp only
    split <;> rfl
  · have done : 0 < (mqttSerializeUnsuback buf buflen packetid).1 := by
      rw [mqttSerializeUnsuback, checked, if_neg (by omega)]
      exact Int.natCast_pos.mpr (by simp [unsubackPacket])
    rw [mqttSerializeUnsuback] at done sent
    rw [(checked_done done).2] at sent
    rw [mqttDeserializeUnsuback, ack_at word sent]
    dsimp only
    rw [typeBits_header]
    rfl
  · have done : 0 < (mqttSerializeConnack buf buflen connackRc sessionPresent).1 := by
      rw [mqttSerializeConnack, checked, if_neg (by omega)]
      exact Int.natCast_pos.mpr (by simp [connackPacket])
    rw [mqttSerializeConnack] at done sent
    rw [(checked_done done).2, connackPacket, List.append_assoc, List.singleton_append, at_cons,
      at_append] at sent
    obtain ⟨first, count, flags⟩ := sent
    have field := (count.move 1 rfl).length (by decide)
    have one : (mqttPacketEncode 2).length = 1 := rfl
    rw [one] at field flags
    rw [at_cons, at_cons] at flags
    unfold mqttDeserializeConnack
    rw [first, typeBits_header, if_neg (by decide), field]
    dsimp only
    rw [if_neg (by decide), flags.2.1]

theorem acks_read_back_puback :
    mqttDeserializeUnsuback (ofList (mqttSerializeAck [] 4 msgPuback 0 258).2) = (1, some 258) :=
  ((acks_read_back _ [] (Nat.le_refl 4)).1 msgPuback 0 258 (by decide) (by decide)).2

end Acks

section Suback

theorem grantedLoop_eq (m : Mem) (maxcount : Nat) {left curdata count : Nat} (started : count ≤ maxcount + 1) :
    grantedLoop m maxcount left curdata count =
      (decide (count + left ≤ maxcount + 1), (slice m curdata left).take (maxcount + 1 - count)) := by
  induction left generalizing curdata count with
  | zero => simp [grantedLoop, slice, started]
  | succ left ih =>
    have front : slice m curdata (left + 1) = m curdata :: slice m (curdata + 1) left := by
      rw [Nat.add_comm left 1, slice_add]
      simp [slice]
    rw [grantedLoop, front]
    by_cases full : maxcount < count
    · have none : maxcount + 1 - count = 0 := by omega
      rw [if_pos full, none, List.take_zero, decide_eq_false (by omega)]
    · obtain ⟨room, more⟩ : ∃ room, maxcount + 1 - count = room + 1 := ⟨maxcount - count, by omega⟩
      rw [if_neg full, ih (by omega), more, List.take_succ_cons]
      dsimp only
      rw [show maxcount + 1 - (count + 1) = room by omega, Nat.add_right_comm, Nat.add_assoc]

/-- One code more than `maxcount` is stored, and a SUBACK is read when it has no more than
these. -/
theorem suback_read_back (m : Mem) (buf : List UInt8) {grantedQoss : List UInt8}
    (buflen maxcount : Nat) {packetid : Nat}
    (word : packetid < 65536) (small : 2 + grantedQoss.length < 128 ^ 4)
    (done : 0 < (mqttSerializeSuback buf buflen packetid grantedQoss).1)
    (sent : At m 0 (sentBytes (mqttSerializeSuback buf buflen packetid grantedQoss))) :
    mqttDeserializeSuback m maxcount =
      (if grantedQoss.length ≤ maxcount + 1 then 1 else -1,
        some (packetid, grantedQoss.take (maxcount + 1))) := by
  have two : (writeInt packetid).length = 2 := rfl
  rw [mqttSerializeSuback] at done sent
  rw [(checked_done done).2, subackPacket, List.append_assoc, List.append_assoc,
    List.singleton_append, at_cons, at_append, at_append, two] at sent
  obtain ⟨first, count, id, codes⟩ := sent
  have field := (count.move 1 rfl).length small
  unfold mqttDeserializeSuback
  rw [first, typeBits_header, if_neg (by decide), field]
  dsimp only
  generalize (mqttPacketEncode (2 + grantedQoss.length)).length = rc at id codes ⊢
  have number := (id.move (1 + rc) (by omega)).readInt word
  have bytes : slice m (1 + rc + 2) grantedQoss.length = grantedQoss := codes.move _ (by omega)
  rw [if_neg (by omega), number, grantedLoop_eq m maxcount (Nat.zero_le _), Nat.add_sub_cancel_left,
    bytes]
  simp

theorem suback_read_back_three :
    mqttDeserializeSuback (ofList (mqttSerializeSuback [] 64 9 [0, 1, 2]).2) 1 =
      (-1, some (9, [0, 1])) :=
  suback_read_back _ [] 64 1 (show 9 < 65536 by decide)
    (show 2 + [0, 1, (2 : UInt8)].length < 128 ^ 4 by decide) (by decide) (by decide)

end Suback

end BoxFirmware.MqttReadBack
