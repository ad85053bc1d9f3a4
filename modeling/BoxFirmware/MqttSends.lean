import BoxFirmware.MqttHeap

/-! What `mqtt_thread` hands to `transport_sendPacketBuffer`, and the pointers of `mymalloc` that
it reads and writes through. No site looks at the serializer's result before it sends, and no
site but the door and the fan report looks at its block, which then leave only the `sprintf`
out. The other tasks may take and free blocks between two turns. -/
namespace BoxFirmware.MqttSends
open ByteMem CText GuardedRun Malloc MqttPacket MqttThread MqttHeap

/-- A packet goes out with a length that its serializer made in the buffer. -/
def Fitting : Event → Prop
  | .sent _ _ len _ => 0 < len ∧ len ≤ buflen
  | _ => True

def blockOf : Event → Option Nat
  | .malloc _ ptr => some ptr
  | _ => none

/-- The pointers that a turn reads or writes through: a report its block, and the command search
`payload_in`. -/
def accessed (b : Board) (env : Env) (st : St) : List Nat :=
  let r := (iteration b env st).1
  r.timed.filterMap blockOf ++
    if r.dispatched = msgPublish then [payloadIn b env (atSwitch b env st)]
    else r.answer.filterMap blockOf

def Careful (b : Board) (env : Env) (st : St) : Prop :=
  (∀ e ∈ (iteration b env st).1.events, Fitting e) ∧ 0 ∉ accessed b env st

def TextFits (text : List UInt8) : Prop :=
  mqttPacketLen (mqttSerializePublishLength publishReqQos devicePublish text) ≤ buflen

instance (text : List UInt8) : Decidable (TextFits text) := inferInstanceAs (Decidable (_ ≤ _))

section Sites

def eventServed (b : Board) (flag : Bool) (st : St) : Prop :=
  flag = true → (mallocSramin b 256 st).1 ≠ 0

def recordServed (b : Board) (env : Env) (site : Site) (n : Nat) (st : St) : Prop :=
  (mallocSramin b 1024 st).1 ≠ 0 ∧ TextFits (recordText b env site (mallocSramin b 1024 st).1 n)

def initServed (b : Board) (env : Env) (st : St) : Prop :=
  st.ti = true → recordServed b env .init 1024 st

def mailServed (env : Env) : Prop :=
  ∀ payloadOut, env.mail = some payloadOut → TextFits (cstr payloadOut)

def publishServed (b : Board) (env : Env) (now : St) : Prop :=
  (deserializePublish env now).payload = none → payloadBlock b now ≠ 0

def shown (env : Env) (st : St) : St :=
  { (wake env st).emit [.uart (ascii "displaynew\r\n")] with sendtick := env.sendSet }

def reportsServed (b : Board) (env : Env) (st : St) : Prop :=
  eventServed b st.doorFlag st ∧ eventServed b (doorReport b env st).fanWarn (doorReport b env st) ∧
    initServed b env (fanReport b env (doorReport b env st)) ∧ mailServed env

def Served (b : Board) (env : Env) (st : St) : Prop :=
  st.halted = false →
    (polls env st → reportsServed b env (shown env st)) ∧
    (switchOn env st = msgPublish → publishServed b env (atSwitch b env st)) ∧
    (switchOn env st = 15 → recordServed b env .answer 700 (atSwitch b env st))

end Sites

section Packets

theorem encodeDigits_short (k : Nat) {fuel n : Nat} (small : n < 128 ^ (k + 1)) :
    (encodeDigits fuel n).length ≤ k + 1 := by
  induction fuel generalizing k n with
  | zero => exact Nat.zero_le _
  | succ fuel ih =>
    rw [encodeDigits]
    split
    · cases k with
      | zero => omega
      | succ k =>
        have rest := ih k (n := n / 128) (by rw [Nat.pow_succ] at small; omega)
        rw [List.length_cons]
        omega
    · exact Nat.succ_le_succ (Nat.zero_le _)

theorem encode_length_le {n : Nat} (short : mqttPacketLen n ≤ buflen) :
    1 + (mqttPacketEncode n).length + n ≤ buflen := by
  have one : n < 128 → (mqttPacketEncode n).length ≤ 1 := encodeDigits_short 0
  have two : n < 128 ^ 2 → (mqttPacketEncode n).length ≤ 2 := encodeDigits_short 1
  simp only [mqttPacketLen, buflen] at short ⊢
  split_ifs at short <;> omega

theorem serialized_fits (buf : List UInt8) {remLen : Nat} {packet : List UInt8}
    (size : packet.length = 1 + (mqttPacketEncode remLen).length + remLen) :
    (0 < (serialized buf buflen remLen packet).1 ∧ (serialized buf buflen remLen packet).1 ≤ buflen) ↔
      mqttPacketLen remLen ≤ buflen := by
  unfold serialized
  by_cases short : mqttPacketLen remLen ≤ buflen
  · have fits := encode_length_le short
    rw [if_neg (Nat.not_lt.mpr short)]
    refine iff_of_true ⟨?_, ?_⟩ short <;> dsimp only <;> omega
  · rw [if_pos (Nat.not_le.mp short)]
    exact iff_of_false (fun sent => absurd sent.1 (by simp [mqttPacketBufferTooShort])) short

theorem publishPacket_size (dup qos retained packetid : Nat) (topicName payload : List UInt8) :
    (publishPacket dup qos retained packetid topicName payload).length =
      1 + (mqttPacketEncode (mqttSerializePublishLength qos topicName payload)).length +
        mqttSerializePublishLength qos topicName payload := by
  have id : (if qos > 0 then writeInt packetid else []).length = if qos > 0 then 2 else 0 := by
    split <;> rfl
  simp only [publishPacket, List.length_append, List.length_singleton, id, writeCString]
  rw [show (writeInt topicName.length).length = 2 from rfl]
  conv => rhs; rhs; unfold mqttSerializePublishLength
  omega

theorem publishEvent_fitting (sock : Int) (msgid retained : Nat) (rc : Int) (text : List UInt8) :
    Fitting (publishEvent sock msgid retained rc text) ↔ TextFits text :=
  serialized_fits [] (publishPacket_size 0 publishReqQos retained msgid devicePublish text)

theorem connect_fitting (b : Board) (buf : List UInt8) :
    0 < (mqttSerializeConnect buf buflen b.data).1 ∧
      (mqttSerializeConnect buf buflen b.data).1 ≤ buflen := by
  refine (serialized_fits buf ?_).mpr (connect_fits b)
  have length : mqttSerializeConnectLength b.data = 10 + ((formatInt b.clientId).length + 2) +
      ((readCredential b.chip 100).length + 2) + ((readCredential b.chip 200).length + 2) := rfl
  have protocol : (ascii "MQTT").length = 4 := rfl
  have word : ∀ n, (writeInt n).length = 2 := fun _ => rfl
  generalize mqttSerializeConnectLength b.data = remLen at length ⊢
  simp only [Board.data, writeCredential, writeCString, List.length_append, List.length_singleton, word,
    if_true, protocol]
  omega

theorem subscribe_fitting (b : Board) (buf : List UInt8) (msgid : Nat) :
    0 < (mqttSerializeSubscribe buf buflen 0 msgid b.deviceSubscribe 1).1 ∧
      (mqttSerializeSubscribe buf buflen 0 msgid b.deviceSubscribe 1).1 ≤ buflen := by
  refine (serialized_fits buf ?_).mpr ?_
  · have word : ∀ n, (writeInt n).length = 2 := fun _ => rfl
    simp only [List.length_append, List.length_singleton, word, writeCString]
    omega
  · have id := formatInt_length_le b.clientId
    have box : (ascii "box_").length = 4 := rfl
    have topic : b.deviceSubscribe.length = 4 + (formatInt b.clientId).length := by
      rw [Board.deviceSubscribe, List.length_append, box]
    simp only [topic, mqttPacketLen, buflen]
    split_ifs <;> omega

end Packets

section Logs

def Good : Event → Prop
  | .malloc _ ptr => ptr ≠ 0
  | e => Fitting e

theorem good_all (es : List Event) :
    (∀ e ∈ es, Good e) ↔ (∀ e ∈ es, Fitting e) ∧ 0 ∉ es.filterMap blockOf := by
  induction es with
  | nil => simp
  | cons e es ih =>
    rw [List.forall_mem_cons, List.forall_mem_cons, ih]
    cases e with
    | malloc size ptr => simp [Good, Fitting, blockOf, eq_comm, and_left_comm]
    | _ => simp [Good, blockOf, and_assoc]

def Adds (st st' : St) (C : Prop) : Prop :=
  ∃ es, st'.log = st.log ++ es ∧ ((∀ e ∈ es, Good e) ↔ C)

theorem adds_nothing {st st' : St} {C : Prop} (same : st'.log = st.log) (holds : C) : Adds st st' C :=
  ⟨[], by rw [same, List.append_nil], iff_of_true (by simp) holds⟩

theorem Adds.trans {st mid st' : St} {C D : Prop} (first : Adds st mid C) (second : Adds mid st' D) :
    Adds st st' (C ∧ D) := by
  obtain ⟨es, log, good⟩ := first
  obtain ⟨fs, log', good'⟩ := second
  refine ⟨es ++ fs, by rw [log', log, List.append_assoc], ?_⟩
  rw [List.forall_mem_append, good, good']

variable (b : Board) (env : Env) (st : St)

theorem block_good (size ptr : Nat) (sock : Int) (msgid retained : Nat) (rc : Int) (text : List UInt8) :
    (∀ e ∈ [.malloc size ptr, publishEvent sock msgid retained rc text, .free ptr], Good e) ↔
      ptr ≠ 0 ∧ TextFits text := by
  have packet : Good (publishEvent sock msgid retained rc text) ↔ TextFits text :=
    publishEvent_fitting sock msgid retained rc text
  simp only [List.forall_mem_cons, packet]
  simp [Good, Fitting]

theorem eventReport_adds (site : Site) (message : String) (short : (ascii message).length ≤ 100) :
    Adds st (eventReport b env site message st) ((mallocSramin b 256 st).1 ≠ 0) := by
  refine ⟨_, eventReport_log b env site message st, ?_⟩
  rw [block_good]
  refine ⟨fun good => good.1, fun had => ⟨had, ?_⟩⟩
  rw [if_neg had]
  exact eventText_fits b message short

theorem doorReport_adds : Adds st (doorReport b env st) (eventServed b st.doorFlag st) := by
  unfold doorReport eventServed
  cases flag : st.doorFlag with
  | false => exact adds_nothing rfl (by simp)
  | true =>
    simpa [Adds] using eventReport_adds b env st .door "open the door" (by decide)

theorem fanReport_adds : Adds st (fanReport b env st) (eventServed b st.fanWarn st) := by
  unfold fanReport eventServed
  cases flag : st.fanWarn with
  | false => exact adds_nothing rfl (by simp)
  | true =>
    simpa [Adds] using eventReport_adds b env st .fan "fan is not work" (by decide)

theorem initReport_adds : Adds st (initReport b env st) (initServed b env st) := by
  cases flag : st.ti with
  | false =>
    refine adds_nothing ?_ (fun first => absurd (flag.symm.trans first) (by simp))
    simp [initReport, flag]
  | true =>
    refine ⟨_, initReport_log b env st flag, ?_⟩
    rw [block_good]
    exact ⟨fun good _ => good, fun served => served flag⟩

theorem mailReport_adds : Adds st (mailReport b env st) (mailServed env) := by
  cases mail : env.mail with
  | none =>
    refine adds_nothing ?_ (fun payloadOut some => by rw [mail] at some; cases some)
    simp [mailReport, mail]
  | some payloadOut =>
    refine ⟨_, mailReport_log b env st payloadOut mail, ?_⟩
    have packet : Good (publishEvent st.mysock st.msgid st.retained (env.writeRc .mail)
        (cstr payloadOut)) ↔ TextFits (cstr payloadOut) :=
      publishEvent_fitting st.mysock st.msgid st.retained (env.writeRc .mail) (cstr payloadOut)
    rw [mailServed, mail]
    simp only [List.forall_mem_cons, packet]
    simp [Good, Fitting]

theorem beforeSwitch_good : (∀ e ∈ (beforeSwitch b env st).log, Good e) ↔
    (polls env st → reportsServed b env (shown env st)) := by
  obtain ⟨-, -, -, -, -, -, empty⟩ := wake_flags env st
  by_cases due : polls env st
  · have display : Adds (wake env st) (shown env st) True :=
      ⟨[.uart (ascii "displaynew\r\n")], rfl, iff_of_true (by simp [Good, Fitting]) trivial⟩
    have door := display.trans (doorReport_adds b env (shown env st))
    have fan := door.trans (fanReport_adds b env (doorReport b env (shown env st)))
    have init := fan.trans (initReport_adds b env (fanReport b env (doorReport b env (shown env st))))
    obtain ⟨es, log, good⟩ := init.trans (mailReport_adds b env _)
    rw [empty, List.nil_append] at log
    rw [beforeSwitch_due b due, blockReports, ← shown, log, good]
    simp only [reportsServed, true_and, and_assoc, due, true_imp_iff]
  · rw [beforeSwitch_early b due, empty]
    exact iff_of_true (by simp) (fun polled => absurd polled due)

end Logs

section Switch

variable {b : Board} {env : Env} {now : St}

theorem puback_fitting (mysock : Int) (vars : PublishVars) :
    ∀ e ∈ pubackEvents env mysock vars, Fitting e := by
  unfold pubackEvents
  split
  · intro e he
    rw [List.mem_singleton] at he
    rw [he, Fitting, serializeAck_fst zeroBuf _ _ _ (by decide)]
    decide
  · simp

theorem publishCase_fitting (running : now.halted = false) (empty : now.log = []) :
    ∀ e ∈ (publishCase b env now).log, Fitting e := by
  intro e he
  rw [publishCase_log b env now running, empty, List.nil_append] at he
  rcases publishEvents_cases he with rfl | command | rfl | puback
  · trivial
  · cases e <;> trivial
  · trivial
  · exact puback_fitting now.mysock _ e puback

/-- The payload lies behind the header, whatever the address of the buffer. -/
theorem payloadIn_had : payloadIn b env now ≠ 0 ↔ publishServed b env now := by
  unfold payloadIn publishServed
  cases payload : (deserializePublish env now).payload with
  | none => simp
  | some offset =>
    refine iff_of_true ?_ (by simp)
    by_cases publish : typeBits (bufMem env now 0) = msgPublish
    · have place := payload.symm.trans (deserializePublish_view
        ⟨now.dup, now.qos, now.retained, now.msgid, none, 0⟩ publish).2
      have behind : 2 < idAt (bufMem env now) := by
        unfold idAt
        dsimp only
        omega
      split at place
      · cases place
      · have offset := Option.some.inj place
        split at offset <;> dsimp only <;> omega
    · rw [deserializePublish, deserializePublish_other _ publish] at payload
      cases payload

theorem dispatch_good (empty : now.log = []) (running : now.halted = false)
    (other : now.msgtypes ≠ msgPublish) : (∀ e ∈ (dispatch b env now).log, Good e) ↔
      (now.msgtypes = 15 → recordServed b env .answer 700 now) := by
  have plain : ∀ {es : List Event}, now.msgtypes ≠ 15 → (∀ e ∈ es, Good e) →
      ((∀ e ∈ es, Good e) ↔ (now.msgtypes = 15 → recordServed b env .answer 700 now)) :=
    fun no good => iff_of_true good (fun info => absurd info no)
  have answers := @dispatch_answers b env now empty running
  generalize (dispatch b env now).log = es at answers ⊢
  cases answers with
  | connect type =>
    refine plain (by rw [type]; decide) ?_
    rw [List.forall_mem_singleton]
    exact connect_fitting b now.buf
  | publish type => exact absurd type other
  | pubrel type =>
    refine plain (by rw [type]; decide) ?_
    rw [List.forall_mem_singleton, serializeAck_fst zeroBuf _ _ _ (by decide)]
    simp [Good, Fitting, buflen]
  | subscribe type =>
    refine plain (by rw [type]; decide) ?_
    rw [List.forall_mem_singleton]
    exact subscribe_fitting b now.buf now.msgid
  | pingreq type =>
    refine plain (by rw [type]; decide) ?_
    rw [pingreq_rc]
    split <;> simp [Good, Fitting, buflen]
  | info type =>
    rw [block_good]
    exact ⟨fun good _ => good, fun served => served type⟩
  | quiet no => exact plain no (by simp)

end Switch

section Runs

variable (b : Board) (env : Env) (st : St)

theorem turn_events_fitting {st : St} (running : st.halted = false) :
    (∀ e ∈ (iteration b env st).1.events, Fitting e) ↔
      (∀ e ∈ (beforeSwitch b env st).log, Fitting e) ∧ ∀ e ∈ (afterSwitch b env st).log, Fitting e := by
  cases goes : (afterSwitch b env st).halted with
  | true =>
    rw [iteration_halts running goes]
    simp [Round.events, or_imp, forall_and]
  | false =>
    rw [iteration_reads running goes]
    cases (receive env (afterSwitch b env st)).1 <;>
      simp [Round.events, or_imp, forall_and, Fitting]

theorem accessed_eq {st : St} (running : st.halted = false) : accessed b env st =
    (beforeSwitch b env st).log.filterMap blockOf ++
      if switchOn env st = msgPublish then [payloadIn b env (atSwitch b env st)]
      else (afterSwitch b env st).log.filterMap blockOf := by
  cases goes : (afterSwitch b env st).halted with
  | true =>
    rw [accessed, iteration_halts running goes]
  | false =>
    rw [accessed, iteration_reads running goes]

/-- A turn in any state sends only what fits, and reads and writes through no null pointer, just
when its blocks are had and its texts fit. -/
theorem careful_iff : Careful b env st ↔ Served b env st := by
  cases running : st.halted with
  | true =>
    refine iff_of_true ?_ (fun runs => absurd (running.symm.trans runs) (by simp))
    simp [Careful, accessed, iteration_stopped b env running, Round.events, msgPublish]
  | false =>
    have halted : (atSwitch b env st).halted = false := atSwitch_running b env running
    have type := atSwitch_msgtypes b env st
    have reports := beforeSwitch_good b env st
    rw [good_all] at reports
    rw [Careful, turn_events_fitting b env running, accessed_eq b env running, List.mem_append, not_or,
      Served, running, ← reports, ← type, afterSwitch_eq]
    by_cases publish : (atSwitch b env st).msgtypes = msgPublish
    · have fitting := @publishCase_fitting b env _ halted rfl
      have other : (atSwitch b env st).msgtypes ≠ 15 := by rw [publish]; decide
      rw [dispatch_publish publish, if_pos publish, List.mem_singleton, eq_comm, ← ne_eq, payloadIn_had]
      constructor
      · rintro ⟨⟨fits, -⟩, had, block⟩ _
        exact ⟨⟨fits, had⟩, fun _ => block, fun info => absurd info other⟩
      · intro served
        obtain ⟨⟨fits, had⟩, block, -⟩ := served rfl
        exact ⟨⟨fits, fitting⟩, had, block publish⟩
    · have good := @dispatch_good b env _ rfl halted publish
      rw [good_all] at good
      rw [if_neg publish, ← good]
      constructor
      · rintro ⟨⟨fits, sent⟩, had, blocks⟩ _
        exact ⟨⟨fits, had⟩, fun type => absurd type publish, sent, blocks⟩
      · intro served
        obtain ⟨⟨fits, had⟩, -, sent, blocks⟩ := served rfl
        exact ⟨⟨fits, sent⟩, had, blocks⟩

/-- A turn on the heap as the other tasks leave it. -/
def heapTurn (i : Env × Pool) (st : St) : Round × St := iteration b i.1 { st with heap := i.2 }

/-- In every run of the thread, whatever the other tasks do to the heap between its turns, only
complete packets are sent and no null pointer is followed just when in all its turns the blocks
are had and the texts fit. -/
theorem sends_careful (s : Start) (inputs : List (Env × Pool)) :
    Along (fun i st => (heapTurn b i st).2) (fun i st => Careful b i.1 { st with heap := i.2 }) inputs
        (mqttThread s) ↔
      Along (fun i st => (heapTurn b i st).2) (fun i st => Served b i.1 { st with heap := i.2 }) inputs
        (mqttThread s) :=
  ⟨along_mono (fun (i : Env × Pool) (st : St) => (careful_iff b i.1 { st with heap := i.2 }).mp),
    along_mono (fun (i : Env × Pool) (st : St) => (careful_iff b i.1 { st with heap := i.2 }).mpr)⟩

def accepted : Start := startOn [0x20, 2, 0, 0]

def firstReport : List (Env × Pool) :=
  [calm, calm, { calm with sendNow := 2000 }].map (fun env => (env, ⟨fun _ => 0, true⟩))

/-- No configuration was stored yet: the 1024 bytes that the first report reads are no text, the
serializer returns -2, and that is the length of the write. -/
theorem sends_failed :
    ¬ (∀ (b : Board) (s : Start) (inputs : List (Env × Pool)),
      Along (fun i st => (heapTurn b i st).2) (fun i st => Careful b i.1 { st with heap := i.2 }) inputs
        (mqttThread s)) ∧
    Event.sent 0 [] (-2) 4 ∈
      (outputs (heapTurn blankBoard) firstReport (mqttThread accepted)).flatMap Round.timed := by
  have sent : Event.sent 0 [] (-2) 4 ∈
      (outputs (heapTurn blankBoard) firstReport (mqttThread accepted)).flatMap Round.timed := by
    decide +kernel
  refine ⟨fun all => ?_, sent⟩
  obtain ⟨-, -, careful, -⟩ := all blankBoard accepted firstReport
  exact absurd (careful.1 (.sent 0 [] (-2) 4) (by decide +kernel)).1 (by decide)

end Runs

end BoxFirmware.MqttSends
