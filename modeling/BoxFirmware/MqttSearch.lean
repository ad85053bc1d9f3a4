import BoxFirmware.MqttCommand
import BoxFirmware.MqttSends

/-! The command search of `mqtt_thread` against the packet that `MQTTPacket_read` has returned as
a PUBLISH, well-formed or not. The result of `MQTTDeserialize_publish` is not looked at, and the
text that `strstr` reads ends with the first zero behind `payload_in`. -/
namespace BoxFirmware.MqttSearch
open ByteMem CText GuardedRun MqttPacket MqttThread MqttCommand MqttHeap MqttSends

/-- What `MQTTPacket_read` returns: a header byte, its length field and as many bytes. -/
structure Packet where
  head : UInt8
  body : List UInt8
  fits : 1 + (mqttPacketEncode body.length).length + body.length ≤ buflen

namespace Packet

variable (p : Packet)

def bytes : List UInt8 := p.head :: mqttPacketEncode p.body.length ++ p.body

def image : List UInt8 := putBytes zeroBuf p.bytes

def qos : Nat := qosBits p.head

def front : Nat := 1 + (mqttPacketEncode p.body.length).length

def finish : Nat := p.front + p.body.length

def topicEnd : Nat := p.front + 2 + readInt (ofList p.body)

def start : Nat := if p.qos > 0 then p.topicEnd + 2 else p.topicEnd

def payload : List UInt8 := p.bytes.drop p.start

def HasTopic : Prop := 2 ≤ p.body.length ∧ p.topicEnd ≤ p.finish

/-- The topic and the packet id lie in the packet, and the QoS is none that MQTT forbids. -/
def WellFormed : Prop := p.HasTopic ∧ p.start ≤ p.finish ∧ p.qos < 3

def Ends : Prop := if p.start ≤ p.finish then p.finish < buflen ∨ 0 ∈ p.payload else p.start < buflen

instance : Decidable p.HasTopic := inferInstanceAs (Decidable (_ ∧ _))

instance : Decidable p.WellFormed := inferInstanceAs (Decidable (_ ∧ _))

instance : Decidable p.Ends := inferInstanceAs (Decidable (ite _ _ _))

theorem bytes_length : p.bytes.length = p.finish := by
  simp only [bytes, finish, front, List.length_append, List.length_cons]
  omega

theorem finish_le : p.finish ≤ buflen := p.fits

theorem payload_length : p.payload.length = p.finish - p.start := by
  rw [payload, List.length_drop, bytes_length]

theorem image_split : p.image = p.bytes ++ List.replicate (buflen - p.finish) 0 := by
  rw [image, putBytes, zeroBuf, List.drop_replicate, bytes_length]

theorem image_length : p.image.length = buflen := by
  have inside := p.finish_le
  rw [image_split, List.length_append, List.length_replicate, bytes_length]
  omega

theorem image_drop (inside : p.start ≤ p.finish) :
    p.image.drop p.start = p.payload ++ List.replicate (buflen - p.finish) 0 := by
  rw [image_split, List.drop_append_of_le_length (by rw [bytes_length]; exact inside), payload]

theorem image_drop_beyond (beyond : p.finish ≤ p.start) :
    p.image.drop p.start = List.replicate (buflen - p.start) 0 := by
  have inside := p.finish_le
  rw [image_split, List.drop_append, List.drop_eq_nil_of_le (by rw [bytes_length]; exact beyond),
    List.nil_append, List.drop_replicate, bytes_length]
  congr 1
  omega

/-- What `strstr` reads of the buffer and of the stack behind it. -/
def searched (tail : List UInt8) : List UInt8 := cstr ((p.image ++ tail).drop p.start)

theorem searched_of_ends {p : Packet} (ends : p.Ends) (tail : List UInt8) :
    p.searched tail = cstr p.payload := by
  have inside := p.finish_le
  have size := p.payload_length
  unfold Ends at ends
  by_cases room : p.start ≤ p.finish
  · rw [if_pos room] at ends
    rw [searched, List.drop_append_of_le_length (by rw [image_length]; omega), image_drop p room,
      List.append_assoc]
    by_cases zero : 0 ∈ p.payload
    · exact cstr_append_of_mem _ _ zero
    · have short := ends.resolve_right zero
      rw [show buflen - p.finish = (buflen - p.finish - 1) + 1 by omega, List.replicate_succ,
        List.cons_append, cstr_zero]
  · rw [if_neg room] at ends
    have none : p.payload = [] := List.eq_nil_of_length_eq_zero (by omega)
    rw [searched, List.drop_append_of_le_length (by rw [image_length]; omega),
      image_drop_beyond p (by omega), show buflen - p.start = (buflen - p.start - 1) + 1 by omega,
      List.replicate_succ, none]
    rfl

/-- The search stays in the payload and finds its end in the buffer just when a zero is there. -/
theorem ends_iff (tail : List UInt8) : p.Ends ↔
    (∀ i < (p.searched tail).length, p.start + i < p.finish) ∧
      p.start + (p.searched tail).length < buflen := by
  have inside := p.finish_le
  have size := p.payload_length
  constructor
  · intro ends
    rw [searched_of_ends ends]
    have short := cstr_length_le p.payload
    refine ⟨fun i read => by omega, ?_⟩
    unfold Ends at ends
    by_cases room : p.start ≤ p.finish
    · rw [if_pos room] at ends
      by_cases zero : 0 ∈ p.payload
      · obtain ⟨rest, split⟩ := cstr_split zero
        have count := congrArg List.length split
        rw [List.length_append, List.length_cons] at count
        omega
      · have room := ends.resolve_right zero
        omega
    · rw [if_neg room] at ends
      omega
  · rintro ⟨-, ended⟩
    unfold Ends
    by_cases room : p.start ≤ p.finish
    · rw [if_pos room]
      by_contra runsOn
      rw [not_or] at runsOn
      -- without a zero the search goes on behind the buffer
      rw [searched, List.drop_append_of_le_length (by rw [image_length]; omega), image_drop p room,
        List.append_assoc, cstr_append _ runsOn.2, List.length_append] at ended
      omega
    · rw [if_neg room]
      omega

end Packet

section Property

/-- The packet is in the buffer as it was read, `payload_in` points into it, and the search stays
in its payload, but for the zero, which is in the buffer. -/
structure Searches (b : Board) (env : Env) (now : St) (p : Packet) : Prop where
  kept : now.buf = p.image
  within : ∃ offset, (deserializePublish env now).payload = some offset ∧
    (∀ i < (publishText b env now).length, p.start ≤ offset + i ∧ offset + i < p.finish) ∧
    offset + (publishText b env now).length < buflen

structure Ignored (b : Board) (env : Env) (st : St) (p : Packet) : Prop where
  commands : ∀ e ∈ (iteration b env st).1.answer, ¬ CommandEvent e
  info : (afterSwitch b env st).msgtypes ≠ 15
  acks : ∀ e ∈ (iteration b env st).1.answer, e.isSent = false
  qos : (deserializePublish env (atSwitch b env st)).qos = p.qos
  pointer : (deserializePublish env (atSwitch b env st)).payload ≠ none

/-- A turn that searches for commands has just read a PUBLISH, searches it, and ignores a
malformed one. -/
def Proper (b : Board) (past : List Round) (env : Env) (st : St) : Prop :=
  st.halted = false → switchOn env st = msgPublish →
    ∃ p : Packet, pending past = some p.image ∧ Searches b env (atSwitch b env st) p ∧
      (¬ p.WellFormed → Ignored b env st p)

def mailPacket (st : St) (payloadOut : List UInt8) : List UInt8 :=
  publishPacket 0 publishReqQos st.retained st.msgid devicePublish (cstr payloadOut)

/-- The reports leave the buffer as it was: none is made, but for a mail that is too long, or
whose packet is what was in the buffer. -/
def Undisturbed (env : Env) (st : St) : Prop :=
  polls env st → match env.mail with
    | none => blanks env st = false
    | some payloadOut =>
      if TextFits (cstr payloadOut) then
        putBytes (if blanks env st then zeroBuf else st.buf) (mailPacket st payloadOut) = st.buf
      else blanks env st = false

/-- The packet has a topic, and its payload an end in the buffer; without room for its packet id
it is not of QoS 1, and of QoS 3 it has no keyword. -/
def Sound (p : Packet) : Prop :=
  p.HasTopic ∧ p.Ends ∧ (p.finish < p.start → p.qos ≠ 1) ∧
    (p.qos = 3 → hasKeyword (cstr p.payload) = false)

/-- A turn that searches for commands has just read a PUBLISH, its reports leave it alone, and it
is sound. -/
def Obeys (past : List Round) (env : Env) (st : St) : Prop :=
  st.halted = false → switchOn env st = msgPublish →
    ∃ p : Packet, pending past = some p.image ∧ Undisturbed env st ∧ Sound p

end Property

section Deserialize

variable {p : Packet} {env : Env} {now : St}

theorem readInt_append {front : List UInt8} (rest : List UInt8) (two : 2 ≤ front.length) :
    readInt (ofList (front ++ rest)) = readInt (ofList front) := by
  match front with
  | hi :: lo :: front => rfl

theorem deserialize_packet (publish : typeBits p.head = msgPublish) (holds : now.buf = p.image) :
    (deserializePublish env now).qos = p.qos ∧
      (deserializePublish env now).payload = if p.HasTopic then some p.start else none := by
  let rest := List.replicate (buflen - p.finish) 0 ++ env.stackTail
  let digits := mqttPacketEncode p.body.length
  have mem : bufMem env now = ofList (p.head :: (digits ++ (p.body ++ rest))) := by
    rw [bufMem, holds, Packet.image_split, Packet.bytes]
    simp only [rest, digits, List.cons_append, List.append_assoc]
  have behind : shift (bufMem env now) 1 = ofList (digits ++ (p.body ++ rest)) := by
    rw [mem]
    exact @shift_ofList [p.head] 1 rfl _
  have small : p.body.length < 128 ^ 4 := by
    have fits := p.fits
    simp only [buflen] at fits
    omega
  have length := decodeBuf_encode small (p.body ++ rest)
  rw [← behind] at length
  have topic : shift (bufMem env now) p.front = ofList (p.body ++ rest) := by
    rw [mem]
    exact @shift_ofList (p.head :: digits) p.front
      (by rw [List.length_cons, Packet.front, Nat.add_comm]) _
  obtain ⟨qos, payload⟩ := deserializePublish_view ⟨now.dup, now.qos, now.retained, now.msgid, none, 0⟩
    (show typeBits (bufMem env now 0) = msgPublish by rw [mem]; exact publish)
  have head : bufMem env now 0 = p.head := by rw [mem]; rfl
  rw [head] at qos payload
  refine ⟨qos, payload.trans ?_⟩
  rw [length]
  dsimp only
  by_cases two : 2 ≤ p.body.length
  · have place : idAt (bufMem env now) = p.topicEnd := by
      rw [idAt, length]
      dsimp only
      rw [show 1 + (mqttPacketEncode p.body.length).length = p.front from rfl, topic,
        readInt_append rest two]
      rfl
    rw [place]
    by_cases inside : p.topicEnd ≤ p.finish
    · rw [if_pos (show p.HasTopic from ⟨two, inside⟩), if_neg]
      · rfl
      · unfold Packet.finish Packet.front at inside
        omega
    · rw [if_neg (fun has : p.HasTopic => inside has.2), if_pos (Or.inr ?_)]
      unfold Packet.finish Packet.front at inside
      omega
  · rw [if_neg (fun has : p.HasTopic => two has.1), if_pos (Or.inl (by omega))]

theorem publishText_packet (b : Board) (publish : typeBits p.head = msgPublish)
    (holds : now.buf = p.image) (topic : p.HasTopic) : publishText b env now = p.searched env.stackTail := by
  rw [publishText, (deserialize_packet publish holds).2, if_pos topic]
  simp only [payloadText]
  rw [holds]
  rfl

theorem publishText_ends (b : Board) (publish : typeBits p.head = msgPublish)
    (holds : now.buf = p.image) (topic : p.HasTopic) (ends : p.Ends) :
    publishText b env now = cstr p.payload := by
  rw [publishText_packet b publish holds topic, Packet.searched_of_ends ends]

theorem searches_iff (b : Board) (publish : typeBits p.head = msgPublish) (holds : now.buf = p.image) :
    Searches b env now p ↔ p.HasTopic ∧ p.Ends := by
  have pointer := (@deserialize_packet p env now publish holds).2
  constructor
  · rintro ⟨-, offset, payload, inside, ended⟩
    rw [pointer] at payload
    split at payload
    · rename_i topic
      obtain rfl := Option.some.inj payload
      rw [publishText_packet b publish holds topic] at inside ended
      exact ⟨topic, (p.ends_iff env.stackTail).mpr ⟨fun i read => (inside i read).2, ended⟩⟩
    · cases payload
  · rintro ⟨topic, ends⟩
    obtain ⟨inside, ended⟩ := (p.ends_iff env.stackTail).mp ends
    refine ⟨holds, p.start, by rw [pointer, if_pos topic], ?_⟩
    rw [publishText_packet b publish holds topic]
    exact ⟨fun i read => ⟨Nat.le_add_right _ _, inside i read⟩, ended⟩

end Deserialize

section Turn

variable {b : Board} {env : Env} {st : St}

theorem mailReport_buf (b : Board) (env : Env) (st : St) (payloadOut : List UInt8)
    (mail : env.mail = some payloadOut) : (mailReport b env st).buf =
      if TextFits (cstr payloadOut) then putBytes st.buf (mailPacket st payloadOut) else st.buf := by
  have fits : mqttPacketLen (mqttSerializePublishLength publishReqQos devicePublish (cstr payloadOut)) >
      buflen ↔ ¬ TextFits (cstr payloadOut) := Nat.not_le.symm
  rw [mailReport_packet b env st mail, mqttSerializePublish, serialized_snd]
  simp only [fits]
  split_ifs <;> rfl

/-- The reports leave a packet alone just when none is made, or they put the same bytes there. -/
theorem undisturbed_iff (b : Board) (env : Env) {st : St} (packet : packetType st.buf ≠ 0) :
    (beforeSwitch b env st).buf = st.buf ↔ Undisturbed env st := by
  have filled : zeroBuf ≠ st.buf := by
    intro blank
    rw [← blank] at packet
    exact packet (by decide)
  by_cases due : polls env st
  · have same : (blockReports b env st).buf = if blanks env st then zeroBuf else st.buf :=
      blockReports_buf b env st
    have untouched : (if blanks env st then zeroBuf else st.buf) = st.buf ↔ blanks env st = false := by
      cases blanks env st <;> simp [filled]
    unfold Undisturbed
    rw [beforeSwitch_due b due]
    cases mail : env.mail with
    | none =>
      rw [show mailReport b env (blockReports b env st) = blockReports b env st by
        simp [mailReport, mail], same, untouched]
      exact ⟨fun no _ => no, fun no => no due⟩
    | some payloadOut =>
      have core := blockReports_core b env st
      have own : mailPacket (blockReports b env st) payloadOut = mailPacket st payloadOut := by
        rw [mailPacket, mailPacket, show (blockReports b env st).retained = st.retained from
          congrArg Core.retained core, show (blockReports b env st).msgid = st.msgid from
          congrArg Core.msgid core]
      rw [mailReport_buf b env _ payloadOut mail, own, same]
      dsimp only
      split
      · exact ⟨fun kept _ => kept, fun kept => kept due⟩
      · rw [untouched]
        exact ⟨fun no _ => no, fun no => no due⟩
  · rw [beforeSwitch_early b due, (wake_flags env st).2.2.2.2.1]
    exact iff_of_true rfl (fun polled => absurd polled due)

theorem commands_none (text usartsendbuf : List UInt8) :
    (∀ e ∈ commandEvents text usartsendbuf, ¬ CommandEvent e) ∧ commandNext text msgPublish ≠ 15 ↔
      hasKeyword text = false := by
  unfold commandEvents commandNext hasKeyword
  cases has text "switch" <;> cases has text "reset" <;> cases has text "info" <;>
    cases has text "setMode" <;> cases has text "restart" <;> simp [CommandEvent, msgPublish]

theorem puback_none (mysock : Int) (vars : PublishVars) :
    (∀ e ∈ pubackEvents env mysock vars, e.isSent = false) ↔ vars.qos ≠ 1 := by
  unfold pubackEvents
  split <;> simp [Event.isSent, *]

theorem publishCase_ignored (b : Board) (env : Env) {now : St} (running : now.halted = false)
    (empty : now.log = []) (type : now.msgtypes = msgPublish) :
    ((∀ e ∈ (publishCase b env now).log, ¬ CommandEvent e) ∧ (publishCase b env now).msgtypes ≠ 15 ∧
      ∀ e ∈ (publishCase b env now).log, e.isSent = false) ↔
      hasKeyword (publishText b env now) = false ∧ (deserializePublish env now).qos ≠ 1 := by
  have commands := commands_none (publishText b env now) now.usartsendbuf
  have acks := @puback_none env now.mysock (deserializePublish env now)
  have unsent : ∀ e ∈ commandEvents (publishText b env now) now.usartsendbuf, e.isSent = false := by
    intro e he
    have kind := commandEvents_kind he
    cases e <;> trivial
  have acked : ∀ e ∈ pubackEvents env now.mysock (deserializePublish env now), ¬ CommandEvent e := by
    intro e he
    obtain ⟨packet, len, rc, rfl, -⟩ := pubackEvents_kind he
    exact id
  have log := publishCase_log b env now running
  rw [empty, List.nil_append] at log
  rw [log, ← commands, ← acks]
  cases resets : has (publishText b env now) "reset" with
  | true =>
    have event : Event.reset ∈ commandEvents (publishText b env now) now.usartsendbuf := by
      simp [commandEvents, resets]
    refine iff_of_false (fun ignored => ?_) (fun ignored => ?_)
    · exact ignored.1 .reset (by simp [event]) trivial
    · exact ignored.1.1 .reset event trivial
  | false =>
    rw [publishCase_eq b env now running resets, type, if_neg (by simp)]
    simp only [List.cons_append, List.forall_mem_cons, List.forall_mem_append]
    simp only [CommandEvent, Event.isSent, not_false_eq_true, true_and]
    constructor
    · rintro ⟨⟨no, -⟩, info, -, ack⟩
      exact ⟨⟨no, info⟩, ack⟩
    · rintro ⟨⟨no, info⟩, ack⟩
      exact ⟨⟨no, acked⟩, info, unsent, ack⟩

theorem malformed_iff {p : Packet} (topic : p.HasTopic) :
    (¬ p.WellFormed → hasKeyword (cstr p.payload) = false ∧ p.qos ≠ 1) ↔
      (p.finish < p.start → p.qos ≠ 1) ∧ (p.qos = 3 → hasKeyword (cstr p.payload) = false) := by
  have bits : p.qos < 4 := Nat.mod_lt _ (by decide)
  have size := p.payload_length
  by_cases room : p.start ≤ p.finish
  · have formed : p.WellFormed ↔ p.qos ≠ 3 := by
      rw [Packet.WellFormed]
      exact ⟨fun formed => by omega, fun other => ⟨topic, room, by omega⟩⟩
    rw [formed, not_ne_iff]
    exact ⟨fun ignored => ⟨fun beyond => by omega, fun three => (ignored three).1⟩,
      fun keys three => ⟨keys.2 three, by omega⟩⟩
  · have none : p.payload = [] := List.eq_nil_of_length_eq_zero (by omega)
    have silent : hasKeyword (cstr p.payload) = false := by
      rw [none]
      decide
    have unformed : ¬ p.WellFormed := fun formed => room formed.2.1
    exact ⟨fun ignored => ⟨fun _ => (ignored unformed).2, fun _ => silent⟩,
      fun keys _ => ⟨silent, keys.1 (by omega)⟩⟩

theorem turn_sound {p : Packet} (running : st.halted = false) (type : switchOn env st = msgPublish)
    (publish : typeBits p.head = msgPublish) (holds : st.buf = p.image) :
    (Searches b env (atSwitch b env st) p ∧ (¬ p.WellFormed → Ignored b env st p)) ↔
      Undisturbed env st ∧ Sound p := by
  have filled : packetType st.buf ≠ 0 := by
    rw [holds]
    change typeBits p.head ≠ 0
    rw [publish]
    decide
  rw [← undisturbed_iff b env filled, holds]
  have now : (atSwitch b env st).buf = (beforeSwitch b env st).buf := rfl
  by_cases kept : (atSwitch b env st).buf = p.image
  · have on : (atSwitch b env st).msgtypes = msgPublish := (atSwitch_msgtypes b env st).trans type
    have halted : (atSwitch b env st).halted = false := atSwitch_running b env running
    rw [searches_iff b publish kept, Sound, ← now, and_iff_right kept, and_assoc]
    refine and_congr_right (fun topic => and_congr_right (fun ends => ?_))
    rw [← malformed_iff topic]
    refine imp_congr_right (fun _ => ?_)
    obtain ⟨qos, pointer⟩ := @deserialize_packet p env _ publish kept
    have text := @publishText_ends p env _ b publish kept topic ends
    have ignored := publishCase_ignored b env halted rfl on
    rw [text, qos, ← dispatch_publish on, ← afterSwitch_eq] at ignored
    rw [← ignored, ← (turn_answer b env running).1]
    constructor
    · rintro ⟨commands, info, acks, -, -⟩
      exact ⟨commands, info, acks⟩
    · rintro ⟨commands, info, acks⟩
      exact ⟨commands, info, acks, qos, by simp [pointer, topic]⟩
  · exact iff_of_false (fun searches => kept searches.1.kept)
      (fun undisturbed => kept (now.trans undisturbed.1))

end Turn

section Runs

theorem readBody_image {d : Delivery} {head : UInt8} {remLen : Nat} {inbox : List UInt8}
    (got : 0 < (readBody d zeroBuf buflen head remLen inbox).1) :
    ∃ p : Packet, (readBody d zeroBuf buflen head remLen inbox).2.1 = p.image := by
  unfold readBody at got ⊢
  dsimp only at got ⊢
  split_ifs at got ⊢ with large empty short
  · exact absurd got (by simp)
  · refine ⟨⟨head, [], ?_⟩, ?_⟩
    · decide
    · rw [empty]
      simp [Packet.image, Packet.bytes]
  · exact absurd got (by simp)
  · rw [not_not] at short
    rw [List.length_cons] at large
    refine ⟨⟨head, (transportGetdata d.body remLen inbox).1, by rw [short]; omega⟩, ?_⟩
    simp only [Packet.image, Packet.bytes, short]

theorem turnRead_image {env : Env} {st : St} (packet : 0 < arriving env st) :
    ∃ p : Packet, (turnRead env st).2.1 = p.image := by
  unfold arriving at packet
  unfold turnRead
  by_cases wait : env.delivery.header = false ∨ inboxAtRead env st = []
  · rw [mqttPacketRead_wait zeroBuf buflen _ wait] at packet
    cases packet
  · cases inbox : inboxAtRead env st with
    | nil => exact absurd (Or.inr inbox) wait
    | cons head rest =>
      have come : env.delivery.header = true := by simpa [inbox] using wait
      rw [inbox, mqttPacketRead_cons zeroBuf buflen head rest come] at packet
      rw [mqttPacketRead_cons zeroBuf buflen head rest come]
      exact readBody_image packet

def Read (past : List Round) (st : St) : Prop :=
  Holding past st ∧ ∀ buf, pending past = some buf → ∃ p : Packet, buf = p.image

theorem read_step (b : Board) (past : List Round) (env : Env) (st : St) :
    Read (past ++ [(iteration b env st).1]) (iteration b env st).2 := by
  refine ⟨holding_step b past env st, fun buf got => ?_⟩
  rw [pending_concat] at got
  obtain ⟨packet, rfl, -, -⟩ := turn_read got
  exact turnRead_image packet

theorem turn_obeys (b : Board) {past : List Round} (env : Env) {st : St} (read : Read past st) :
    Proper b past env st ↔ Obeys past env st := by
  refine imp_congr_right (fun running => imp_congr_right (fun type => exists_congr (fun p => ?_)))
  refine and_congr_right (fun pending => ?_)
  obtain ⟨-, holds, -, next, -⟩ := read.1 p.image pending
  refine turn_sound running type ?_ holds
  have on : st.msgtypes = msgPublish := by
    unfold switchOn at type
    split at type
    · cases type
    · exact type
  exact next.symm.trans on

/-- In every run each command search stays in the payload of the packet just read, and a malformed
packet is ignored, just when each comes right behind the read, no report is made in between, and
the packet is sound. -/
theorem searches_kept (b : Board) (s : Start) (envs : List Env) :
    Guarded (iteration b) (Proper b) [] envs (mqttThread s) ↔
      Guarded (iteration b) Obeys [] envs (mqttThread s) :=
  guarded_congr (fun past env st _ => read_step b past env st)
    (fun _ env _ read => turn_obeys b env read) ⟨holding_nil _, by simp [pending]⟩

def overlong : Start := startOn [0x30, 4, 0, 255, 0x61, 0x62]

def leftover : Env := { calm with heapText := fun _ => ascii "reset\x00" }

/-- The malformed packet leaves `payload_in` on the block, and the processor restarts. -/
theorem search_leftover :
    ¬ (∀ (b : Board) (s : Start) (envs : List Env),
      Guarded (iteration b) (Proper b) [] envs (mqttThread s)) ∧
    Event.reset ∈ (outputs (iteration blankBoard) [calm, leftover] (mqttThread overlong)).flatMap
      Round.answer := by
  refine ⟨fun all => ?_, by decide +kernel⟩
  obtain ⟨-, proper, -⟩ := all blankBoard overlong [calm, leftover]
  obtain ⟨p, -, searches, -⟩ := proper (by decide +kernel) (by decide +kernel)
  obtain ⟨offset, payload, -⟩ := searches.within
  have unset : (deserializePublish leftover (atSwitch blankBoard leftover
      (iteration blankBoard calm (mqttThread overlong)).2)).payload = none := by
    decide +kernel
  rw [unset] at payload
  cases payload

end Runs

end BoxFirmware.MqttSearch
