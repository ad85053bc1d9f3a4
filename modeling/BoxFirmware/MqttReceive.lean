import BoxFirmware.MqttTurn
import Mathlib.Tactic.Ring

/-! The packets that `mqtt_thread` recognises against those of the stream. `MQTTPacket_read`
drops what it has taken when a later call comes up short, and does not take the body of
a packet that is too large for the buffer, so the stream is read in step with its packets
while nothing of a packet is late and every packet fits. -/
namespace BoxFirmware.MqttReceive
open ByteMem GuardedRun MqttPacket MqttThread

section Framing

def lengthField : (left : Nat) → List UInt8 → Nat
  | 0, _ => 0
  | _ + 1, [] => 0
  | left + 1, c :: rest => if c.toNat ≥ 128 then lengthField left rest + 1 else 1

def lengthValue : (left : Nat) → List UInt8 → Nat
  | 0, _ => 0
  | _ + 1, [] => 0
  | left + 1, c :: rest =>
    c.toNat % 128 + if c.toNat ≥ 128 then 128 * lengthValue left rest else 0

def remLen (rest : List UInt8) : Nat := lengthValue 4 rest

def behindLength (rest : List UInt8) : List UInt8 := rest.drop (lengthField 4 rest)

/-- A packet of a stream, with what the stream has of its body. -/
structure Frame where
  head : UInt8
  length : Nat
  body : List UInt8

def frames : (fuel : Nat) → List UInt8 → List Frame
  | 0, _ => []
  | _ + 1, [] => []
  | fuel + 1, head :: rest =>
    ⟨head, remLen rest, (behindLength rest).take (remLen rest)⟩ ::
      frames fuel ((behindLength rest).drop (remLen rest))

def framesOf (stream : List UInt8) : List Frame := frames stream.length stream

def Frame.front (f : Frame) : List UInt8 := f.head :: mqttPacketEncode f.length

def Frame.fits (f : Frame) : Bool := f.length + f.front.length ≤ buflen

def Frame.packet (f : Frame) : Option (List UInt8) :=
  if f.fits ∧ f.body.length = f.length ∧ typeBits f.head ≠ 0 then
    some (putBytes zeroBuf (f.front ++ f.body))
  else none

/-- The packets of a stream that is delivered at once; one too large is skipped as a whole. -/
def packetsOf (stream : List UInt8) : List (List UInt8) := (framesOf stream).filterMap Frame.packet

def AllFit (stream : List UInt8) : Prop := ∀ f ∈ framesOf stream, f.fits = true

instance (stream : List UInt8) : Decidable (AllFit stream) :=
  inferInstanceAs (Decidable (∀ f ∈ framesOf stream, f.fits = true))

theorem rest_length (rest : List UInt8) :
    ((behindLength rest).drop (remLen rest)).length ≤ rest.length := by
  simp only [behindLength, List.length_drop]
  omega

theorem frames_fuel {fuel fuel' : Nat} {stream : List UInt8} (enough : stream.length ≤ fuel)
    (enough' : stream.length ≤ fuel') : frames fuel stream = frames fuel' stream := by
  induction fuel generalizing fuel' stream with
  | zero =>
    have empty : stream = [] := List.length_eq_zero_iff.mp (by omega)
    subst empty
    cases fuel' <;> rfl
  | succ fuel ih =>
    cases stream with
    | nil => cases fuel' <;> rfl
    | cons head rest =>
      cases fuel' with
      | zero => simp at enough'
      | succ fuel' =>
        have short := rest_length rest
        rw [List.length_cons] at enough enough'
        have later : frames fuel ((behindLength rest).drop (remLen rest)) =
            frames fuel' ((behindLength rest).drop (remLen rest)) := ih (by omega) (by omega)
        simp only [frames]
        rw [later]

theorem framesOf_cons (head : UInt8) (rest : List UInt8) : framesOf (head :: rest) =
    ⟨head, remLen rest, (behindLength rest).take (remLen rest)⟩ ::
      framesOf ((behindLength rest).drop (remLen rest)) := by
  unfold framesOf
  rw [frames_fuel (Nat.le_refl ((behindLength rest).drop (remLen rest)).length) (rest_length rest)]
  rfl

end Framing

section Read

/-- Nothing of the packet in front is late: its header has not arrived, or all that there is
of its length field and of its body has. -/
def InTime (d : Delivery) : List UInt8 → Prop
  | [] => True
  | _ :: rest => d.header = false ∨
    (∀ i < lengthField 4 rest, d.lengthByte i = true) ∧
      min (remLen rest) (behindLength rest).length ≤ d.body

instance (d : Delivery) : (inbox : List UInt8) → Decidable (InTime d inbox)
  | [] => inferInstanceAs (Decidable True)
  | _ :: _ => inferInstanceAs (Decidable (_ ∨ _))

theorem getLengthByte_come {d : Delivery} {calls : Nat} (come : d.lengthByte calls = true)
    (c : UInt8) (rest : List UInt8) :
    getLengthByte d (calls, c :: rest) = (some c, (calls + 1, rest)) := by
  simp [getLengthByte, transportGetdata, come]

theorem decodeLoop_inTime (d : Delivery) {left calls : Nat} {rest : List UInt8}
    (come : ∀ i < lengthField left rest, d.lengthByte (calls + i) = true)
    (multiplier value len : Nat) :
    (decodeLoop (getLengthByte d) left (calls, rest) multiplier value len).2.1 =
        value + multiplier * lengthValue left rest ∧
      (decodeLoop (getLengthByte d) left (calls, rest) multiplier value len).2.2.2 =
        rest.drop (lengthField left rest) := by
  induction left generalizing calls rest multiplier value len with
  | zero => simp [decodeLoop, lengthValue, lengthField]
  | succ left ih =>
    cases rest with
    | nil => simp [decodeLoop, getLengthByte, transportGetdata, lengthValue, lengthField]
    | cons c rest =>
      have here : d.lengthByte calls = true := come 0 (by simp only [lengthField]; split <;> omega)
      by_cases more : c.toNat ≥ 128
      · have later : ∀ i < lengthField left rest, d.lengthByte (calls + 1 + i) = true := fun i hi => by
          have next := come (i + 1) (by simp only [lengthField, if_pos more]; omega)
          rwa [Nat.add_comm i 1, ← Nat.add_assoc] at next
        obtain ⟨decoded, behind⟩ :=
          ih later (multiplier * 128) (value + c.toNat % 128 * multiplier) (len + 1)
        simp only [decodeLoop, getLengthByte_come here, lengthField, lengthValue, if_pos more,
          List.drop_succ_cons]
        refine ⟨?_, behind⟩
        rw [decoded]
        ring
      · simp only [decodeLoop, getLengthByte_come here, lengthField, lengthValue, if_neg more,
          List.drop_succ_cons, List.drop_zero, and_true]
        ring

theorem readBody_inTime {d : Delivery} {head : UInt8} {rest : List UInt8}
    (come : min (remLen rest) (behindLength rest).length ≤ d.body)
    (fits : (⟨head, remLen rest, (behindLength rest).take (remLen rest)⟩ : Frame).fits = true) :
    let f : Frame := ⟨head, remLen rest, (behindLength rest).take (remLen rest)⟩
    let r := readBody d zeroBuf buflen head (remLen rest) (behindLength rest)
    r.2.2 = (behindLength rest).drop (remLen rest) ∧
      f.packet = if 0 < r.1 then some r.2.1 else none := by
  have room : ¬ remLen rest + (head :: mqttPacketEncode (remLen rest)).length > buflen := by
    have small := of_decide_eq_true fits
    simp only [Frame.front] at small
    omega
  have taken : (behindLength rest).take (min d.body (remLen rest)) =
      (behindLength rest).take (remLen rest) := by
    rw [List.take_eq_take_iff]
    omega
  have left : (behindLength rest).drop (min d.body (remLen rest)) =
      (behindLength rest).drop (remLen rest) := by
    rw [List.drop_eq_drop_iff]
    omega
  dsimp only
  unfold Frame.packet readBody
  rw [if_neg room, fits]
  by_cases empty : remLen rest = 0
  · simp [empty, Frame.front, Nat.pos_iff_ne_zero]
  · simp only [empty, if_false, transportGetdata, taken, left]
    by_cases whole : ((behindLength rest).take (remLen rest)).length = remLen rest
    · simp [whole, Frame.front, Nat.pos_iff_ne_zero]
    · simp only [whole, ne_eq, not_false_eq_true, if_true, false_and, and_false, if_false,
        true_and]
      rfl

theorem read_inTime {d : Delivery} {inbox : List UInt8} (come : InTime d inbox) (fit : AllFit inbox) :
    AllFit (mqttPacketRead d zeroBuf buflen inbox).2.2 ∧
      packetsOf inbox =
        (if 0 < (mqttPacketRead d zeroBuf buflen inbox).1 then
          [(mqttPacketRead d zeroBuf buflen inbox).2.1] else []) ++
        packetsOf (mqttPacketRead d zeroBuf buflen inbox).2.2 := by
  by_cases wait : d.header = false ∨ inbox = []
  · rw [mqttPacketRead_wait zeroBuf buflen inbox wait]
    exact ⟨fit, rfl⟩
  · cases inbox with
    | nil => simp at wait
    | cons head rest =>
      have arrived : d.header = true := by simpa using wait
      obtain ⟨field, body⟩ := come.resolve_left (by simp [arrived])
      have fieldCome : ∀ i < lengthField 4 rest, d.lengthByte (0 + i) = true := by simpa using field
      obtain ⟨value, behind⟩ := decodeLoop_inTime d fieldCome 1 0 0
      rw [Nat.zero_add, Nat.one_mul] at value
      have front := fit _ (by rw [framesOf_cons]; exact List.mem_cons_self)
      obtain ⟨left, packet⟩ := readBody_inTime body front
      have read : mqttPacketRead d zeroBuf buflen (head :: rest) =
          readBody d zeroBuf buflen head (remLen rest) (behindLength rest) := by
        rw [mqttPacketRead_cons zeroBuf buflen head rest arrived, mqttPacketDecode, value, behind]
        rfl
      rw [read]
      refine ⟨?_, ?_⟩
      · rw [left]
        exact fun f member => fit f (by rw [framesOf_cons]; exact List.mem_cons_of_mem _ member)
      · rw [packetsOf, framesOf_cons, List.filterMap_cons, packet, left]
        split_ifs <;> rfl

end Read

section Thread

/-- The packets recognised in some events. -/
def recognised (es : List Event) : List (List UInt8) :=
  es.filterMap fun e => match e with
    | .received buf => some buf
    | _ => none

/-- The bytes of the connection that is open. -/
def openStream (past : List Event) : List UInt8 :=
  match lastOpened past with
  | some (.opened sock stream) => if sock < 0 then [] else stream
  | _ => []

/-- A packet that was read is what the next turn switches on. -/
def Dispatched (past : List Round) (r : Round) : Prop :=
  ∀ buf, pending past = some buf → r.dispatched = packetType buf

/-- In every turn nothing of a packet is late, and a new connection has no packet that is
larger than the buffer. -/
def Timely (_ : List Round) (env : Env) (st : St) : Prop :=
  InTime env.delivery (inboxAtRead env st) ∧
    (reopens env st → 0 ≤ env.sock → AllFit env.stream)

instance (past : List Round) (env : Env) (st : St) : Decidable (Timely past env st) :=
  inferInstanceAs (Decidable (_ ∧ _))

structure InStep (log : List Event) (inbox : List UInt8) : Prop where
  fit : AllFit inbox
  packets : packetsOf (openStream log) = recognised (current log) ++ packetsOf inbox

theorem recognised_append (es fs : List Event) :
    recognised (es ++ fs) = recognised es ++ recognised fs := List.filterMap_append ..

theorem recognised_inner {es : List Event} (inner : ∀ e ∈ es, e.isInner = true) :
    recognised es = [] := by
  rw [recognised, List.filterMap_eq_nil_iff]
  intro e he
  have kind := inner e he
  cases e with
  | received buf => cases kind
  | _ => rfl

theorem InStep.inner {log es : List Event} {inbox : List UInt8} (step : InStep log inbox)
    (inner : ∀ e ∈ es, e.isInner = true) : InStep (log ++ es) inbox := by
  have same := isOpened_inner inner
  refine ⟨step.fit, ?_⟩
  rw [openStream, lastOpened_append same, current_append same, recognised_append,
    recognised_inner inner, List.append_nil]
  exact step.packets

theorem InStep.read {log : List Event} {inbox rest buf : List UInt8} (step : InStep log inbox)
    (fit : AllFit rest) (packets : packetsOf inbox = buf :: packetsOf rest) :
    InStep (log ++ [.received buf]) rest := by
  refine ⟨fit, ?_⟩
  rw [openStream, lastOpened_append (by simp [isOpened]), current_append (by simp [isOpened]),
    recognised_append, List.append_assoc]
  exact step.packets.trans (congrArg _ packets)

theorem inStep_opened (log : List Event) (sock : Int) (stream : List UInt8)
    (fit : 0 ≤ sock → AllFit stream) :
    InStep (log ++ [.opened sock stream]) (if sock < 0 then [] else stream) := by
  refine ⟨?_, ?_⟩
  · split
    · exact fun f member => nomatch member
    · exact fit (by omega)
  · rw [openStream, lastOpened_opened, current_concat]
    rfl

theorem inStep_switch {b : Board} {env : Env} {st : St} {log : List Event}
    (step : InStep log st.inbox) (running : st.halted = false)
    (fit : reopens env st → 0 ≤ env.sock → AllFit env.stream) :
    InStep (log ++ (beforeSwitch b env st).log ++ (afterSwitch b env st).log)
      (inboxAtRead env st) := by
  have before := step.inner (timed_inner b env st)
  rw [inboxAtRead]
  by_cases reopen : reopens env st
  · obtain ⟨front, answer, inner⟩ := answer_reopens b reopen
    rw [if_pos reopen, answer, ← List.append_assoc]
    exact inStep_opened _ env.sock env.stream (fit reopen)
  · rw [if_neg reopen]
    exact before.inner (answer_inner running reopen)

structure Inv (s : Start) (past : List Round) (st : St) : Prop where
  step : InStep (trace s past) st.inbox
  holding : Holding past st

theorem inv_start (s : Start) (fit : 0 ≤ s.sock → AllFit s.stream) : Inv s [] (mqttThread s) :=
  ⟨inStep_opened [] s.sock s.stream fit, holding_nil _⟩

theorem inv_step {b : Board} {s : Start} (past : List Round) (env : Env) (st : St)
    (timely : Timely past env st) (inv : Inv s past st) :
    Inv s (past ++ [(iteration b env st).1]) (iteration b env st).2 := by
  refine ⟨?_, holding_step b past env st⟩
  cases running : st.halted with
  | true =>
    rw [trace_stopped b s past env running, iteration_stopped b env running]
    exact inv.step
  | false =>
    have switched := inStep_switch (b := b) inv.step running timely.2
    cases goes : (afterSwitch b env st).halted with
    | true =>
      rw [iteration_halts running goes, trace_concat, afterSwitch_inbox]
      simpa [Round.events] using switched
    | false =>
      obtain ⟨fit, packets⟩ : AllFit (turnRead env st).2.2 ∧ packetsOf (inboxAtRead env st) =
          (if 0 < arriving env st then [(turnRead env st).2.1] else []) ++
            packetsOf (turnRead env st).2.2 := read_inTime timely.1 switched.fit
      rw [iteration_reads running goes]
      by_cases packet : 0 < arriving env st
      · rw [receive_packet packet, trace_concat]
        simp only [Round.events, ← List.append_assoc]
        exact switched.read fit (by rw [packets, if_pos packet]; rfl)
      · rw [receive_quiet (Int.not_lt.mp packet), trace_concat]
        simp only [Round.events, ← List.append_assoc, List.append_nil]
        rw [if_neg packet, List.nil_append] at packets
        exact ⟨fit, switched.packets.trans (congrArg _ packets)⟩

theorem turn_dispatches {b : Board} {s : Start} (past : List Round) (env : Env) (st : St)
    (inv : Inv s past st) : Dispatched past (iteration b env st).1 := by
  intro buf got
  obtain ⟨running, -, -, type, typed⟩ := inv.holding buf got
  rw [(turn_answer b env running).2.1, switchOn_of_ne (by rwa [type]), type]

/-- However a stream is delivered, as long as nothing of a packet is late: the packets
recognised on a connection, before those of the bytes still to come, are the packets of
its stream delivered at once, and each is dispatched. -/
theorem packets_in_step (b : Board) (s : Start) (envs : List Env)
    (fit : 0 ≤ s.sock → AllFit s.stream)
    (timely : Guarded (iteration b) Timely [] envs (mqttThread s)) :
    recognised (current (trace s (rounds b s envs))) ++
          packetsOf (final (iteration b) envs (mqttThread s)).inbox =
        packetsOf (openStream (trace s (rounds b s envs))) ∧
      Justified Dispatched (rounds b s envs) := by
  have inv := history_invariant inv_step timely (inv_start s fit)
  refine ⟨inv.step.packets.symm, ?_⟩
  exact justified_outputs inv_step (fun past env st _ inv => turn_dispatches past env st inv) timely
    (inv_start s fit) justified_nil

theorem packets_in_step_two :
    Guarded (iteration blankBoard) Timely []
        [calm, { calm with delivery := ⟨false, fun _ => false, 0⟩ }, calm]
        (mqttThread (startOn [0x20, 2, 0, 0, 0xD0, 0])) ∧
      recognised (current (trace (startOn [0x20, 2, 0, 0, 0xD0, 0])
          (rounds blankBoard (startOn [0x20, 2, 0, 0, 0xD0, 0])
            [calm, { calm with delivery := ⟨false, fun _ => false, 0⟩ }, calm]))) ++
          packetsOf (final (iteration blankBoard)
            [calm, { calm with delivery := ⟨false, fun _ => false, 0⟩ }, calm]
            (mqttThread (startOn [0x20, 2, 0, 0, 0xD0, 0]))).inbox =
        packetsOf (openStream (trace (startOn [0x20, 2, 0, 0, 0xD0, 0])
          (rounds blankBoard (startOn [0x20, 2, 0, 0, 0xD0, 0])
            [calm, { calm with delivery := ⟨false, fun _ => false, 0⟩ }, calm]))) := by
  have timely : Guarded (iteration blankBoard) Timely []
      [calm, { calm with delivery := ⟨false, fun _ => false, 0⟩ }, calm]
      (mqttThread (startOn [0x20, 2, 0, 0, 0xD0, 0])) := by decide +kernel
  exact ⟨timely, (packets_in_step blankBoard _ _ (fun _ => by decide +kernel) timely).1⟩

/-- The body of 30 04 00 00 D0 00 arrives two bytes at a time, and its second half is taken
for a PINGRESP. -/
theorem packets_out_of_step :
    ¬ ∀ (b : Board) (s : Start) (envs : List Env),
      recognised (current (trace s (rounds b s envs))) ++
            packetsOf (final (iteration b) envs (mqttThread s)).inbox =
          packetsOf (openStream (trace s (rounds b s envs))) ∧
        Justified Dispatched (rounds b s envs) := by
  intro inStep
  have lost : recognised (current (trace (startOn [0x30, 4, 0, 0, 0xD0, 0])
        (rounds blankBoard (startOn [0x30, 4, 0, 0, 0xD0, 0])
          [{ calm with delivery := ⟨true, fun _ => true, 2⟩ }, calm]))) ++
        packetsOf (final (iteration blankBoard)
          [{ calm with delivery := ⟨true, fun _ => true, 2⟩ }, calm]
          (mqttThread (startOn [0x30, 4, 0, 0, 0xD0, 0]))).inbox ≠
      packetsOf (openStream (trace (startOn [0x30, 4, 0, 0, 0xD0, 0])
        (rounds blankBoard (startOn [0x30, 4, 0, 0, 0xD0, 0])
          [{ calm with delivery := ⟨true, fun _ => true, 2⟩ }, calm]))) := by decide +kernel
  exact lost (inStep blankBoard (startOn [0x30, 4, 0, 0, 0xD0, 0])
    [{ calm with delivery := ⟨true, fun _ => true, 2⟩ }, calm]).1

end Thread

end BoxFirmware.MqttReceive
