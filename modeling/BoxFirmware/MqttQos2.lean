import BoxFirmware.MqttWindow

/-! The QoS 2 publishes of `mqtt_thread`. All of them carry `msgid`, which only an inbound
PUBLISH changes, and a PUBREC is answered with `msgid` one turn after its own, unless a
packet read in between takes the place of that step. -/
namespace BoxFirmware.MqttQos2
open ByteMem GuardedRun MqttPacket MqttThread

def outgoing : Event → Option Nat
  | .sent _ packet _ rc =>
    let r := mqttDeserializePublish ⟨0, 0, 0, 0, none, 0⟩ (ofList packet)
    if r.1 = 1 ∧ r.2.qos = 2 ∧ 0 ≤ rc then some r.2.packetid else none
  | _ => none

/-- The packet id of an acknowledgement, behind a length of one byte. -/
def ackId (buf : List UInt8) : Nat := readInt (shift (ofList buf) 2)

def outstandingStep (ids : List Nat) : Event → List Nat
  | .opened _ _ => []
  | .received buf => if packetType buf = msgPubcomp then ids.erase (ackId buf) else ids
  | e => ids ++ (outgoing e).toList

/-- The ids of the publishes on the connection that have no PUBCOMP yet. -/
def outstanding (past : List Event) : List Nat := past.foldl outstandingStep []

/-- After the event no two publishes that are not completed share an id. -/
def Distinct (past : List Event) (e : Event) : Prop := (outstanding (past ++ [e])).Nodup

instance (past : List Event) (e : Event) : Decidable (Distinct past e) :=
  inferInstanceAs (Decidable (List.Nodup _))

def pubrecOf (id : Nat) : List UInt8 := putBytes zeroBuf (0x50 :: 2 :: writeInt id)

/-- Every PUBREC of a publish that is not completed: its own id in one PUBREL is all that comes
of it. -/
def AllAnswered (s : Start) (rs : List Round) : Prop :=
  ∀ front r back id, rs = front ++ r :: back → id < 65536 → r.got = some (pubrecOf id) →
    id ∈ outstanding (trace s (front ++ [r])) → 2 ≤ back.length →
    ∃ sock dup rc, reactions back = [.sent sock (header msgPubrel dup 1 0 :: 2 :: writeInt id) 4 rc]

def publishRcs (env : Env) (st : St) : List Int :=
  reportRcs env st ++ if switchOn env st = 15 then [env.writeRc .answer] else []

def writtenCount (rcs : List Int) : Nat := rcs.countP (fun rc => decide (0 ≤ rc))

/-- A turn writes at most one publish, and only while `msgid` is free; and when it handles the
PUBREC of a publish, `msgid` is still the id of that publish and no packet is read. -/
def Kept (s : Start) (past : List Round) (env : Env) (st : St) : Prop :=
  st.halted = false →
    writtenCount (publishRcs env st) ≤ 1 ∧
    (writtenCount (publishRcs env st) = 1 → st.msgid ∉ outstanding (trace s past)) ∧
    (st.msgtypes = msgPubrec → ackId st.buf ∈ outstanding (trace s past) →
      ackId st.buf = st.msgid ∧ arriving env st ≤ 0)

instance (s : Start) (past : List Round) (env : Env) (st : St) : Decidable (Kept s past env st) :=
  inferInstanceAs (Decidable (_ → _))

section Ids

theorem outgoing_other {sock len rc : Int} {packet : List UInt8} (other : packetType packet ≠ msgPublish) :
    outgoing (.sent sock packet len rc) = none := by
  have head : typeBits (ofList packet 0) ≠ msgPublish := by
    cases packet with
    | nil => decide
    | cons c rest => exact other
  unfold outgoing mqttDeserializePublish
  dsimp only
  rw [if_pos head]
  simp

theorem outgoing_publishEvent (sock : Int) {msgid retained : Nat} (rc : Int) (payload : List UInt8)
    (word : msgid < 65536) (bit : retained < 2) :
    outgoing (publishEvent sock msgid retained rc payload) = none ∨
      outgoing (publishEvent sock msgid retained rc payload) = some msgid := by
  by_cases fits : mqttPacketLen (mqttSerializePublishLength publishReqQos devicePublish payload) > buflen
  · left
    refine outgoing_other ?_
    rw [mqttSerializePublish, sentBytes_serialized, if_pos fits]
    decide
  · have short : mqttSerializePublishLength publishReqQos devicePublish payload < 128 ^ 4 := by
      unfold mqttPacketLen at fits
      simp only [buflen] at fits
      split_ifs at fits <;> omega
    let p : Publish := ⟨0, publishReqQos, retained, msgid, devicePublish, payload, by decide,
      by decide, bit, word, by decide, short⟩
    have read := deserializePublish_packet ⟨0, 0, 0, 0, none, 0⟩ p []
    rw [List.append_nil] at read
    have bytes : sentBytes (mqttSerializePublish [] buflen 0 publishReqQos retained msgid
        devicePublish payload) = p.packet := by
      rw [mqttSerializePublish, sentBytes_serialized, if_neg fits]
      rfl
    unfold outgoing publishEvent
    dsimp only
    rw [bytes, read]
    by_cases ok : 0 ≤ rc
    · right
      rw [if_pos ⟨rfl, rfl, ok⟩]
      rfl
    · left
      rw [if_neg (fun all => ok all.2.2)]

theorem outgoing_count (es : List Event) :
    (es.filterMap outgoing).length ≤ writtenCount (es.filterMap writeResult) := by
  induction es with
  | nil => exact Nat.zero_le _
  | cons e es ih =>
    unfold writtenCount at *
    cases e with
    | sent sock packet len rc =>
      rw [List.filterMap_cons, List.filterMap_cons]
      simp only [writeResult, List.countP_cons]
      cases id : outgoing (.sent sock packet len rc) with
      | none =>
        dsimp only
        omega
      | some m =>
        have ok : 0 ≤ rc := by
          unfold outgoing at id
          dsimp only at id
          split at id
          · rename_i all
            exact all.2.2
          · cases id
        simp only [List.length_cons, ok, decide_true, if_true]
        omega
    | _ => exact ih

theorem outstanding_append {log es : List Event} (inner : ∀ e ∈ es, e.isInner = true) :
    outstanding (log ++ es) = outstanding log ++ es.filterMap outgoing := by
  induction es generalizing log with
  | nil => simp
  | cons e es ih =>
    have rest : outstanding (log ++ [e] ++ es) = outstanding (log ++ [e]) ++ es.filterMap outgoing :=
      ih (fun f hf => inner f (by simp [hf]))
    have kind := inner e (by simp)
    have one : outstanding (log ++ [e]) = outstanding log ++ (outgoing e).toList := by
      unfold outstanding
      rw [List.foldl_append, List.foldl_cons, List.foldl_nil]
      cases e <;> first | rfl | cases kind
    rw [List.append_cons, rest, one, List.append_assoc, List.filterMap_cons]
    cases outgoing e <;> rfl

theorem distinct_extend {log es : List Event} (before : Justified Distinct log)
    (inner : ∀ e ∈ es, e.isInner = true)
    (distinct : (outstanding log ++ es.filterMap outgoing).Nodup) :
    Justified Distinct (log ++ es) := by
  refine justified_extend before (fun front e back split => ?_)
  have whole : es = front ++ [e] ++ back := by simp [split]
  have part : (front ++ [e]).Sublist es := by
    rw [whole]
    exact List.sublist_append_left _ _
  rw [Distinct, List.append_assoc, outstanding_append (fun f hf => inner f (part.subset hf))]
  exact distinct.sublist ((part.filterMap outgoing).append_left _)

end Ids

section Turn

variable {b : Board} {env : Env} {st : St}

/-- What the publishes of the thread take their id and their header from. -/
structure Bounded (st : St) : Prop where
  msgid : st.msgid < 65536
  retained : st.retained < 2

theorem deserializePublish_bounded (vars : PublishVars) (m : Mem) (word : vars.packetid < 65536)
    (bit : vars.retained < 2) : (mqttDeserializePublish vars m).2.packetid < 65536 ∧
      (mqttDeserializePublish vars m).2.retained < 2 := by
  have read : ∀ q : Mem, readInt q < 65536 := fun q => by
    have high := (q 0).toNat_lt
    have low := (q 1).toNat_lt
    rw [readInt]
    omega
  have flag : retainBits (m 0) < 2 := Nat.mod_lt _ (by decide)
  unfold mqttDeserializePublish
  dsimp only
  split_ifs <;> first
    | exact ⟨word, bit⟩
    | exact ⟨word, flag⟩
    | exact ⟨read _, flag⟩

theorem dispatch_bounded {now : St} (running : now.halted = false) (bounded : Bounded now) :
    Bounded (dispatch b env now) := by
  by_cases publish : now.msgtypes = msgPublish
  · have vars := deserializePublish_bounded ⟨now.dup, now.qos, now.retained, now.msgid, none, 0⟩
      (bufMem env now) bounded.msgid bounded.retained
    rw [dispatch_publish publish]
    cases resets : has (publishText b env now) "reset" with
    | false =>
      rw [publishCase_eq b env now running resets]
      exact ⟨vars.1, vars.2⟩
    | true =>
      rw [publishCase_reset b env now resets]
      exact ⟨vars.1, vars.2⟩
  · have same := dispatch_inbound b env now publish
    have msgid : (dispatch b env now).msgid = now.msgid := congrArg Inbound.msgid same
    have retained : (dispatch b env now).retained = now.retained := congrArg Inbound.retained same
    exact ⟨msgid ▸ bounded.msgid, retained ▸ bounded.retained⟩

def NotPublish : Event → Prop
  | .sent _ packet _ _ => packetType packet ≠ msgPublish
  | _ => True

theorem filterMap_outgoing {es : List Event} (other : ∀ e ∈ es, NotPublish e) :
    es.filterMap outgoing = [] := by
  refine List.filterMap_eq_nil_iff.mpr (fun e he => ?_)
  have kind := other e he
  cases e with
  | sent sock packet len rc => exact outgoing_other kind
  | _ => rfl

theorem dispatch_notPublish {now : St} (empty : now.log = []) (running : now.halted = false)
    (other : now.msgtypes ≠ 15) : ∀ e ∈ (dispatch b env now).log, NotPublish e := by
  intro e he
  have event := dispatch_events empty running e he
  cases e with
  | sent sock packet len rc =>
    rcases event with ⟨-, connect⟩ | ⟨info, -⟩ | type
    · rw [NotPublish, connect, sentBytes_connect now.buf b.data (connect_fits b)]
      decide
    · exact absurd info other
    · intro publish
      rw [publish] at type
      revert type
      decide
  | _ => trivial

theorem outgoing_own {sock rc : Int} {payload : List UInt8} {id : Nat} (bounded : Bounded st)
    (eq : outgoing (publishEvent sock st.msgid st.retained rc payload) = some id) : id = st.msgid := by
  rcases outgoing_publishEvent sock rc payload bounded.msgid bounded.retained with none | some
  · rw [none] at eq
    cases eq
  · rw [some] at eq
    exact (Option.some.inj eq).symm

theorem timed_ids (b : Board) (env : Env) {st : St} (bounded : Bounded st) :
    (∀ id ∈ (beforeSwitch b env st).log.filterMap outgoing, id = st.msgid) ∧
      ((beforeSwitch b env st).log.filterMap outgoing).length ≤ writtenCount (reportRcs env st) := by
  obtain ⟨reports, results⟩ := beforeSwitch_events b env st
  constructor
  · intro id member
    obtain ⟨e, he, eq⟩ := List.mem_filterMap.mp member
    have event := reports e he
    cases e with
    | sent sock packet len rc =>
      obtain ⟨payload, same⟩ := event
      rw [same] at eq
      exact outgoing_own bounded eq
    | _ => cases eq
  · have count := outgoing_count (beforeSwitch b env st).log
    rwa [results] at count

theorem switch_ids (b : Board) (env : Env) {st : St} (bounded : Bounded st)
    (running : st.halted = false) :
    (∀ id ∈ (afterSwitch b env st).log.filterMap outgoing, id = st.msgid) ∧
      ((afterSwitch b env st).log.filterMap outgoing).length ≤
        writtenCount (if switchOn env st = 15 then [env.writeRc .answer] else []) := by
  have core := atSwitch_core b env st
  have on := atSwitch_msgtypes b env st
  rw [afterSwitch_eq]
  by_cases info : switchOn env st = 15
  · have msgid : (atSwitch b env st).msgid = st.msgid := congrArg Core.msgid core
    have retained : (atSwitch b env st).retained = st.retained := congrArg Core.retained core
    have log := infoCase_log b env (atSwitch b env st)
    rw [msgid, retained] at log
    rw [dispatch_info (on.trans info), log, if_pos info]
    constructor
    · intro id member
      obtain ⟨e, he, eq⟩ := List.mem_filterMap.mp member
      simp only [atSwitch, List.nil_append, List.mem_cons, List.not_mem_nil, or_false] at he
      rcases he with rfl | rfl | rfl
      · cases eq
      · exact outgoing_own bounded eq
      · cases eq
    · exact outgoing_count _
  · have other : (atSwitch b env st).msgtypes ≠ 15 := by rwa [on]
    rw [filterMap_outgoing (dispatch_notPublish rfl (atSwitch_running b env running) other)]
    exact ⟨by simp, Nat.zero_le _⟩

theorem turn_ids (b : Board) (env : Env) {st : St} (bounded : Bounded st)
    (running : st.halted = false) :
    (∀ id ∈ ((beforeSwitch b env st).log ++ (afterSwitch b env st).log).filterMap outgoing,
      id = st.msgid) ∧
    (((beforeSwitch b env st).log ++ (afterSwitch b env st).log).filterMap outgoing).length ≤
      writtenCount (publishRcs env st) := by
  obtain ⟨timed, timedCount⟩ := timed_ids b env bounded
  obtain ⟨switch, switchCount⟩ := switch_ids b env bounded running
  rw [List.filterMap_append]
  refine ⟨fun id member => (List.mem_append.mp member).elim (timed id) (switch id), ?_⟩
  rw [List.length_append, publishRcs]
  unfold writtenCount at *
  rw [List.countP_append]
  exact Nat.add_le_add timedCount switchCount

end Turn

section Run

variable {b : Board} {s : Start} {past : List Round} {env : Env} {st : St}

/-- The ids in use stay distinct when a turn puts its own to use. -/
theorem ids_distinct (kept : Kept s past env st) (bounded : Bounded st) (running : st.halted = false)
    (nodup : (outstanding (trace s past)).Nodup) : (outstanding (trace s past) ++
      ((beforeSwitch b env st).log ++ (afterSwitch b env st).log).filterMap outgoing).Nodup := by
  obtain ⟨one, free, -⟩ := kept running
  obtain ⟨own, count⟩ := turn_ids b env bounded running
  cases ids : ((beforeSwitch b env st).log ++ (afterSwitch b env st).log).filterMap outgoing with
  | nil => rwa [List.append_nil]
  | cons id rest =>
    rw [ids] at own count
    rw [List.length_cons] at count
    have last : rest = [] := List.length_eq_zero_iff.mp (by omega)
    have unused := free (by omega)
    rw [own id List.mem_cons_self, last]
    refine List.nodup_append.mpr ⟨nodup, by simp, fun x member y same => ?_⟩
    rw [List.mem_singleton.mp same]
    exact fun equal => unused (equal ▸ member)

structure Inv (s : Start) (past : List Round) (st : St) : Prop where
  distinct : Justified Distinct (trace s past)
  nodup : (outstanding (trace s past)).Nodup
  bounded : Bounded st
  holding : Holding past st

theorem distinct_concat {log : List Event} {e : Event} (before : Justified Distinct log)
    (nodup : (outstanding (log ++ [e])).Nodup) : Justified Distinct (log ++ [e]) :=
  (justified_concat log e).mpr ⟨before, nodup⟩

theorem distinct_switch (kept : Kept s past env st) (inv : Inv s past st) (running : st.halted = false) :
    Justified Distinct (trace s past ++ ((beforeSwitch b env st).log ++ (afterSwitch b env st).log)) ∧
      (outstanding (trace s past ++
        ((beforeSwitch b env st).log ++ (afterSwitch b env st).log))).Nodup := by
  have full := ids_distinct (b := b) kept inv.bounded running inv.nodup
  by_cases reopen : reopens env st
  · obtain ⟨front, answer, inner⟩ := answer_reopens b reopen
    rw [answer, ← List.append_assoc] at full ⊢
    rw [List.filterMap_append] at full
    have before := distinct_extend inv.distinct
      (List.forall_mem_append.mpr ⟨timed_inner b env st, inner⟩)
      (full.sublist ((List.sublist_append_left _ _).append_left _))
    have opened : (outstanding (trace s past ++ ((beforeSwitch b env st).log ++ front) ++
        [.opened env.sock env.stream])).Nodup := by
      rw [outstanding, List.foldl_append]
      exact List.nodup_nil
    rw [← List.append_assoc] at before opened ⊢
    exact ⟨distinct_concat before opened, opened⟩
  · have inner := List.forall_mem_append.mpr ⟨timed_inner b env st, answer_inner (b := b) running reopen⟩
    rw [outstanding_append inner]
    exact ⟨distinct_extend inv.distinct inner full, full⟩

theorem outstanding_received (log : List Event) (buf : List UInt8)
    (nodup : (outstanding log).Nodup) : (outstanding (log ++ [.received buf])).Nodup := by
  rw [outstanding, List.foldl_append]
  simp only [List.foldl_cons, List.foldl_nil, outstandingStep]
  split
  · exact nodup.erase _
  · exact nodup

theorem turn_bounded (b : Board) (env : Env) {st : St} (bounded : Bounded st) :
    Bounded (iteration b env st).2 := by
  cases running : st.halted with
  | true =>
    rw [iteration_stopped b env running]
    exact bounded
  | false =>
    have core := atSwitch_core b env st
    have same : Bounded (atSwitch b env st) := by
      have msgid : (atSwitch b env st).msgid = st.msgid := congrArg Core.msgid core
      have retained : (atSwitch b env st).retained = st.retained := congrArg Core.retained core
      exact ⟨msgid ▸ bounded.msgid, retained ▸ bounded.retained⟩
    have after : Bounded (afterSwitch b env st) :=
      dispatch_bounded (atSwitch_running b env running) same
    rw [iteration_state running]
    split
    · exact after
    · unfold receive
      dsimp only
      split <;> exact ⟨after.msgid, after.retained⟩

theorem inv_step (past : List Round) (env : Env) (st : St) (kept : Kept s past env st)
    (inv : Inv s past st) : Inv s (past ++ [(iteration b env st).1]) (iteration b env st).2 := by
  have after : Justified Distinct (trace s (past ++ [(iteration b env st).1])) ∧
      (outstanding (trace s (past ++ [(iteration b env st).1]))).Nodup := by
    cases running : st.halted with
    | true =>
      rw [trace_stopped b s past env running]
      exact ⟨inv.distinct, inv.nodup⟩
    | false =>
      obtain ⟨distinct, nodup⟩ := distinct_switch (b := b) kept inv running
      rw [trace_turn b s past env running]
      cases (iteration b env st).1.got with
      | none =>
        rw [Option.toList_none, List.map_nil, List.append_nil]
        exact ⟨distinct, nodup⟩
      | some buf =>
        have read := outstanding_received _ buf nodup
        exact ⟨distinct_concat distinct read, read⟩
  exact ⟨after.1, after.2, turn_bounded b env inv.bounded, holding_step b past env st⟩

theorem inv_start (s : Start) : Inv s [] (mqttThread s) where
  distinct := justified_concat [] _ |>.mpr ⟨justified_nil, List.nodup_nil⟩
  nodup := List.nodup_nil
  bounded := ⟨show 1 < 65536 by decide, show 0 < 2 by decide⟩
  holding := holding_nil _

end Run

section Windows

variable {b : Board} {env : Env} {st : St}

theorem ackId_pubrecOf {id : Nat} (word : id < 65536) : ackId (pubrecOf id) = id := by
  rw [ackId, pubrecOf, putBytes, List.cons_append, List.cons_append]
  have skip : ∀ ys, shift (ofList ([0x50, 2] ++ ys)) 2 = ofList ys := shift_ofList rfl
  exact (congrArg readInt (skip _)).trans (readInt_writeInt word _)

theorem pubrec_turn (running : st.halted = false) (type : st.msgtypes = msgPubrec)
    (quiet : arriving env st ≤ 0) :
    (iteration b env st).1.answer = [] ∧ (iteration b env st).1.got = none ∧
      (iteration b env st).2.halted = false ∧ (iteration b env st).2.msgtypes = msgPubrel ∧
      (iteration b env st).2.msgid = st.msgid := by
  have core := atSwitch_core b env st
  have on : (atSwitch b env st).msgtypes = msgPubrec := by
    rw [atSwitch_msgtypes, switchOn_of_ne (by rw [type]; decide), type]
  have after : afterSwitch b env st = { atSwitch b env st with msgtypes := msgPubrel } := by
    rw [afterSwitch_eq]
    simp only [dispatch, on]
  have goes : (afterSwitch b env st).halted = false := by
    rw [after]
    exact atSwitch_running b env running
  rw [iteration_reads running goes, receive_quiet quiet, after]
  exact ⟨rfl, rfl, atSwitch_running b env running, rfl, congrArg Core.msgid core⟩

theorem pubrel_turn (b : Board) (env : Env) {st : St} (running : st.halted = false)
    (type : st.msgtypes = msgPubrel) :
    (∃ sock dup rc, (iteration b env st).1.answer.filter isReaction =
        [.sent sock (header msgPubrel dup 1 0 :: 2 :: writeInt st.msgid) 4 rc]) ∧
      ((iteration b env st).1.got = none → Idle (iteration b env st).2) := by
  obtain ⟨answer, -, next⟩ := turn_answer b env running
  have core := atSwitch_core b env st
  have msgid : (atSwitch b env st).msgid = st.msgid := congrArg Core.msgid core
  have on : (atSwitch b env st).msgtypes = msgPubrel := by
    rw [atSwitch_msgtypes, switchOn_of_ne (by rw [type]; decide), type]
  rw [afterSwitch_eq, dispatch_pubrel on] at answer next
  refine ⟨⟨(atSwitch b env st).mysock, (atSwitch b env st).dup, env.writeRc .answer, ?_⟩,
    fun none => Or.inr (Or.inl (next none).2)⟩
  rw [answer, pubrelCase_log, sentBytes_ack _ _ _ _ (by decide), serializeAck_fst _ _ _ _ (by decide),
    msgid]
  simp [isReaction, atSwitch, msgPubrel, msgConnect, msgPingreq]

theorem answered_outputs {s : Start} {past : List Round} {envs : List Env} {id : Nat}
    (running : st.halted = false) (type : st.msgtypes = msgPubrec) (own : ackId st.buf = id)
    (open_ : id ∈ outstanding (trace s past))
    (kept : Guarded (iteration b) (Kept s) past envs st) (enough : 2 ≤ envs.length) :
    ∃ sock dup rc, reactions (outputs (iteration b) envs st) =
      [.sent sock (header msgPubrel dup 1 0 :: 2 :: writeInt id) 4 rc] := by
  match envs, enough with
  | env :: env' :: envs, _ =>
    obtain ⟨-, -, same⟩ := kept.1 running
    obtain ⟨msgid, quiet⟩ := same type (own ▸ open_)
    obtain ⟨answer, none, running', type', msgid'⟩ := pubrec_turn (b := b) running type quiet
    obtain ⟨⟨sock, dup, rc, pubrel⟩, next⟩ := pubrel_turn b env' running' type'
    rw [outputs_cons, reactions_cons, answer, none, outputs_cons, reactions_cons, pubrel, msgid',
      ← msgid, own]
    refine ⟨sock, dup, rc, ?_⟩
    cases got : (iteration b env' (iteration b env st).2).1.got with
    | some buf => rfl
    | none =>
      have rest := (idle_window (b := b) envs (next got)).1
      simp [rest]

end Windows

/-- While its turns are kept, the thread answers each PUBREC of its publishes with the one
PUBREL, and its publishes that are not completed have distinct ids. -/
theorem exchange_kept (b : Board) (s : Start) (envs : List Env)
    (kept : Guarded (iteration b) (Kept s) [] envs (mqttThread s)) :
    AllAnswered s (rounds b s envs) ∧ Justified Distinct (trace s (rounds b s envs)) := by
  constructor
  · intro front r back id split word got member enough
    rw [List.append_cons] at split
    obtain ⟨before, after, rfl, fronts, backs⟩ := outputs_split (iteration b) split
    rw [guarded_append, List.nil_append, fronts] at kept
    have holding : Holding (front ++ [r]) (final (iteration b) before (mqttThread s)) := by
      have inv := history_invariant (I := Inv s) inv_step kept.1 (inv_start s)
      rw [List.nil_append, fronts] at inv
      exact inv.holding
    obtain ⟨running, holds, -, type, -⟩ := holding (pubrecOf id) (by rw [pending_concat, got])
    rw [← backs] at enough ⊢
    rw [outputs_length] at enough
    exact answered_outputs running (type.trans rfl) (by rw [holds, ackId_pubrecOf word]) member
      kept.2 enough
  · have inv := history_invariant (I := Inv s) inv_step kept (inv_start s)
    exact inv.distinct

def late : Env := { calm with delivery := ⟨false, fun _ => true, 0⟩ }

def doorTurn : Env :=
  { calm with
    sendNow := 2000
    doorOpened := true
    writeRc := fun site => if site = .init then -1 else 4 }

def exchange : Start := startOn [0x20, 2, 0, 0, 0x50, 2, 0, 1, 0x70, 2, 0, 1]

theorem exchange_kept_door :
    Guarded (iteration blankBoard) (Kept exchange) []
        [calm, late, late, doorTurn, late, late, calm] (mqttThread exchange) ∧
      AllAnswered exchange
        (rounds blankBoard exchange [calm, late, late, doorTurn, late, late, calm]) ∧
      Justified Distinct
        (trace exchange (rounds blankBoard exchange [calm, late, late, doorTurn, late, late, calm])) := by
  have kept : Guarded (iteration blankBoard) (Kept exchange) []
      [calm, late, late, doorTurn, late, late, calm] (mqttThread exchange) := by decide +kernel
  exact ⟨kept, exchange_kept blankBoard exchange _ kept⟩

/-- A door and a fan report of one turn have the same id. -/
theorem exchange_broken : ¬ ∀ (b : Board) (s : Start) (envs : List Env),
    AllAnswered s (rounds b s envs) ∧ Justified Distinct (trace s (rounds b s envs)) := by
  intro all
  have distinct := (all blankBoard exchange
    [calm, late, late, { doorTurn with fanSet := some true }]).2
  revert distinct
  decide +kernel

end BoxFirmware.MqttQos2
