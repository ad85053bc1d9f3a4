import BoxFirmware.MqttTurn

/-! What comes of a packet: the turns from its read to that of the next packet, what
`mqtt_thread` does outside in them, and the turns in which it only waits. -/
namespace BoxFirmware.MqttThread
open GuardedRun MqttPacket

def isReaction : Event → Bool
  | .sent _ packet _ _ => packetType packet ∉ [msgConnect, msgPingreq]
  | .uart _ => true
  | .mode _ => true
  | .restar => true
  | .reset => true
  | _ => false

def window : List Round → List Round
  | [] => []
  | r :: rest => if r.got.isSome then [r] else r :: window rest

def reactions (rs : List Round) : List Event := ((window rs).flatMap Round.answer).filter isReaction

def dispatches (rs : List Round) : Nat :=
  (window rs).countP (fun r => decide (r.dispatched = msgPublish))

section

variable {b : Board} {env : Env} {st : St}

theorem isReaction_publishEvent (sock : Int) (msgid retained : Nat) (rc : Int)
    (payload : List UInt8) : isReaction (publishEvent sock msgid retained rc payload) = true := by
  obtain ⟨packet, len, event, type⟩ := packetType_publishEvent sock msgid retained rc payload
  rw [event]
  simp only [List.mem_cons, List.not_mem_nil, or_false] at type
  rcases type with none | publish
  · simp [isReaction, none, msgConnect, msgPingreq]
  · simp [isReaction, publish, msgPublish, msgConnect, msgPingreq]

theorem turn_got (running : st.halted = false) (quiet : (iteration b env st).1.got = none)
    (goes : (afterSwitch b env st).halted = false) : arriving env st ≤ 0 := by
  by_contra packet
  rw [iteration_reads running goes, receive_packet (by omega)] at quiet
  cases quiet

def Idle (st : St) : Prop := st.halted = true ∨ st.msgtypes = 0 ∨ st.msgtypes = msgConnect

theorem idle_turn (b : Board) (env : Env) {st : St} (idle : Idle st) :
    (iteration b env st).1.answer.filter isReaction = [] ∧
      (iteration b env st).1.dispatched ≠ msgPublish ∧
      ((iteration b env st).1.got = none → Idle (iteration b env st).2) := by
  cases running : st.halted with
  | true =>
    rw [iteration_stopped b env running]
    refine ⟨rfl, ?_, fun _ => idle⟩
    exact fun same => nomatch same
  | false =>
    obtain ⟨answer, dispatched, next⟩ := turn_answer b env running
    have on := atSwitch_msgtypes b env st
    rw [answer, dispatched, afterSwitch_eq] at *
    have types : switchOn env st = 0 ∨ switchOn env st = msgConnect ∨ switchOn env st = msgPingreq := by
      rcases idle with stopped | types
      · simp [running] at stopped
      · rw [switchOn]
        split <;> tauto
    rcases types with type | type | type <;> rw [type] at on ⊢
    · have same : dispatch b env (atSwitch b env st) = atSwitch b env st := by simp only [dispatch, on]
      rw [same] at next ⊢
      exact ⟨rfl, by decide, fun none => Or.inr (Or.inl ((next none).2.trans on))⟩
    · rw [dispatch_connect on] at next ⊢
      refine ⟨?_, by decide, fun none => Or.inr (Or.inl (next none).2)⟩
      rw [connectCase_log]
      simp [isReaction, sentBytes_connect _ b.data (connect_fits b), atSwitch]
    · rw [dispatch_pingreq on] at next ⊢
      refine ⟨?_, by decide, fun none => Or.inr ?_⟩
      · rw [pingreqCase_log, sentBytes_pingreq _ (by decide)]
        split <;> simp [isReaction, atSwitch, msgPingreq]
      · rw [(next none).2, pingreqCase_eq]
        split
        · exact Or.inl rfl
        · exact Or.inr rfl

end

theorem reactions_cons (r : Round) (rest : List Round) : reactions (r :: rest) =
    r.answer.filter isReaction ++ if r.got.isSome then [] else reactions rest := by
  cases got : r.got with
  | none => simp [reactions, window, got]
  | some buf => simp [reactions, window, got]

theorem dispatches_cons (r : Round) (rest : List Round) : dispatches (r :: rest) =
    (if r.dispatched = msgPublish then 1 else 0) + if r.got.isSome then 0 else dispatches rest := by
  cases got : r.got with
  | none =>
    simp only [dispatches, window, got, List.countP_cons, Option.isSome_none, Bool.false_eq_true,
      if_false, decide_eq_true_eq]
    omega
  | some buf => simp [dispatches, window, got, List.countP_cons]

theorem idle_window {b : Board} (envs : List Env) {st : St} (idle : Idle st) :
    reactions (outputs (iteration b) envs st) = [] ∧
      dispatches (outputs (iteration b) envs st) = 0 := by
  induction envs generalizing st with
  | nil => exact ⟨rfl, rfl⟩
  | cons env envs ih =>
    obtain ⟨answer, other, next⟩ := idle_turn b env idle
    rw [outputs_cons, reactions_cons, dispatches_cons, answer, if_neg other]
    cases got : (iteration b env st).1.got with
    | some buf => exact ⟨rfl, rfl⟩
    | none =>
      obtain ⟨rest, none⟩ := ih (next got)
      simp [rest, none]

end BoxFirmware.MqttThread
