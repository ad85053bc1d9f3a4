import BoxFirmware.UcosSched

/-! What becomes of a message. What an event has been given by its posts it hands on in
that order, to waiting tasks or through its store, and a task gets from its pends just what
it was handed, also when its wait has run out in the meantime. -/
namespace BoxFirmware.Ucos
open BitTable GuardedRun

section Logs

variable {ε α : Type} [DecidableEq ε]

def Ev.accepted (e : ε) : Ev ε α → Option (Option α)
  | .posted e' pmsg err => if e' = e ∧ err = osErrNone then some pmsg else none
  | _ => none

def Ev.givenBy (e : ε) : Ev ε α → Option (Option α)
  | .given e' _ pmsg => if e' = e then some pmsg else none
  | _ => none

def Ev.handed (p : Fin 64) : Ev ε α → Option (ε × Option α)
  | .given e p' pmsg => if p' = p then some (e, pmsg) else none
  | _ => none

def Ev.received (p : Fin 64) : Ev ε α → Option (ε × Option α)
  | .returned e p' err pmsg => if p' = p ∧ err = osErrNone then some (e, pmsg) else none
  | _ => none

end Logs

section Flow

variable {ε α : Type}

/-- What an event holds, the units of a semaphore as `NULL` messages. -/
def Body.items : Body α → List (Option α)
  | .sem osEventCnt => List.replicate osEventCnt none
  | .mbox osEventPtr => (osEventPtr.map some).toList
  | .q _ osqEntries => osqEntries.map some

/-- What a task has been handed and its pend has not returned. -/
def inHand (pc : Pc ε) (t : OsTcb ε α) : List (ε × Option α) :=
  match pc.pends with
  | some (kind, e) => if t.listed then [] else [(e, if kind = .sem then none else t.osTCBMsg)]
  | none => []

theorem inHand_free {pc : Pc ε} (free : pc.pends = none) (t : OsTcb ε α) : inHand pc t = [] := by
  rw [inHand, free]

theorem inHand_listed (pc : Pc ε) {t : OsTcb ε α} (listed : t.listed = true) : inHand pc t = [] := by
  unfold inHand
  split
  · rw [if_pos listed]
  · rfl

theorem inHand_same {pc pc' : Pc ε} {t t' : OsTcb ε α} (pends : pc'.pends = pc.pends)
    (listed : t'.listed = t.listed) (msg : t'.osTCBMsg = t.osTCBMsg) : inHand pc' t' = inHand pc t := by
  rw [inHand, inHand, pends, listed, msg]

theorem Body.items_take {body body' : Body α} {pmsg : Option α} (taken : body.take = some (pmsg, body')) :
    body.items = pmsg :: body'.items := by
  cases body with
  | sem count =>
    cases count with
    | zero => cases taken
    | succ count =>
      obtain ⟨rfl, rfl⟩ := Prod.mk.inj (Option.some.inj taken)
      rfl
  | mbox ptr =>
    cases ptr with
    | none => cases taken
    | some m =>
      obtain ⟨rfl, rfl⟩ := Prod.mk.inj (Option.some.inj taken)
      rfl
  | q size entries =>
    cases entries with
    | nil => cases taken
    | cons m rest =>
      obtain ⟨rfl, rfl⟩ := Prod.mk.inj (Option.some.inj taken)
      rfl

theorem Body.items_of_take {body : Body α} (nothing : body.take = none) : body.items = [] := by
  cases body with
  | sem count =>
    cases count with
    | zero => rfl
    | succ count => cases nothing
  | mbox ptr =>
    cases ptr with
    | none => rfl
    | some m => cases nothing
  | q size entries =>
    cases entries with
    | nil => rfl
    | cons m rest => cases nothing

def Kind.carries (kind : Kind) (pmsg : Option α) : Prop := pmsg.isSome = decide (kind ≠ .sem)

theorem Body.items_put {body body' : Body α} {pmsg : Option α} (carried : body.kind.carries pmsg)
    (put : body.put pmsg = some body') : body'.items = body.items ++ [pmsg] := by
  cases body with
  | sem count =>
    obtain rfl : pmsg = none := Option.isSome_eq_false_iff.mp carried |> Option.isNone_iff_eq_none.mp
    simp only [Body.put, Option.ite_none_right_eq_some, Option.some.injEq] at put
    rw [← put.2]
    exact List.replicate_succ'
  | mbox ptr =>
    obtain ⟨m, rfl⟩ := Option.isSome_iff_exists.mp carried
    cases ptr with
    | none =>
      rw [← Option.some.inj put]
      rfl
    | some m => cases put
  | q size entries =>
    obtain ⟨m, rfl⟩ := Option.isSome_iff_exists.mp carried
    simp only [Body.put, Option.ite_none_left_eq_some, Option.some.injEq] at put
    rw [← put.2]
    simp [Body.items]

end Flow

section Invariant

variable {ε α : Type} [DecidableEq ε] (start : ε → Body α)

structure Flow (s : St ε α) : Prop where
  queue : ∀ e, (start e).items ++ s.log.filterMap (Ev.accepted e) =
    s.log.filterMap (Ev.givenBy e) ++ (s.osEvent e).body.items
  hand : ∀ p, s.log.filterMap (Ev.handed p) =
    s.log.filterMap (Ev.received p) ++ inHand (s.pc p) (s.tcb p)
  unaborted : ∀ p, (s.tcb p).osTCBStatPend ≠ .pendAbort

variable {start} {s s' : St ε α}

theorem Flow.change (flow : Flow start s) (evs : List (Ev ε α)) (log : s'.log = s.log ++ evs)
    (queue : ∀ e, (s.osEvent e).body.items ++ evs.filterMap (Ev.accepted e) =
      evs.filterMap (Ev.givenBy e) ++ (s'.osEvent e).body.items)
    (hand : ∀ p, inHand (s.pc p) (s.tcb p) ++ evs.filterMap (Ev.handed p) =
      evs.filterMap (Ev.received p) ++ inHand (s'.pc p) (s'.tcb p))
    (unaborted : ∀ p, (s'.tcb p).osTCBStatPend ≠ .pendAbort) : Flow start s' := by
  refine ⟨fun e => ?_, fun p => ?_, unaborted⟩
  · rw [log, List.filterMap_append, List.filterMap_append, ← List.append_assoc, flow.queue e,
      List.append_assoc, queue e, List.append_assoc]
  · rw [log, List.filterMap_append, List.filterMap_append, flow.hand p, List.append_assoc, hand p,
      List.append_assoc]

def Ev.silent : Ev ε α → Prop
  | .posted _ _ err => err ≠ osErrNone
  | .given _ _ _ => False
  | .returned _ _ err _ => err ≠ osErrNone
  | _ => True

theorem Flow.still (flow : Flow start s) (evs : List (Ev ε α)) (log : s'.log = s.log ++ evs)
    (silent : ∀ ev ∈ evs, ev.silent) (body : ∀ e, (s'.osEvent e).body = (s.osEvent e).body)
    (same : ∀ p, (s'.pc p).pends = (s.pc p).pends ∧ (s'.tcb p).listed = (s.tcb p).listed ∧
      (s'.tcb p).osTCBMsg = (s.tcb p).osTCBMsg)
    (unaborted : ∀ p, (s'.tcb p).osTCBStatPend ≠ .pendAbort) : Flow start s' := by
  have none : ∀ ev ∈ evs, (∀ e, ev.accepted e = none ∧ ev.givenBy e = none) ∧
      ∀ p, ev.handed p = none ∧ ev.received p = none := by
    intro ev member
    have free := silent ev member
    cases ev <;> simp_all [Ev.silent, Ev.accepted, Ev.givenBy, Ev.handed, Ev.received]
  refine flow.change evs log (fun e => ?_) (fun p => ?_) unaborted
  · rw [List.filterMap_eq_nil_iff.mpr (fun ev member => ((none ev member).1 e).1),
      List.filterMap_eq_nil_iff.mpr (fun ev member => ((none ev member).1 e).2), body]
    simp
  · rw [List.filterMap_eq_nil_iff.mpr (fun ev member => ((none ev member).2 p).1),
      List.filterMap_eq_nil_iff.mpr (fun ev member => ((none ev member).2 p).2),
      inHand_same (same p).1 (same p).2.1 (same p).2.2]
    simp

theorem Flow.same (flow : Flow start s) (log : s'.log = s.log) (event : s'.osEvent = s.osEvent)
    (tcb : s'.tcb = s.tcb) (pends : ∀ p, (s'.pc p).pends = (s.pc p).pends) : Flow start s' := by
  refine flow.still [] (by rw [log, List.append_nil]) nofun (fun e => by rw [event]) (fun p => ?_) ?_
  · rw [tcb]
    exact ⟨pends p, rfl, rfl⟩
  · rw [tcb]
    exact flow.unaborted

theorem Flow.retcb (flow : Flow start s) (p : Fin 64) (t : OsTcb ε α) (evs : List (Ev ε α))
    (silent : ∀ ev ∈ evs, ev.silent) (rdy : Table) (listed : t.listed = (s.tcb p).listed)
    (msg : t.osTCBMsg = (s.tcb p).osTCBMsg) (unaborted : t.osTCBStatPend ≠ .pendAbort) :
    Flow start ((setRdy rdy (setTcb p t s)).emit evs) := by
  have tcb : ∀ q, ((setRdy rdy (setTcb p t s)).emit evs).tcb q = if q = p then t else s.tcb q :=
    fun q => Function.update_apply _ _ _ _
  refine flow.still evs rfl silent (fun _ => rfl) (fun q => ⟨rfl, ?_⟩) (fun q => ?_)
  · rw [tcb]
    split_ifs with here
    · rw [here]
      exact ⟨listed, msg⟩
    · exact ⟨rfl, rfl⟩
  · rw [tcb]
    split_ifs
    · exact unaborted
    · exact flow.unaborted q

theorem Flow.goTo (flow : Flow start s) (p : Fin 64) {pc : Pc ε} (pends : pc.pends = (s.pc p).pends) :
    Flow start (Ucos.goTo p pc s) := by
  refine flow.same rfl rfl rfl (fun q => ?_)
  by_cases here : q = p
  · rw [here]
    simp [Ucos.goTo, pends]
  · simp [Ucos.goTo, here]

theorem Flow.emit (flow : Flow start s) {evs : List (Ev ε α)} (silent : ∀ ev ∈ evs, ev.silent) :
    Flow start (s.emit evs) :=
  flow.still evs rfl silent (fun _ => rfl) (fun _ => ⟨rfl, rfl, rfl⟩) flow.unaborted

theorem Flow.tick (flow : Flow start s) (l : Lists s) (p : Fin 64) : Flow start (tickTcb p s) := by
  by_cases still : (s.tcb p).osTCBDly = 0
  · rw [tickTcb, if_neg (not_not.mpr still)]
    exact flow
  rw [tickTcb, if_pos still]
  have untold : (s.tcb p).osTCBStatPend ≠ .pendTo := fun told => still ((l.task p).out told)
  have none : ∀ ev ∈ ([] : List (Ev ε α)), ev.silent := by simp
  by_cases last : (s.tcb p).osTCBDly - 1 = 0
  · rw [if_pos last]
    obtain ⟨stat, -, -, told⟩ := timeUp_spec { s.tcb p with osTCBDly := (s.tcb p).osTCBDly - 1 }
    have msg : (timeUp { s.tcb p with osTCBDly := (s.tcb p).osTCBDly - 1 }).osTCBMsg =
        (s.tcb p).osTCBMsg := by
      unfold timeUp
      split_ifs <;> rfl
    dsimp only at stat told ⊢
    generalize timeUp { s.tcb p with osTCBDly := (s.tcb p).osTCBDly - 1 } = t at stat told msg
    have kept := flow.retcb p t [] none
      (if t.osTCBStat.suspend then s.osRdy else s.osRdy.add p) ?_ msg ?_
    · rwa [St.emit, List.append_nil] at kept
    · simp only [OsTcb.listed, stat, Stat.pendAny_clearAny, told, decide_eq_false untold,
        Bool.false_or, Bool.or_false]
      split_ifs with pend <;> simp [pend]
    · rw [told]
      split_ifs <;> simp
  · rw [if_neg last]
    have kept := flow.retcb p { s.tcb p with osTCBDly := (s.tcb p).osTCBDly - 1 } [] none s.osRdy
      rfl rfl (flow.unaborted p)
    rwa [St.emit, List.append_nil] at kept

theorem Flow.suspend (flow : Flow start s) (prio : Option (Fin 64)) (code : s.pc s.osPrioCur = .code) :
    Flow start (osTaskSuspend prio s) := by
  unfold osTaskSuspend
  dsimp only
  generalize prio.getD s.osPrioCur = p
  have kept := flow.retcb p { s.tcb p with
      osTCBStat := { (s.tcb p).osTCBStat with suspend := true } } [.suspended p osErrNone]
    (by simp [Ev.silent]) (s.osRdy.drop p) rfl rfl (flow.unaborted p)
  split_ifs with none own
  · exact flow.emit (by simp [Ev.silent])
  · have same : p = s.osPrioCur := own
    refine kept.goTo p ?_
    show Pc.pends (.sched .ret) = (s.pc p).pends
    rw [same, code]
    rfl
  · exact kept

theorem Flow.resume (flow : Flow start s) (p : Fin 64) (code : s.pc s.osPrioCur = .code) :
    Flow start (osTaskResume p s) := by
  unfold osTaskResume
  dsimp only
  have kept : ∀ rdy, Flow start ((setRdy rdy (setTcb p { s.tcb p with
      osTCBStat := { (s.tcb p).osTCBStat with suspend := false } } s)).emit [.resumed p osErrNone]) :=
    fun rdy => flow.retcb p _ _ (by simp [Ev.silent]) rdy rfl rfl (flow.unaborted p)
  split_ifs
  · exact flow.emit (by simp [Ev.silent])
  · refine (kept (s.osRdy.add p)).goTo s.osPrioCur ?_
    show Pc.pends (.sched .ret) = (s.pc s.osPrioCur).pends
    rw [code]
    rfl
  · exact kept s.osRdy
  · exact kept s.osRdy
  · exact flow.emit (by simp [Ev.silent])

theorem Flow.timeDly (flow : Flow start s) (ticks : Nat) (code : s.pc s.osPrioCur = .code) :
    Flow start (osTimeDly ticks s) := by
  have kept := flow.retcb s.osPrioCur { s.tcb s.osPrioCur with osTCBDly := ticks } [] nofun
    (s.osRdy.drop s.osPrioCur) rfl rfl (flow.unaborted s.osPrioCur)
  rw [St.emit, List.append_nil] at kept
  unfold osTimeDly
  dsimp only
  split_ifs
  · exact flow
  · exact flow
  · refine kept.goTo s.osPrioCur ?_
    show Pc.pends (.sched .ret) = (s.pc s.osPrioCur).pends
    rw [code]
    rfl
  · exact flow

theorem Flow.pend (flow : Flow start s) (kind : Kind) (e : ε) (timeout : Nat)
    (code : s.pc s.osPrioCur = .code) : Flow start (osPend kind e timeout s) := by
  have free : (s.pc s.osPrioCur).pends = none := by rw [code]; rfl
  unfold osPend
  dsimp only
  split_ifs
  · exact flow.emit (by simp [Ev.silent, osErrEventType, osErrNone])
  · exact flow.emit (by simp [Ev.silent, osErrPendIsr, osErrNone])
  · exact flow.emit (by simp [Ev.silent, osErrPendLocked, osErrNone])
  · split
    · rename_i pmsg body taken
      refine flow.change [.given e s.osPrioCur pmsg, .returned e s.osPrioCur osErrNone pmsg] rfl
        (fun e' => ?_) (fun p => ?_) flow.unaborted
      · show (s.osEvent e').body.items ++ _ =
          _ ++ ((setEvent e { s.osEvent e with body := body } s).osEvent e').body.items
        rw [setEvent_event]
        by_cases here : e' = e
        · rw [here, Body.items_take taken, if_pos rfl]
          simp [List.filterMap_cons, Ev.accepted, Ev.givenBy]
        · simp [List.filterMap_cons, here, Ne.symm here, Ev.accepted, Ev.givenBy]
      · show inHand (s.pc p) (s.tcb p) ++ _ = _ ++ inHand (s.pc p) (s.tcb p)
        by_cases own : s.osPrioCur = p
        · rw [← own, inHand_free free]
          simp [List.filterMap_cons, Ev.handed, Ev.received]
        · simp [List.filterMap_cons, Ev.handed, Ev.received, own]
    · -- the task waits, and has nothing before or behind
      let t : OsTcb ε α := { s.tcb s.osPrioCur with
        osTCBStat := (s.tcb s.osPrioCur).osTCBStat.set kind
        osTCBStatPend := .pendOk
        osTCBDly := timeout
        osTCBEventPtr := some e }
      generalize next : Ucos.goTo s.osPrioCur _ _ = s'
      have tcb : ∀ q, s'.tcb q = if q = s.osPrioCur then t else s.tcb q := by
        intro q
        rw [← next]
        by_cases own : q = s.osPrioCur <;>
          simp [Ucos.goTo, osEventTaskWait, setRdy, setEvent, setTcb, own, t]
      have pc : ∀ q, q ≠ s.osPrioCur → s'.pc q = s.pc q := by
        intro q own
        rw [← next]
        exact Function.update_of_ne own _ _
      have body : ∀ e', (s'.osEvent e').body = (s.osEvent e').body := by
        intro e'
        rw [← next]
        by_cases here : e' = e <;>
          simp [Ucos.goTo, osEventTaskWait, setRdy, setEvent, setTcb, here]
      have listed : t.listed = true := by
        rw [OsTcb.listed, Bool.or_eq_true]
        exact .inl (Stat.pendAny_set _ _)
      refine flow.change [] (by rw [← next, List.append_nil]; rfl) (fun e' => by simp [body])
        (fun q => ?_) (fun q => ?_)
      · by_cases own : q = s.osPrioCur
        · rw [tcb, if_pos own, inHand_listed _ listed, own, inHand_free free]
          rfl
        · rw [tcb, if_neg own, pc q own]
          simp
      · rw [tcb]
        split_ifs
        · simp [t]
        · exact flow.unaborted q

/-- A message for an event that a task waits for goes to the first of the waiting tasks. -/
theorem Flow.post (flow : Flow start s) (l : Lists s) {kind : Kind} (e : ε) {pmsg : Option α}
    (carried : kind.carries pmsg) : Flow start (osPost kind e pmsg s) := by
  unfold osPost
  split_ifs with other some
  · exact flow.emit (by simp [Ev.silent, osErrEventType, osErrNone])
  · have known : (s.osEvent e).body.kind = kind := not_not.mp other
    have waiting := Table.lowest_has osUnMapTbl_lowest some
    generalize found : (s.osEvent e).wait.lowest osUnMapTbl = p at waiting
    obtain ⟨-, ptr, listed, pends, cleared, -⟩ := (l.task p).listed waiting
    rw [known] at pends cleared
    have nothing := Body.items_of_take (l.full e p waiting)
    let t : OsTcb ε α := { s.tcb p with
      osTCBDly := 0
      osTCBMsg := pmsg
      osTCBStat := (s.tcb p).osTCBStat.clear kind
      osTCBStatPend := .pendOk }
    have told : t.listed = false := by
      rw [OsTcb.listed, cleared]
      rfl
    have tcb : ∀ q, (osEventTaskRdy e pmsg kind .pendOk s).tcb q = if q = p then t else s.tcb q := by
      intro q
      by_cases here : q = p <;>
        simp [osEventTaskRdy, osEventTaskRemove, setEvent, setRdy, setTcb, found, here, t]
    have body : ∀ e', ((osEventTaskRdy e pmsg kind .pendOk s).osEvent e').body = (s.osEvent e').body := by
      intro e'
      by_cases here : e' = e <;> simp [osEventTaskRdy, osEventTaskRemove, setEvent, setRdy, setTcb, here]
    have message : (if kind = .sem then none else pmsg) = pmsg := by
      split_ifs with sem
      · rw [sem] at carried
        exact (Option.isNone_iff_eq_none.mp (Option.isSome_eq_false_iff.mp carried)).symm
      · rfl
    refine flow.change [.posted e pmsg osErrNone, .given e p pmsg] rfl (fun e' => ?_) (fun q => ?_)
      (fun q => ?_)
    · show (s.osEvent e').body.items ++ _ =
        _ ++ ((osEventTaskRdy e pmsg kind .pendOk s).osEvent e').body.items
      rw [body]
      by_cases here : e' = e
      · rw [here, nothing]
        simp [List.filterMap_cons, Ev.accepted, Ev.givenBy]
      · simp [List.filterMap_cons, Ev.accepted, Ev.givenBy, Ne.symm here]
    · show inHand (s.pc q) (s.tcb q) ++ _ =
        _ ++ inHand (s.pc q) ((osEventTaskRdy e pmsg kind .pendOk s).tcb q)
      rw [tcb]
      by_cases here : q = p
      · have hand : inHand (s.pc p) t = [(e, pmsg)] := by
          rw [inHand, pends]
          show (if t.listed = true then [] else [(e, if kind = .sem then none else pmsg)]) = _
          rw [told, message]
          rfl
        rw [here, if_pos rfl, hand, inHand_listed _ listed]
        simp [List.filterMap_cons, Ev.handed, Ev.received]
      · simp [List.filterMap_cons, here, Ne.symm here, Ev.handed, Ev.received]
    · show ((osEventTaskRdy e pmsg kind .pendOk s).tcb q).osTCBStatPend ≠ .pendAbort
      rw [tcb]
      split_ifs
      · simp [t]
      · exact flow.unaborted q
  · split
    · rename_i body put
      have known : (s.osEvent e).body.kind = kind := not_not.mp other
      refine flow.change [.posted e pmsg osErrNone] rfl (fun e' => ?_) (fun q => ?_) flow.unaborted
      · show (s.osEvent e').body.items ++ _ =
          _ ++ ((setEvent e { s.osEvent e with body := body } s).osEvent e').body.items
        rw [setEvent_event]
        by_cases here : e' = e
        · rw [here, if_pos rfl]
          simp [List.filterMap_cons, Ev.accepted, Ev.givenBy, Body.items_put (known ▸ carried) put]
        · simp [List.filterMap_cons, Ev.accepted, Ev.givenBy, here, Ne.symm here]
      · show inHand (s.pc q) (s.tcb q) ++ _ = _ ++ inHand (s.pc q) (s.tcb q)
        simp [List.filterMap_cons, Ev.handed, Ev.received]
    · refine flow.emit ?_
      cases kind <;> simp [Ev.silent, Kind.full, osErrSemOvf, osErrMboxFull, osErrQFull, osErrNone]

theorem Flow.postRun (flow : Flow start s) (l : Lists s) (post : Post ε α) :
    Flow start (post.run s) := by
  cases post with
  | sem e => exact flow.post l e rfl
  | mbox e pmsg => exact flow.post l e rfl
  | q e pmsg => exact flow.post l e rfl

theorem Flow.pendReturn (flow : Flow start s) {kind : Kind} {e : ε}
    (inside : s.pc s.osPrioCur = .pended kind e) (runs : Runs s s.osPrioCur) :
    Flow start (Ucos.pendReturn kind e s) := by
  have pends : (s.pc s.osPrioCur).pends = some (kind, e) := by rw [inside]; rfl
  have clear : (s.tcb s.osPrioCur).osTCBStat.pendAny = false := by rw [runs.2.1]; rfl
  have back : ∀ {s' : St ε α} {err : Nat} {msg pmsg : Option α}, s'.log = s.log → s'.pc = s.pc →
      s'.tcb = s.tcb → (∀ e', (s'.osEvent e').body = (s.osEvent e').body) →
      inHand (s.pc s.osPrioCur) (s.tcb s.osPrioCur) =
        (if err = osErrNone then [(e, pmsg)] else []) →
      Flow start ((Ucos.goTo s.osPrioCur .code (setTcb s.osPrioCur { s.tcb s.osPrioCur with
        osTCBStat := osStatRdy
        osTCBStatPend := .pendOk
        osTCBEventPtr := none
        osTCBMsg := msg } s')).emit [.returned e s.osPrioCur err pmsg]) := by
    intro s' err msg pmsg log pc tcb body hand
    refine flow.change [.returned e s.osPrioCur err pmsg] (congrArg (· ++ _) log) (fun e' => ?_)
      (fun q => ?_) (fun q => ?_)
    · show (s.osEvent e').body.items ++ _ = _ ++ (s'.osEvent e').body.items
      rw [body]
      simp [List.filterMap_cons, Ev.accepted, Ev.givenBy]
    · show _ = _ ++ inHand (Function.update s'.pc s.osPrioCur .code q)
        (Function.update s'.tcb s.osPrioCur _ q)
      by_cases own : q = s.osPrioCur
      · rw [own, hand, Function.update_self, inHand_free (show Pc.pends (.code : Pc ε) = none from rfl)]
        by_cases ok : err = osErrNone <;> simp [List.filterMap_cons, Ev.handed, Ev.received, ok]
      · rw [Function.update_of_ne own, Function.update_of_ne own, pc, tcb]
        simp [List.filterMap_cons, Ev.handed, Ev.received, Ne.symm own]
    · show (Function.update s'.tcb s.osPrioCur _ q).osTCBStatPend ≠ .pendAbort
      by_cases own : q = s.osPrioCur
      · rw [own, Function.update_self]
        exact nofun
      · rw [Function.update_of_ne own, tcb]
        exact flow.unaborted q
  unfold Ucos.pendReturn
  dsimp only
  cases told : (s.tcb s.osPrioCur).osTCBStatPend with
  | pendAbort => exact absurd told (flow.unaborted _)
  | pendTo =>
    refine back rfl rfl rfl (fun e' => ?_) ?_
    · by_cases here : e' = e <;> simp [osEventTaskRemove, setEvent, here]
    · rw [inHand_listed]
      · rfl
      · rw [OsTcb.listed, told]
        simp
  | pendOk =>
    refine back rfl rfl rfl (fun _ => rfl) ?_
    rw [inHand, pends]
    simp [OsTcb.listed, clear, told]

theorem Flow.task (flow : Flow start s) (l : Lists s) (call : Call ε α)
    (code : s.pc s.osPrioCur = .code) : Flow start (osCall call s) := by
  cases call with
  | semPend e timeout => exact flow.pend .sem e timeout code
  | mboxPend e timeout => exact flow.pend .mbox e timeout code
  | qPend e timeout => exact flow.pend .q e timeout code
  | post post =>
    have posted := flow.postRun l post
    simp only [osCall]
    split_ifs
    · refine posted.goTo s.osPrioCur ?_
      rw [(post.run_core s).2.2.1, code]
      rfl
    · exact posted
  | suspend prio => exact flow.suspend prio code
  | resume p => exact flow.resume p code
  | timeDly ticks => exact flow.timeDly ticks code
  | lock =>
    rw [osCall, osSchedLock]
    split_ifs
    · exact flow.same rfl rfl rfl (fun _ => rfl)
    · exact flow
    · exact flow
  | unlock =>
    have same : Flow start { s with osLockNesting := s.osLockNesting - 1 } :=
      flow.same rfl rfl rfl (fun _ => rfl)
    rw [osCall, osSchedUnlock]
    dsimp only
    split_ifs
    · refine same.goTo s.osPrioCur ?_
      show Pc.pends (.sched .ret) = (s.pc s.osPrioCur).pends
      rw [code]
      rfl
    · exact same
    · exact same
    · exact flow

theorem Flow.step (flow : Flow start s) (inv : Inv s) (label : Label ε α) :
    Flow start (step label s) := by
  have did := did_step label s
  generalize Ucos.step label s = s' at did
  cases did with
  | call quiet calm code => exact flow.task inv.lists _ code
  | back quiet calm inside => exact flow.pendReturn inside (inv.pended quiet calm inside)
  | post => exact (flow.postRun inv.lists _).same rfl rfl rfl (fun _ => rfl)
  | tick => exact (flow.tick inv.lists _).same rfl rfl rfl (fun _ => rfl)
  | rest rest => exact flow.same rest.log rest.osEvent rest.tcb rest.pends

end Invariant

section Served

variable {ε α : Type} {s s' : St ε α}

/-- Who gets a message of the event: the first task that waits, or the running one if none does. -/
def Served (s : St ε α) (e : ε) (p : Fin 64) : Prop :=
  IsLeast {q | (s.osEvent e).wait.has q = true} p ∨
    p = s.osPrioCur ∧ ∀ q, (s.osEvent e).wait.has q = false

def Serves (s s' : St ε α) : Prop :=
  ∃ evs, s'.log = s.log ++ evs ∧ ∀ e p pmsg, .given e p pmsg ∈ evs → Served s e p

theorem Serves.same (log : s'.log = s.log) : Serves s s' :=
  ⟨[], by rw [log, List.append_nil], nofun⟩

def Ev.gives : Ev ε α → Bool
  | .given _ _ _ => true
  | _ => false

theorem Serves.entry (ev : Ev ε α) (other : ev.gives = false) (log : s'.log = s.log ++ [ev]) :
    Serves s s' := by
  refine ⟨[ev], log, fun e p pmsg member => ?_⟩
  rw [← List.mem_singleton.mp member] at other
  cases other

theorem Serves.suspend (prio : Option (Fin 64)) : Serves s (osTaskSuspend prio s) := by
  unfold osTaskSuspend
  dsimp only
  split_ifs <;> exact Serves.entry _ rfl rfl

theorem Serves.resume (p : Fin 64) : Serves s (osTaskResume p s) := by
  unfold osTaskResume
  dsimp only
  split_ifs <;> exact Serves.entry _ rfl rfl

theorem Serves.timeDly (ticks : Nat) : Serves s (osTimeDly ticks s) := by
  unfold osTimeDly
  dsimp only
  split_ifs <;> exact Serves.same rfl

theorem Serves.tick (p : Fin 64) : Serves s (tickTcb p s) := by
  unfold tickTcb
  dsimp only
  split_ifs <;> exact Serves.same rfl

variable [DecidableEq ε]

theorem Serves.pend (l : Lists s) (kind : Kind) (e : ε) (timeout : Nat) :
    Serves s (osPend kind e timeout s) := by
  unfold osPend
  dsimp only
  split_ifs
  · exact Serves.entry _ rfl rfl
  · exact Serves.entry _ rfl rfl
  · exact Serves.entry _ rfl rfl
  · split
    · rename_i pmsg body taken
      refine ⟨_, rfl, fun e' p pmsg' member => ?_⟩
      obtain ⟨rfl, rfl, -⟩ : e' = e ∧ p = s.osPrioCur ∧ pmsg' = pmsg := by simpa using member
      refine .inr ⟨rfl, fun q => ?_⟩
      by_contra waiting
      rw [l.full e' q (Bool.not_eq_false _ ▸ waiting)] at taken
      cases taken
    · exact Serves.same rfl

theorem Serves.post (kind : Kind) (e : ε) (pmsg : Option α) : Serves s (osPost kind e pmsg s) := by
  unfold osPost
  split_ifs with other some
  · exact Serves.entry _ rfl rfl
  · refine ⟨_, rfl, fun e' p pmsg' member => ?_⟩
    obtain ⟨rfl, rfl, -⟩ : e' = e ∧ p = (s.osEvent e).wait.lowest osUnMapTbl ∧ pmsg' = pmsg := by
      simpa using member
    exact .inl (Table.lowest_isLeast osUnMapTbl_lowest some)
  · split <;> exact Serves.entry _ rfl rfl

theorem Serves.postRun (post : Post ε α) : Serves s (post.run s) := by
  cases post <;> exact Serves.post _ _ _

theorem Serves.task (l : Lists s) (call : Call ε α) : Serves s (osCall call s) := by
  cases call with
  | semPend e timeout => exact Serves.pend l .sem e timeout
  | mboxPend e timeout => exact Serves.pend l .mbox e timeout
  | qPend e timeout => exact Serves.pend l .q e timeout
  | post post =>
    simp only [osCall]
    split_ifs <;> exact Serves.postRun post
  | suspend prio => exact Serves.suspend prio
  | resume p => exact Serves.resume p
  | timeDly ticks => exact Serves.timeDly ticks
  | lock =>
    rw [osCall, osSchedLock]
    split_ifs <;> exact Serves.same rfl
  | unlock =>
    rw [osCall, osSchedUnlock]
    dsimp only
    split_ifs <;> exact Serves.same rfl

theorem Serves.back (kind : Kind) (e : ε) : Serves s (Ucos.pendReturn kind e s) := by
  unfold Ucos.pendReturn
  dsimp only
  cases (s.tcb s.osPrioCur).osTCBStatPend <;> exact Serves.entry _ rfl rfl

theorem Serves.step (l : Lists s) (label : Label ε α) : Serves s (step label s) := by
  have did := did_step label s
  generalize Ucos.step label s = s' at did
  cases did with
  | call => exact Serves.task l _
  | back => exact Serves.back _ _
  | post => exact Serves.postRun _
  | tick => exact Serves.tick _
  | rest rest => exact Serves.same rest.log

end Served

section Runs

variable {ε α : Type} [DecidableEq ε] {tasks : List (Fin 64)} (body : ε → Body α)

theorem osStart_flow : Flow body (osStart tasks body) := by
  refine ⟨fun e => ?_, fun p => rfl, fun p => nofun⟩
  show (body e).items ++ [] = [] ++ (body e).items
  rw [List.append_nil, List.nil_append]

variable (idle : osTaskIdlePrio ∈ tasks) {labels : List (Label ε α)}
  (lively : Along step Lively labels (osStart tasks body))
include idle lively

theorem flow_of_run : Flow body (run step labels (osStart tasks body)) := by
  have keep : ∀ (label : Label ε α) (s : St ε α), Lively label s → Inv s ∧ Flow body s →
      Inv (step label s) ∧ Flow body (step label s) :=
    fun label _ lively both => ⟨both.1.step lively, both.2.step both.1 label⟩
  exact (run_invariant keep lively ⟨osStart_inv body idle, osStart_flow body⟩).2

/-- No message is lost, made up, or handed out twice, and each event keeps their order. -/
theorem messages_in_order {s : St ε α} (reached : run step labels (osStart tasks body) = s) (e : ε) :
    (body e).items ++ s.log.filterMap (Ev.accepted e) =
      s.log.filterMap (Ev.givenBy e) ++ (s.osEvent e).body.items := by
  rw [← reached]
  exact (flow_of_run body idle lively).queue e

/-- The pends of a task return what it was handed, one after the other, but for the message of
a pend that a post has ended and that has not come back. -/
theorem messages_received {s : St ε α} (reached : run step labels (osStart tasks body) = s) (p : Fin 64) :
    s.log.filterMap (Ev.handed p) = s.log.filterMap (Ev.received p) ++ inHand (s.pc p) (s.tcb p) := by
  rw [← reached]
  exact (flow_of_run body idle lively).hand p

/-- A step adds to the log, and a message of an event goes to the first of the tasks that wait
for it, and to the task that runs only if none does. -/
theorem first_is_served {s : St ε α} (reached : run step labels (osStart tasks body) = s)
    (label : Label ε α) : ∃ evs, (step label s).log = s.log ++ evs ∧
      ∀ e p pmsg, .given e p pmsg ∈ evs →
        IsLeast {q | (s.pc q).pends = some ((s.osEvent e).body.kind, e) ∧ (s.tcb q).listed = true} p ∨
        p = s.osPrioCur ∧
          ∀ q, (s.pc q).pends = some ((s.osEvent e).body.kind, e) → (s.tcb q).listed = false := by
  have lists := (inv_of_run body idle lively).lists
  have exact := fun q => (tables_exact body idle lively reached q).2.1
  rw [reached] at lists
  obtain ⟨evs, log, served⟩ := Serves.step lists label
  refine ⟨evs, log, fun e p pmsg member => ?_⟩
  simp only [← exact _ e]
  refine (served e p pmsg member).imp_right (fun own => ⟨own.1, fun q pends => ?_⟩)
  by_contra listed
  have waiting := (exact q e).mpr ⟨pends, Bool.not_eq_false _ ▸ listed⟩
  rw [own.2 q] at waiting
  cases waiting

end Runs

section Delivery

def delivery : List (Label Unit Nat) :=
  waiting ++ [.irq .counted, .irqPost (.mbox () 7), .irqGo, .irqEnd, .pendSV, .go]

theorem delivery_lively : Along step Lively delivery (osStart [5, 63] emptyBox) := by decide

theorem messages_in_order_delivery :
    (emptyBox ()).items ++ (run step delivery (osStart [5, 63] emptyBox)).log.filterMap (Ev.accepted ()) =
      (run step delivery (osStart [5, 63] emptyBox)).log.filterMap (Ev.givenBy ()) ++
        ((run step delivery (osStart [5, 63] emptyBox)).osEvent ()).body.items :=
  messages_in_order emptyBox (by decide) delivery_lively rfl ()

theorem messages_received_delivery :
    (run step delivery (osStart [5, 63] emptyBox)).log.filterMap (Ev.handed 5) =
      (run step delivery (osStart [5, 63] emptyBox)).log.filterMap (Ev.received 5) ++ [] :=
  messages_received emptyBox (by decide) delivery_lively rfl 5

example : (run step delivery (osStart [5, 63] emptyBox)).log.filterMap (Ev.received 5) =
    [((), some 7)] := by decide

/-- A handler runs while a task waits for its mailbox. -/
def interrupted : List (Label Unit Nat) := waiting ++ [.irq .counted]

theorem interrupted_lively : Along step Lively interrupted (osStart [5, 63] emptyBox) := by decide

/-- The post of this handler goes to the task that waits. -/
theorem first_is_served_interrupted :
    (step (.irqPost (.mbox () 7)) (run step interrupted (osStart [5, 63] emptyBox))).log =
        (run step interrupted (osStart [5, 63] emptyBox)).log ++
          [.posted () (some 7) 0, .given () 5 (some 7)] ∧
      IsLeast {q | ((run step interrupted (osStart [5, 63] emptyBox)).pc q).pends = some (.mbox, ()) ∧
        ((run step interrupted (osStart [5, 63] emptyBox)).tcb q).listed = true} 5 := by
  obtain ⟨evs, log, served⟩ :=
    first_is_served emptyBox (by decide) interrupted_lively rfl (.irqPost (.mbox () 7))
  have post : (step (.irqPost (.mbox () 7)) (run step interrupted (osStart [5, 63] emptyBox))).log =
      (run step interrupted (osStart [5, 63] emptyBox)).log ++
        [.posted () (some 7) 0, .given () 5 (some 7)] := rfl
  have same := List.append_cancel_left (log.symm.trans post)
  rw [same] at served
  refine ⟨post, (served () 5 (some 7) (by simp)).resolve_right (fun own => ?_)⟩
  exact absurd own.1 (by decide)

end Delivery

end BoxFirmware.Ucos
