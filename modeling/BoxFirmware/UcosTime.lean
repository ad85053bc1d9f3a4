import BoxFirmware.UcosFlow

/-! How long a task sleeps. A delay of `n` ticks, and a wait with a timeout of `n` that no
post ends, last until the `n`-th tick and no longer, and every `SysTick` interrupt is one
tick of each task. -/
namespace BoxFirmware.Ucos
open BitTable GuardedRun

section Steps

variable {ε α : Type} {s s' : St ε α}

/-- How often the task has been handed something. -/
def handouts (p : Fin 64) (s : St ε α) : Nat := (s.log.filterMap (Ev.handed p)).length

def Still (p : Fin 64) (s s' : St ε α) : Prop :=
  (s'.tcb p).osTCBDly = (s.tcb p).osTCBDly ∨ (s'.tcb p).osTCBDly = 0 ∧ handouts p s < handouts p s'

def Keeps (p : Fin 64) (s s' : St ε α) : Prop :=
  Still p s s' ∨ p = s.osPrioCur ∧ s.osLockNesting = 0

theorem Still.same {p : Fin 64} (tcb : s'.tcb = s.tcb) : Still p s s' := .inl (by rw [tcb])

theorem Still.retcb {p q : Fin 64} {t : OsTcb ε α} (tcb : s'.tcb = Function.update s.tcb q t)
    (dly : t.osTCBDly = (s.tcb q).osTCBDly) : Still p s s' := by
  left
  rw [tcb]
  by_cases here : p = q
  · rw [here, Function.update_self, dly]
  · rw [Function.update_of_ne here]

theorem Still.suspend (p : Fin 64) (prio : Option (Fin 64)) : Still p s (osTaskSuspend prio s) := by
  unfold osTaskSuspend
  dsimp only
  split_ifs
  · exact Still.same rfl
  · exact Still.retcb rfl rfl
  · exact Still.retcb rfl rfl

theorem Still.resume (p q : Fin 64) : Still p s (osTaskResume q s) := by
  unfold osTaskResume
  dsimp only
  split_ifs
  · exact Still.same rfl
  · exact Still.retcb rfl rfl
  · exact Still.retcb rfl rfl
  · exact Still.retcb rfl rfl
  · exact Still.same rfl

theorem Keeps.own {p : Fin 64} {t : OsTcb ε α} (unlocked : ¬ s.osLockNesting > 0)
    (tcb : s'.tcb = Function.update s.tcb s.osPrioCur t) : Keeps p s s' := by
  by_cases own : p = s.osPrioCur
  · exact .inr ⟨own, Nat.eq_zero_of_not_pos unlocked⟩
  · left
    left
    rw [tcb, Function.update_of_ne own]

theorem Keeps.timeDly (p : Fin 64) (ticks : Nat) : Keeps p s (osTimeDly ticks s) := by
  unfold osTimeDly
  dsimp only
  split_ifs with nested locked
  · exact .inl (Still.same rfl)
  · exact .inl (Still.same rfl)
  · exact Keeps.own locked rfl
  · exact .inl (Still.same rfl)

theorem tick_dly (p : Fin 64) (s : St ε α) :
    ((tickTcb p s).tcb p).osTCBDly = (s.tcb p).osTCBDly - 1 := by
  unfold tickTcb
  dsimp only
  by_cases still : (s.tcb p).osTCBDly = 0
  · rw [if_neg (not_not.mpr still), still]
  · rw [if_pos still]
    split_ifs
    · simp [setRdy, setTcb, (timeUp_spec _).2.1]
    · simp [setRdy, setTcb, (timeUp_spec _).2.1]
    · simp [setTcb]

theorem Still.tick {p q : Fin 64} (other : p ≠ q) : Still p s (tickTcb q s) := by
  left
  unfold tickTcb
  dsimp only
  split_ifs <;> simp [setRdy, setTcb, other]

variable [DecidableEq ε]

/-- The step is a tick of the task. -/
def ticks (p : Fin 64) : Label ε α → St ε α → Bool
  | .irqGo, s =>
    match s.isr with
    | [] => false
    | f :: _ => !f.sched && decide (f.tick.head? = some p)
  | _, _ => false

def ticked (p : Fin 64) : List (Label ε α) → St ε α → Nat
  | [], _ => 0
  | label :: labels, s => (ticks p label s).toNat + ticked p labels (step label s)

theorem Keeps.pend (p : Fin 64) (kind : Kind) (e : ε) (timeout : Nat) :
    Keeps p s (osPend kind e timeout s) := by
  unfold osPend
  dsimp only
  split_ifs with mismatch nested locked
  · exact .inl (Still.same rfl)
  · exact .inl (Still.same rfl)
  · exact .inl (Still.same rfl)
  · split
    · exact .inl (Still.same rfl)
    · refine Keeps.own (t := { s.tcb s.osPrioCur with
        osTCBStat := (s.tcb s.osPrioCur).osTCBStat.set kind
        osTCBStatPend := .pendOk
        osTCBDly := timeout
        osTCBEventPtr := some e }) locked ?_
      simp [goTo, osEventTaskWait, setRdy, setEvent, setTcb]

theorem Still.post (p : Fin 64) (kind : Kind) (e : ε) (pmsg : Option α) :
    Still p s (osPost kind e pmsg s) := by
  unfold osPost
  split_ifs
  · exact Still.same rfl
  · by_cases first : p = (s.osEvent e).wait.lowest osUnMapTbl
    · refine .inr ⟨?_, ?_⟩
      · simp [St.emit, osEventTaskRdy, osEventTaskRemove, setEvent, setRdy, setTcb, first]
      · show handouts p s < ((s.log ++ _).filterMap (Ev.handed p)).length
        rw [List.filterMap_append, List.length_append, handouts]
        simp [List.filterMap_cons, Ev.handed, first]
    · left
      simp [St.emit, osEventTaskRdy, osEventTaskRemove, setEvent, setRdy, setTcb, first]
  · split <;> exact Still.same rfl

theorem Still.postRun (p : Fin 64) (post : Post ε α) : Still p s (post.run s) := by
  cases post <;> exact Still.post p _ _ _

theorem Keeps.task (p : Fin 64) (call : Call ε α) : Keeps p s (osCall call s) := by
  cases call with
  | semPend e timeout => exact Keeps.pend p .sem e timeout
  | mboxPend e timeout => exact Keeps.pend p .mbox e timeout
  | qPend e timeout => exact Keeps.pend p .q e timeout
  | post post =>
    simp only [osCall]
    split_ifs <;> exact .inl (Still.postRun p post)
  | suspend prio => exact .inl (Still.suspend p prio)
  | resume q => exact .inl (Still.resume p q)
  | timeDly ticks => exact Keeps.timeDly p ticks
  | lock =>
    rw [osCall, osSchedLock]
    split_ifs <;> exact .inl (Still.same rfl)
  | unlock =>
    rw [osCall, osSchedUnlock]
    dsimp only
    split_ifs <;> exact .inl (Still.same rfl)

theorem Still.back (p : Fin 64) (kind : Kind) (e : ε) : Still p s (pendReturn kind e s) := by
  unfold pendReturn
  dsimp only
  cases (s.tcb s.osPrioCur).osTCBStatPend <;> exact Still.retcb rfl rfl

theorem sleep_cases (inv : Inv s) (p : Fin 64) (label : Label ε α) :
    ticks p label s = true ∧ (step label s).made = s.made ∧
        (step label s).tcb = (tickTcb p s).tcb ∨
      ticks p label s = false ∧ (Still p s (step label s) ∨
        p = s.osPrioCur ∧ s.osLockNesting = 0 ∧ Runs s s.osPrioCur) := by
  have did := did_step label s
  generalize Ucos.step label s = s' at did
  cases did with
  | call quiet calm code =>
    refine .inr ⟨rfl, (Keeps.task p _).imp_right (fun own => ⟨own.1, own.2, ?_⟩)⟩
    exact (inv.runs quiet calm (by rw [code]; rfl) own.2).1
  | back => exact .inr ⟨rfl, .inl (Still.back p _ _)⟩
  | post => exact .inr ⟨rfl, .inl (Still.postRun p _)⟩
  | tick inside free next =>
    rename_i q f left later
    simp only [ticks, inside, free, next]
    by_cases here : q = p
    · rw [here]
      exact .inl ⟨by simp, congrArg Core.made (tickTcb_core p s).1, rfl⟩
    · exact .inr ⟨by simp [here], .inl (Still.tick (Ne.symm here))⟩
  | rest rest no_tick =>
    refine .inr ⟨?_, .inl (Still.same rest.tcb)⟩
    cases label with
    | irqGo =>
      simp only [ticks]
      split
      · rfl
      · rename_i f later inside
        rcases no_tick rfl f later inside with called | done
        · rw [called]
          rfl
        · simp [done]
    | _ => rfl

end Steps

section Sleeping

variable {ε α : Type} {s : St ε α}

variable [DecidableEq ε]

theorem handouts_step (inv : Inv s) (p : Fin 64) (label : Label ε α) :
    handouts p s ≤ handouts p (step label s) := by
  obtain ⟨evs, log, -⟩ := Serves.step inv.lists label
  rw [handouts, handouts, log, List.filterMap_append, List.length_append]
  exact Nat.le_add_right _ _

theorem sleep_step (inv : Inv s) {p : Fin 64} (sleeps : 0 < (s.tcb p).osTCBDly) (label : Label ε α) :
    handouts p s < handouts p (step label s) ∨
      ((step label s).tcb p).osTCBDly + (ticks p label s).toNat = (s.tcb p).osTCBDly := by
  rcases sleep_cases inv p label with ⟨ticks, -, tcb⟩ | ⟨none, (same | given) | ⟨own, -, runs⟩⟩
  · right
    rw [tcb, tick_dly, ticks]
    exact Nat.sub_add_cancel sleeps
  · right
    rw [same, none]
    rfl
  · exact .inl given.2
  · rw [own, runs.2.2] at sleeps
    cases sleeps

theorem handouts_run {labels : List (Label ε α)} (inv : Inv s) (lively : Along step Lively labels s)
    (p : Fin 64) : handouts p s ≤ handouts p (run step labels s) := by
  induction labels generalizing s with
  | nil => exact Nat.le_refl _
  | cons label labels ih =>
    exact (handouts_step inv p label).trans (ih (inv.step lively.1) lively.2)

theorem sleep_run {labels : List (Label ε α)} (inv : Inv s) (lively : Along step Lively labels s)
    {p : Fin 64} (few : ticked p labels s < (s.tcb p).osTCBDly) :
    handouts p s < handouts p (run step labels s) ∨
      ((run step labels s).tcb p).osTCBDly + ticked p labels s = (s.tcb p).osTCBDly := by
  induction labels generalizing s with
  | nil => exact .inr rfl
  | cons label labels ih =>
    have next := inv.step lively.1
    rw [ticked] at few ⊢
    rw [run_cons]
    have sleeps : 0 < (s.tcb p).osTCBDly := by omega
    rcases sleep_step inv sleeps label with given | left
    · exact .inl (Nat.lt_of_lt_of_le given (handouts_run next lively.2 p))
    · have fewer : ticked p labels (step label s) < ((step label s).tcb p).osTCBDly := by omega
      rcases ih next lively.2 fewer with given | rest
      · exact .inl (Nat.lt_of_le_of_lt (handouts_step inv p label) given)
      · right
        omega

omit [DecidableEq ε] in
theorem last_tick (l : Lists s) {p : Fin 64} (last : (s.tcb p).osTCBDly = 1) {s' : St ε α}
    (made : s'.made = s.made) (tcb : s'.tcb = (tickTcb p s).tcb) :
    (s'.tcb p).osTCBDly = 0 ∧ (Runs s' p ∨ (s'.tcb p).osTCBStat.suspend = true) ∧
      ((s.tcb p).listed = true → (s'.tcb p).osTCBStatPend = .pendTo) := by
  have fit := l.task p
  have there : s.made p = true := by
    by_contra none
    rw [(fit.absent (Bool.not_eq_true _ ▸ none)).2] at last
    cases last
  obtain ⟨stat, dly, -, told⟩ := timeUp_spec { s.tcb p with osTCBDly := (s.tcb p).osTCBDly - 1 }
  have own : s'.tcb p = timeUp { s.tcb p with osTCBDly := (s.tcb p).osTCBDly - 1 } := by
    rw [tcb, tickTcb]
    simp [last, setRdy, setTcb]
  rw [← own] at stat dly told
  have zero : (s'.tcb p).osTCBDly = 0 := by
    rw [dly, last]
  refine ⟨zero, ?_, fun listed => ?_⟩
  · by_cases held : (s'.tcb p).osTCBStat.suspend = true
    · exact .inr held
    · refine .inl ⟨by rw [made]; exact there, ?_, zero⟩
      rw [Stat.eq_rdy, stat]
      exact ⟨rfl, stat ▸ (Bool.not_eq_true _ ▸ held)⟩
  · have untold : (s.tcb p).osTCBStatPend ≠ .pendTo := by
      intro out
      rw [fit.out out] at last
      cases last
    rw [OsTcb.listed, decide_eq_false untold, Bool.or_false] at listed
    rw [told]
    exact if_pos listed

end Sleeping

section Interrupts

variable {ε α : Type} {s : St ε α}

/-- The `SysTick` interrupts that are taken. -/
def taken : Label ε α → St ε α → Bool
  | .irq .sysTick, s => decide (s.isr.length < 16)
  | _, _ => false

theorem osSched_clock (s : St ε α) : (osSched s).osTCBList = s.osTCBList ∧ (osSched s).isr = s.isr := by
  unfold osSched
  split_ifs <;> exact ⟨rfl, rfl⟩

theorem osIntEnter_clock (s : St ε α) :
    (osIntEnter s).osTCBList = s.osTCBList ∧ (osIntEnter s).isr = s.isr := by
  unfold osIntEnter
  split_ifs <;> exact ⟨rfl, rfl⟩

theorem osIntExit_clock (s : St ε α) :
    (osIntExit s).osTCBList = s.osTCBList ∧ (osIntExit s).isr = s.isr := by
  unfold osIntExit
  split_ifs <;> exact osSched_clock _

variable [DecidableEq ε]

def sysTicks : List (Label ε α) → St ε α → Nat
  | [], _ => 0
  | label :: labels, s => (taken label s).toNat + sysTicks labels (step label s)

/-- The handlers that have not come to the task. -/
def owed (p : Fin 64) (isr : List Frame) : Nat := isr.countP (fun f => f.tick.contains p)

structure Clock (tasks : List (Fin 64)) (s : St ε α) : Prop where
  list : s.osTCBList = tasks
  once : ∀ f ∈ s.isr, f.tick.Nodup

theorem osCall_core (call : Call ε α) (s : St ε α) : (osCall call s).core = s.core := by
  cases call with
  | semPend e timeout => exact (osPend_core .sem e timeout s).1
  | mboxPend e timeout => exact (osPend_core .mbox e timeout s).1
  | qPend e timeout => exact (osPend_core .q e timeout s).1
  | post post =>
    simp only [osCall]
    split_ifs <;> exact (post.run_core s).1
  | suspend prio => exact (osTaskSuspend_core prio s).1
  | resume p => exact (osTaskResume_core p s).1
  | timeDly ticks => exact (osTimeDly_core ticks s).1
  | lock =>
    rw [osCall, osSchedLock]
    split_ifs <;> rfl
  | unlock =>
    rw [osCall, osSchedUnlock]
    dsimp only
    split_ifs <;> rfl

theorem goStep_clock (s : St ε α) : (goStep s).osTCBList = s.osTCBList ∧ (goStep s).isr = s.isr := by
  unfold goStep
  split
  · exact ⟨rfl, rfl⟩
  · exact osSched_clock s
  · unfold pendReturn
    dsimp only
    cases (s.tcb s.osPrioCur).osTCBStatPend <;> exact ⟨rfl, rfl⟩

variable {tasks : List (Fin 64)} {p : Fin 64}

theorem owed_cons (f : Frame) (isr : List Frame) :
    owed p (f :: isr) = owed p isr + (f.tick.contains p).toNat := by
  rw [owed, List.countP_cons, owed]
  by_cases here : p ∈ f.tick <;> simp [here]

theorem Clock.step (clock : Clock tasks s) (unique : tasks.Nodup)
    (listed : p ∈ tasks.takeWhile (fun q => q ≠ osTaskIdlePrio)) (label : Label ε α) :
    Clock tasks (step label s) ∧
      (ticks p label s).toNat + owed p (step label s).isr = owed p s.isr + (taken label s).toNat := by
  have kept : ∀ {s' : St ε α} {label : Label ε α}, ticks p label s = false → taken label s = false →
      s'.osTCBList = s.osTCBList ∧ s'.isr = s.isr → Clock tasks s' ∧
        (ticks p label s).toNat + owed p s'.isr = owed p s.isr + (taken label s).toNat := by
    intro s' label tick take same
    rw [tick, take, same.2]
    exact ⟨⟨same.1.trans clock.list, by rw [same.2]; exact clock.once⟩, by simp⟩
  cases label with
  | call call =>
    simp only [Ucos.step]
    split_ifs
    · split
      · have core := osCall_core call s
        exact kept rfl rfl ⟨congrArg Core.osTCBList core, congrArg Core.isr core⟩
      · exact kept rfl rfl ⟨rfl, rfl⟩
    · exact kept rfl rfl ⟨rfl, rfl⟩
  | go =>
    simp only [Ucos.step]
    split_ifs
    · exact kept rfl rfl (goStep_clock s)
    · exact kept rfl rfl ⟨rfl, rfl⟩
  | pendSV =>
    simp only [Ucos.step]
    split_ifs <;> exact kept rfl rfl ⟨rfl, rfl⟩
  | irq handler =>
    have entered := osIntEnter_clock s
    simp only [Ucos.step]
    split_ifs with room
    · cases handler with
      | counted =>
        refine ⟨⟨entered.1.trans clock.list, fun f member => ?_⟩, by simp [irqEnter, owed_cons, ticks, taken]⟩
        rcases List.mem_cons.mp member with rfl | earlier
        · exact List.nodup_nil
        · exact clock.once f earlier
      | plain =>
        refine ⟨⟨clock.list, fun f member => ?_⟩, by simp [irqEnter, owed_cons, ticks, taken]⟩
        rcases List.mem_cons.mp member with rfl | earlier
        · exact List.nodup_nil
        · exact clock.once f earlier
      | sysTick =>
        refine ⟨⟨entered.1.trans clock.list, fun f member => ?_⟩, ?_⟩
        · rcases List.mem_cons.mp member with rfl | earlier
          · rw [clock.list]
            exact unique.sublist (List.takeWhile_sublist _)
          · exact clock.once f earlier
        · show 0 + owed p (_ :: s.isr) = _
          rw [owed_cons, clock.list, List.contains_iff_mem.mpr listed, taken, decide_eq_true room, Nat.zero_add]
    · refine kept rfl ?_ ⟨rfl, rfl⟩
      cases handler with
      | sysTick => exact decide_eq_false room
      | _ => rfl
  | irqPost post =>
    simp only [Ucos.step]
    split
    · exact kept rfl rfl ⟨rfl, rfl⟩
    · rename_i f rest inside
      split_ifs
      · exact kept rfl rfl ⟨rfl, rfl⟩
      · have core := post.run_core s
        refine ⟨⟨(congrArg Core.osTCBList core.1).trans clock.list, fun g member => ?_⟩, ?_⟩
        · have once := clock.once
          rw [inside] at once
          rcases List.mem_cons.mp member with rfl | earlier
          · exact once f List.mem_cons_self
          · exact once g (List.mem_cons_of_mem f earlier)
        · rw [inside, owed_cons, owed_cons]
          exact Nat.zero_add _
  | irqGo =>
    simp only [Ucos.step, ticks]
    have once := clock.once
    cases inside : s.isr with
    | nil => exact ⟨⟨clock.list, by simp [inside]⟩, by rw [inside]; rfl⟩
    | cons f rest =>
      rw [inside] at once
      dsimp only
      unfold irqGoStep
      split_ifs with called
      · have sched := osSched_clock s
        refine ⟨⟨sched.1.trans clock.list, fun g member => ?_⟩, ?_⟩
        · rcases List.mem_cons.mp member with rfl | earlier
          · exact once f List.mem_cons_self
          · exact once g (List.mem_cons_of_mem f earlier)
        · rw [owed_cons, owed_cons, called]
          exact Nat.zero_add _
      · have uncalled : f.sched = false := Bool.not_eq_true _ ▸ called
        cases left : f.tick with
        | nil =>
          refine ⟨clock, ?_⟩
          simp [inside, taken]
        | cons q later =>
          have tail := once f List.mem_cons_self
          rw [left, List.nodup_cons] at tail
          have core := tickTcb_core q s
          refine ⟨⟨(congrArg Core.osTCBList core.1).trans clock.list, fun g member => ?_⟩, ?_⟩
          · rcases List.mem_cons.mp member with rfl | earlier
            · exact tail.2
            · exact once g (List.mem_cons_of_mem f earlier)
          · rw [owed_cons, owed_cons, uncalled, left]
            by_cases here : q = p
            · rw [here] at tail
              simp [here, tail.1, taken]
              omega
            · simp [here, Ne.symm here, taken]
  | irqEnd =>
    simp only [Ucos.step]
    split
    · exact kept rfl rfl ⟨rfl, rfl⟩
    · rename_i f rest inside
      have once := clock.once
      rw [inside] at once
      have later : ∀ g ∈ rest, g.tick.Nodup := fun g member => once g (List.mem_cons_of_mem f member)
      by_cases busy : (f.sched || !f.tick.isEmpty) = true
      · rw [if_pos busy]
        exact kept rfl rfl ⟨rfl, rfl⟩
      · rw [if_neg busy]
        have done : f.tick = [] := by
          rw [Bool.or_eq_true, not_or, Bool.not_eq_true', Bool.not_eq_false, List.isEmpty_iff] at busy
          exact busy.2
        have exit := osIntExit_clock { s with isr := rest }
        have none : owed p (f :: rest) = owed p rest := by
          rw [owed_cons, done]
          simp
        rw [inside, none]
        split_ifs
        · refine ⟨⟨exit.1.trans clock.list, by rw [exit.2]; exact later⟩, ?_⟩
          rw [exit.2]
          exact Nat.zero_add _
        · exact ⟨⟨clock.list, later⟩, Nat.zero_add _⟩

theorem ticked_run (clock : Clock tasks s) (unique : tasks.Nodup)
    (listed : p ∈ tasks.takeWhile (fun q => q ≠ osTaskIdlePrio)) (labels : List (Label ε α)) :
    ticked p labels s + owed p (run step labels s).isr = owed p s.isr + sysTicks labels s := by
  induction labels generalizing s with
  | nil => exact Nat.zero_add _
  | cons label labels ih =>
    obtain ⟨next, here⟩ := clock.step unique listed label
    have rest := ih next
    rw [ticked, sysTicks, run_cons]
    omega

end Interrupts

section Runs

variable {ε α : Type} [DecidableEq ε] {tasks : List (Fin 64)} (body : ε → Body α)
  (idle : osTaskIdlePrio ∈ tasks) {before labels : List (Label ε α)}
  (lively : Along step Lively (before ++ labels) (osStart tasks body)) (p : Fin 64)

include idle lively

/-- A task that sleeps, for a delay or in a wait, and is handed no message sleeps until its time
is out, and the tick after which nothing is left of it makes the task ready unless it is
suspended, and ends the wait. -/
theorem sleeps_exactly {s s' : St ε α} (reached : run step before (osStart tasks body) = s)
    (later : run step labels s = s') (unhanded : handouts p s' = handouts p s) :
    (ticked p labels s < (s.tcb p).osTCBDly →
      (s'.tcb p).osTCBDly = (s.tcb p).osTCBDly - ticked p labels s ∧ ¬ Runs s' p) ∧
    (ticked p labels s + 1 = (s.tcb p).osTCBDly → ticks p .irqGo s' = true →
      ((step .irqGo s').tcb p).osTCBDly = 0 ∧
      (Runs (step .irqGo s') p ∨ ((step .irqGo s').tcb p).osTCBStat.suspend = true) ∧
      ((s'.tcb p).listed = true → ((step .irqGo s').tcb p).osTCBStatPend = .pendTo)) := by
  obtain ⟨first, second⟩ := along_append.mp lively
  have inv := inv_of_run body idle first
  rw [reached] at inv second
  have time : ticked p labels s < (s.tcb p).osTCBDly →
      (s'.tcb p).osTCBDly + ticked p labels s = (s.tcb p).osTCBDly := by
    intro few
    have slept := sleep_run inv second few
    rw [later] at slept
    exact slept.resolve_left (by omega)
  refine ⟨fun few => ?_, fun last tick => ?_⟩
  · have left := time few
    exact ⟨by omega, fun runs => by have zero := runs.2.2; omega⟩
  · have left := time (by omega)
    have keep : ∀ (label : Label ε α) (s : St ε α), Lively label s → Inv s → Inv (step label s) :=
      fun _ _ lively inv => inv.step lively
    have inv' := run_invariant keep second inv
    rw [later] at inv'
    rcases sleep_cases inv' p .irqGo with ⟨-, made, tcb⟩ | ⟨none, -⟩
    · exact last_tick inv'.lists (by omega) made tcb
    · rw [none] at tick
      cases tick

omit idle lively in
/-- The time of a task is counted in `SysTick` interrupts. -/
theorem ticks_are_interrupts {s s' : St ε α} (unique : tasks.Nodup)
    (listed : p ∈ tasks.takeWhile (fun q => q ≠ osTaskIdlePrio))
    (reached : run step before (osStart tasks body) = s) (later : run step labels s = s')
    (quiet : s.isr = []) (done : s'.isr = []) : ticked p labels s = sysTicks labels s := by
  have start : Clock tasks (osStart tasks body) := ⟨rfl, nofun⟩
  have keep : ∀ (label : Label ε α) (s : St ε α), True → Clock tasks s → Clock tasks (step label s) :=
    fun label _ _ clock => (clock.step unique listed label).1
  have clock := run_invariant keep (along_true step before _) start
  rw [reached] at clock
  have counted := ticked_run clock unique listed labels
  rw [later, quiet, done] at counted
  exact counted.trans (Nat.zero_add _)

end Runs

section Delay

/-- A task delays itself by two ticks, and the second `SysTick` has come. -/
def delay : List (Label Unit Nat) := [.call (.timeDly 2), .go, .pendSV]

def delayed : List (Label Unit Nat) := [.irq .sysTick, .irqGo, .irqEnd, .irq .sysTick]

theorem delay_lively : Along step Lively (delay ++ delayed) (osStart [5, 63] emptyBox) := by decide

theorem sleeps_exactly_delay :
    Runs (step .irqGo (run step delayed (run step delay (osStart [5, 63] emptyBox)))) 5 ∨
      ((step .irqGo (run step delayed (run step delay (osStart [5, 63] emptyBox)))).tcb 5).osTCBStat.suspend =
        true :=
  ((sleeps_exactly emptyBox (by decide) delay_lively 5 rfl rfl rfl).2 rfl rfl).2.1

theorem ticks_are_interrupts_delay :
    ticked 5 [.irq .sysTick, .irqGo, .irqEnd] (run step delay (osStart [5, 63] emptyBox)) =
      sysTicks [.irq .sysTick, .irqGo, .irqEnd] (run step delay (osStart [5, 63] emptyBox)) :=
  ticks_are_interrupts emptyBox 5 (by decide) (by decide) rfl rfl rfl rfl

end Delay

end BoxFirmware.Ucos
