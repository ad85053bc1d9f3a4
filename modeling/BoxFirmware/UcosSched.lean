import BoxFirmware.UcosLists
import Mathlib.Data.List.Count

/-! Which task runs. Whenever a task runs its own code with the scheduler unlocked, and
no switch is under way, it is the ready task of the highest priority, however tasks and
interrupts alternate. -/
namespace BoxFirmware.Ucos
open BitTable GuardedRun

section Switching

variable {ε α : Type}

def due (isr : List Frame) : Bool := isr.any (fun f => f.counted || f.sched)

structure Switches (s : St ε α) : Prop where
  nesting : s.osIntNesting = s.isr.countP (·.counted)
  depth : s.isr.length ≤ 16
  ticks : ∀ f ∈ s.isr, f.tick ≠ [] → f.counted = true
  sv : s.pendSV = true → s.osLockNesting = 0
  locked : 0 < s.osLockNesting → (s.pc s.osPrioCur).pends = none
  next : s.osLockNesting = 0 → due s.isr = false → s.pendSV = true → s.osPrioHighRdy = osSchedNew s
  settled : s.osLockNesting = 0 → due s.isr = false → s.pendSV = false →
    (s.pc s.osPrioCur).scheds = false → s.osPrioCur = osSchedNew s

theorem due_of_nesting {isr : List Frame} (some : isr.countP (·.counted) ≠ 0) : due isr = true := by
  rw [Ne, List.countP_eq_zero] at some
  push Not at some
  obtain ⟨f, member, counted⟩ := some
  exact List.any_eq_true.mpr ⟨f, member, by rw [counted, Bool.true_or]⟩

variable {s : St ε α}

theorem Switches.call {s' : St ε α} (w : Switches s) (quiet : s.isr = []) (calm : s.pendSV = false)
    (behind : (s.pc s.osPrioCur).scheds = false)
    (isr : s'.isr = s.isr) (nesting : s'.osIntNesting = s.osIntNesting) (sv : s'.pendSV = s.pendSV)
    (cur : s'.osPrioCur = s.osPrioCur) (free : 0 < s'.osLockNesting → (s'.pc s.osPrioCur).pends = none)
    (next : (s'.pc s.osPrioCur).scheds = true ∨ s'.osLockNesting ≠ 0 ∨
      s'.osLockNesting = s.osLockNesting ∧
        (s.osPrioCur = osSchedNew s → s.osPrioCur = osSchedNew s')) : Switches s' := by
  refine ⟨by rw [nesting, isr]; exact w.nesting, by rw [isr]; exact w.depth,
    by rw [isr]; exact w.ticks, ?_, by rw [cur]; exact free, ?_, ?_⟩
  · rw [sv, calm]
    exact nofun
  · rw [sv, calm]
    exact fun _ _ => nofun
  · intro unlocked none still own
    rw [cur] at own ⊢
    rcases next with sched | locked | ⟨same, table⟩
    · rw [sched] at own
      cases own
    · exact absurd unlocked locked
    · exact table (w.settled (same ▸ unlocked) (by rw [quiet]; rfl) calm behind)

/-- Behind a call of `OS_Sched` the running task is the first or a switch is pending, unless
a handler or the lock holds it back. -/
theorem Switches.sched (nesting : s.osIntNesting = s.isr.countP (·.counted))
    (depth : s.isr.length ≤ 16) (ticks : ∀ f ∈ s.isr, f.tick ≠ [] → f.counted = true)
    (sv : s.pendSV = true → s.osLockNesting = 0)
    (locked : 0 < s.osLockNesting → (s.pc s.osPrioCur).pends = none) : Switches (osSched s) := by
  unfold osSched
  split_ifs with outermost unlocked
  · refine ⟨nesting, depth, ticks, fun _ => unlocked, locked, fun _ _ _ => rfl, fun _ _ still _ => ?_⟩
    have same : (s.pendSV || decide (osSchedNew s ≠ s.osPrioCur)) = false := still
    rw [Bool.or_eq_false_iff, decide_eq_false_iff_not, not_not] at same
    exact same.2.symm
  · exact ⟨nesting, depth, ticks, sv, locked, (absurd · unlocked), (absurd · unlocked)⟩
  · rw [nesting] at outermost
    have held : due s.isr = true := due_of_nesting outermost
    refine ⟨nesting, depth, ticks, sv, locked, ?_, ?_⟩ <;>
    · intro _ none
      rw [held] at none
      cases none

end Switching

section Views

variable {ε α : Type} {s : St ε α}

structure Core where
  made : Fin 64 → Bool
  osPrioCur : Fin 64
  osPrioHighRdy : Fin 64
  osIntNesting : Nat
  pendSV : Bool
  isr : List Frame
  osTCBList : List (Fin 64)

def St.core (s : St ε α) : Core :=
  ⟨s.made, s.osPrioCur, s.osPrioHighRdy, s.osIntNesting, s.pendSV, s.isr, s.osTCBList⟩

theorem osSchedNew_of_rdy {s s' : St ε α} (rdy : s'.osRdy = s.osRdy) : osSchedNew s' = osSchedNew s := by
  rw [osSchedNew, rdy]
  rfl

theorem tickTcb_core (p : Fin 64) (s : St ε α) :
    (tickTcb p s).core = s.core ∧ (tickTcb p s).osLockNesting = s.osLockNesting ∧
      (tickTcb p s).pc = s.pc := by
  unfold tickTcb
  dsimp only
  split_ifs <;> exact ⟨rfl, rfl, rfl⟩

theorem osTaskSuspend_core (prio : Option (Fin 64)) (s : St ε α) :
    (osTaskSuspend prio s).core = s.core ∧
      (osTaskSuspend prio s).osLockNesting = s.osLockNesting ∧
      ((osTaskSuspend prio s).pc s.osPrioCur = .sched .ret ∨ (osTaskSuspend prio s).pc = s.pc ∧
        ((osTaskSuspend prio s).osRdy = s.osRdy ∨
          ∃ p, p ≠ s.osPrioCur ∧ (osTaskSuspend prio s).osRdy = s.osRdy.drop p)) := by
  unfold osTaskSuspend
  dsimp only
  split_ifs with none own
  · exact ⟨rfl, rfl, .inr ⟨rfl, .inl rfl⟩⟩
  · refine ⟨rfl, rfl, .inl ?_⟩
    rw [own]
    exact Function.update_self _ _ _
  · exact ⟨rfl, rfl, .inr ⟨rfl, .inr ⟨_, own, rfl⟩⟩⟩

theorem osTaskResume_core (p : Fin 64) (s : St ε α) :
    (osTaskResume p s).core = s.core ∧ (osTaskResume p s).osLockNesting = s.osLockNesting ∧
      ((osTaskResume p s).pc s.osPrioCur = .sched .ret ∨
        (osTaskResume p s).pc = s.pc ∧ (osTaskResume p s).osRdy = s.osRdy) := by
  unfold osTaskResume
  dsimp only
  split_ifs
  · exact ⟨rfl, rfl, .inr ⟨rfl, rfl⟩⟩
  · exact ⟨rfl, rfl, .inl (Function.update_self _ _ _)⟩
  · exact ⟨rfl, rfl, .inr ⟨rfl, rfl⟩⟩
  · exact ⟨rfl, rfl, .inr ⟨rfl, rfl⟩⟩
  · exact ⟨rfl, rfl, .inr ⟨rfl, rfl⟩⟩

theorem osTimeDly_core (ticks : Nat) (s : St ε α) :
    (osTimeDly ticks s).core = s.core ∧ (osTimeDly ticks s).osLockNesting = s.osLockNesting ∧
      ((osTimeDly ticks s).pc s.osPrioCur = .sched .ret ∨ osTimeDly ticks s = s) := by
  unfold osTimeDly
  dsimp only
  split_ifs
  · exact ⟨rfl, rfl, .inr rfl⟩
  · exact ⟨rfl, rfl, .inr rfl⟩
  · exact ⟨rfl, rfl, .inl (Function.update_self _ _ _)⟩
  · exact ⟨rfl, rfl, .inr rfl⟩

variable [DecidableEq ε]

theorem osPost_core (kind : Kind) (e : ε) (pmsg : Option α) (s : St ε α) :
    (osPost kind e pmsg s).core = s.core ∧ (osPost kind e pmsg s).osLockNesting = s.osLockNesting ∧
      (osPost kind e pmsg s).pc = s.pc ∧
      (wakes kind e s = false → (osPost kind e pmsg s).osRdy = s.osRdy) := by
  unfold osPost wakes
  split_ifs with other some
  · exact ⟨rfl, rfl, rfl, fun _ => rfl⟩
  · refine ⟨rfl, rfl, rfl, fun asleep => ?_⟩
    rw [decide_eq_true (not_not.mp other), decide_eq_true some] at asleep
    cases asleep
  · split <;> exact ⟨rfl, rfl, rfl, fun _ => rfl⟩

theorem Post.run_core (post : Post ε α) (s : St ε α) :
    (post.run s).core = s.core ∧ (post.run s).osLockNesting = s.osLockNesting ∧
      (post.run s).pc = s.pc ∧ (post.wakes s = false → (post.run s).osRdy = s.osRdy) := by
  cases post <;> exact osPost_core _ _ _ s

theorem osPend_core (kind : Kind) (e : ε) (timeout : Nat) (s : St ε α) :
    (osPend kind e timeout s).core = s.core ∧
      (osPend kind e timeout s).osLockNesting = s.osLockNesting ∧
      (s.osLockNesting = 0 ∧ (osPend kind e timeout s).pc s.osPrioCur = .sched (.pended kind e) ∨
        (osPend kind e timeout s).pc = s.pc ∧ (osPend kind e timeout s).osRdy = s.osRdy) := by
  unfold osPend
  dsimp only
  split_ifs with other nested locked
  · exact ⟨rfl, rfl, .inr ⟨rfl, rfl⟩⟩
  · exact ⟨rfl, rfl, .inr ⟨rfl, rfl⟩⟩
  · exact ⟨rfl, rfl, .inr ⟨rfl, rfl⟩⟩
  · split
    · exact ⟨rfl, rfl, .inr ⟨rfl, rfl⟩⟩
    · exact ⟨rfl, rfl, .inl ⟨Nat.eq_zero_of_not_pos locked, Function.update_self _ _ _⟩⟩

end Views

section Invariant

variable {ε α : Type} {s : St ε α}

structure Inv (s : St ε α) : Prop where
  lists : Lists s
  switches : Switches s
  made : s.made s.osPrioCur = true

def Call.lively (cur : Fin 64) : Call ε α → Prop
  | .semPend _ _ | .mboxPend _ _ | .qPend _ _ | .timeDly _ => cur ≠ osTaskIdlePrio
  | .suspend prio => prio.getD cur ≠ osTaskIdlePrio
  | _ => True

def Lively : Label ε α → St ε α → Prop
  | .call call, s => call.lively s.osPrioCur
  | _, _ => True

instance decidableCallLively (cur : Fin 64) : (call : Call ε α) → Decidable (call.lively cur)
  | .semPend _ _ | .mboxPend _ _ | .qPend _ _ | .timeDly _ =>
    inferInstanceAs (Decidable (cur ≠ osTaskIdlePrio))
  | .suspend prio => inferInstanceAs (Decidable (prio.getD cur ≠ osTaskIdlePrio))
  | .post _ | .resume _ | .lock | .unlock => inferInstanceAs (Decidable True)

instance decidableLively : (label : Label ε α) → (s : St ε α) → Decidable (Lively label s)
  | .call call, s => decidableCallLively s.osPrioCur call
  | .go, _ | .pendSV, _ | .irq _, _ | .irqPost _, _ | .irqGo, _ | .irqEnd, _ =>
    inferInstanceAs (Decidable True)

theorem Inv.runs (inv : Inv s) (quiet : s.isr = []) (calm : s.pendSV = false)
    (still : (s.pc s.osPrioCur).scheds = false) (unlocked : s.osLockNesting = 0) :
    IsLeast {p | Runs s p} s.osPrioCur := by
  rw [inv.switches.settled unlocked (by rw [quiet]; rfl) calm still]
  exact inv.lists.schedNew

theorem Inv.nest (inv : Inv s) (quiet : s.isr = []) : s.osIntNesting = 0 := by
  rw [inv.switches.nesting, quiet]
  rfl

theorem Lists.sched (l : Lists s) : Lists (osSched s) := by
  unfold osSched
  split_ifs
  · exact l.same rfl rfl rfl (fun _ => rfl) (fun _ code _ => code) rfl
  · exact l
  · exact l

theorem osSched_goTo (p : Fin 64) (pc : Pc ε) (s : St ε α) :
    osSched (goTo p pc s) = goTo p pc (osSched s) := by
  show (if s.osIntNesting = 0 then if s.osLockNesting = 0 then _ else _ else _) =
    goTo p pc (if s.osIntNesting = 0 then if s.osLockNesting = 0 then _ else _ else _)
  split_ifs <;> rfl

theorem osSched_keeps (s : St ε α) :
    (osSched s).made = s.made ∧ (osSched s).osPrioCur = s.osPrioCur ∧ (osSched s).isr = s.isr ∧
      (osSched s).osLockNesting = s.osLockNesting ∧ (osSched s).pc = s.pc := by
  unfold osSched
  split_ifs <;> exact ⟨rfl, rfl, rfl, rfl, rfl⟩

theorem Inv.call {s' : St ε α} (inv : Inv s) (quiet : s.isr = []) (calm : s.pendSV = false)
    (behind : (s.pc s.osPrioCur).scheds = false) (lists : Lists s') (core : s'.core = s.core)
    (free : 0 < s'.osLockNesting → (s'.pc s.osPrioCur).pends = none)
    (next : (s'.pc s.osPrioCur).scheds = true ∨ s'.osLockNesting ≠ 0 ∨
      s'.osLockNesting = s.osLockNesting ∧
        (s.osPrioCur = osSchedNew s → s.osPrioCur = osSchedNew s')) : Inv s' := by
  simp only [St.core, Core.mk.injEq] at core
  obtain ⟨made, cur, -, nesting, sv, isr, -⟩ := core
  exact ⟨lists, inv.switches.call quiet calm behind isr nesting sv cur free next,
    by rw [made, cur]; exact inv.made⟩

theorem Inv.pended (inv : Inv s) {kind : Kind} {e : ε} (quiet : s.isr = []) (calm : s.pendSV = false)
    (here : s.pc s.osPrioCur = .pended kind e) : Runs s s.osPrioCur := by
  have unlocked : s.osLockNesting = 0 := by
    by_contra locked
    have free := inv.switches.locked (Nat.pos_of_ne_zero locked)
    rw [here] at free
    cases free
  exact (inv.runs quiet calm (by rw [here]; rfl) unlocked).1

theorem Inv.go [DecidableEq ε] (inv : Inv s) (quiet : s.isr = []) (calm : s.pendSV = false) :
    Inv (goStep s) := by
  unfold goStep
  split
  · exact inv
  · rename_i next here
    have pends : next.pc.pends = (s.pc s.osPrioCur).pends := by rw [here, After.pc_pends]
    rw [← osSched_goTo]
    obtain ⟨made, cur, -⟩ := osSched_keeps (goTo s.osPrioCur next.pc s)
    refine ⟨(inv.lists.goTo _ pends inv.made).sched, ?_, by rw [made, cur]; exact inv.made⟩
    refine Switches.sched inv.switches.nesting inv.switches.depth inv.switches.ticks inv.switches.sv
      (fun locked => ?_)
    have free := inv.switches.locked locked
    simpa [goTo, pends] using free
  · rename_i kind e here
    have still : (s.pc s.osPrioCur).scheds = false := by rw [here]; rfl
    have runs := inv.pended quiet calm here
    have core : (pendReturn kind e s).core = s.core ∧
        (pendReturn kind e s).osLockNesting = s.osLockNesting ∧
        (pendReturn kind e s).pc s.osPrioCur = .code ∧ (pendReturn kind e s).osRdy = s.osRdy := by
      unfold pendReturn
      dsimp only
      cases (s.tcb s.osPrioCur).osTCBStatPend <;>
        exact ⟨rfl, rfl, Function.update_self _ _ _, rfl⟩
    obtain ⟨same, lock, back, rdy⟩ := core
    refine inv.call quiet calm still (inv.lists.pendReturn here runs) same ?_ (.inr (.inr ⟨lock, ?_⟩))
    · rw [back]
      exact fun _ => rfl
    · rw [osSchedNew_of_rdy rdy]
      exact id

theorem osTaskSuspend_settled (l : Lists s) {p : Fin 64} (other : p ≠ s.osPrioCur)
    (first : s.osPrioCur = osSchedNew s) {s' : St ε α} (rdy : s'.osRdy = s.osRdy.drop p) :
    s.osPrioCur = osSchedNew s' := by
  have least := Table.lowest_isLeast osUnMapTbl_lowest l.nonempty
  have same : osSchedNew s' = s.osPrioCur := by
    rw [osSchedNew, rdy]
    refine Table.lowest_eq osUnMapTbl_lowest ⟨?_, fun q inside => ?_⟩
    · have runs : s.osRdy.has s.osPrioCur = true := by
        rw [first]
        exact least.1
      simp [runs, Ne.symm other]
    · rw [Set.mem_ofPred_eq, Table.has_drop, Bool.and_eq_true] at inside
      rw [first]
      exact least.2 inside.2
  exact same.symm

theorem Inv.task [DecidableEq ε] (inv : Inv s) {call : Call ε α} (lively : call.lively s.osPrioCur)
    (quiet : s.isr = []) (calm : s.pendSV = false) (code : s.pc s.osPrioCur = .code) :
    Inv (osCall call s) := by
  have behind : (s.pc s.osPrioCur).scheds = false := by rw [code]; rfl
  have least := inv.runs quiet calm behind
  have nest := inv.nest quiet
  have table : ∀ {s' : St ε α}, s'.osRdy = s.osRdy → s.osPrioCur = osSchedNew s →
      s.osPrioCur = osSchedNew s' := by
    intro s' rdy first
    rw [osSchedNew_of_rdy rdy]
    exact first
  have pend : ∀ kind e timeout, s.osPrioCur ≠ osTaskIdlePrio → Inv (osPend kind e timeout s) := by
    intro kind e timeout busy
    have lists := inv.lists.pend kind e timeout code (fun unlocked => (least unlocked).1) busy
    obtain ⟨core, lock, ⟨unlocked, waits⟩ | ⟨pc, rdy⟩⟩ := osPend_core kind e timeout s
    · refine inv.call quiet calm behind lists core ?_ (.inl (by rw [waits]; rfl))
      rw [lock, unlocked]
      exact nofun
    · refine inv.call quiet calm behind lists core ?_ (.inr (.inr ⟨lock, table rdy⟩))
      rw [pc, code]
      exact fun _ => rfl
  cases call with
  | semPend e timeout => exact pend .sem e timeout lively
  | mboxPend e timeout => exact pend .mbox e timeout lively
  | qPend e timeout => exact pend .q e timeout lively
  | post post =>
    have lists := inv.lists.postRun post
    obtain ⟨core, lock, pc, rdy⟩ := post.run_core s
    simp only [osCall]
    split_ifs with wakes
    · have own : (goTo s.osPrioCur (.sched .ret) (post.run s)).pc s.osPrioCur = .sched .ret :=
        Function.update_self _ _ _
      refine inv.call quiet calm behind (lists.goTo _ ?_ ?_) core ?_ (.inl (by rw [own]; rfl))
      · rw [pc, code]
        rfl
      · rw [show (post.run s).made = s.made from congrArg Core.made core]
        exact inv.made
      · rw [own]
        exact fun _ => rfl
    · refine inv.call quiet calm behind lists core ?_
        (.inr (.inr ⟨lock, table (rdy (Bool.not_eq_true _ ▸ wakes))⟩))
      rw [pc, code]
      exact fun _ => rfl
  | suspend prio =>
    have lists := inv.lists.suspend code lively
    obtain ⟨core, lock, own | ⟨pc, rdy | ⟨p, other, rdy⟩⟩⟩ := osTaskSuspend_core prio s
    · refine inv.call quiet calm behind lists core ?_ (.inl (by rw [osCall, own]; rfl))
      rw [osCall, own]
      exact fun _ => rfl
    · refine inv.call quiet calm behind lists core ?_ (.inr (.inr ⟨lock, table rdy⟩))
      rw [osCall, pc, code]
      exact fun _ => rfl
    · refine inv.call quiet calm behind lists core ?_
        (.inr (.inr ⟨lock, fun first => osTaskSuspend_settled inv.lists other first rdy⟩))
      rw [osCall, pc, code]
      exact fun _ => rfl
  | resume p =>
    have lists := inv.lists.resume (p := p) code inv.made
    obtain ⟨core, lock, own | ⟨pc, rdy⟩⟩ := osTaskResume_core p s
    · refine inv.call quiet calm behind lists core ?_ (.inl (by rw [osCall, own]; rfl))
      rw [osCall, own]
      exact fun _ => rfl
    · refine inv.call quiet calm behind lists core ?_ (.inr (.inr ⟨lock, table rdy⟩))
      rw [osCall, pc, code]
      exact fun _ => rfl
  | timeDly ticks =>
    have lists := inv.lists.timeDly ticks code (fun unlocked => (least unlocked).1) lively
    obtain ⟨core, lock, own | same⟩ := osTimeDly_core ticks s
    · refine inv.call quiet calm behind lists core ?_ (.inl (by rw [osCall, own]; rfl))
      rw [osCall, own]
      exact fun _ => rfl
    · rw [osCall, same]
      exact inv
  | lock =>
    rw [osCall, osSchedLock, if_pos nest]
    split_ifs
    · refine inv.call quiet calm behind
        (inv.lists.same rfl rfl rfl (fun _ => rfl) (fun _ code _ => code) rfl) rfl ?_
        (.inr (.inl (Nat.succ_ne_zero _)))
      intro _
      show (s.pc s.osPrioCur).pends = none
      rw [code]
      rfl
    · exact inv
  | unlock =>
    have same : Lists { s with osLockNesting := s.osLockNesting - 1 } :=
      inv.lists.same rfl rfl rfl (fun _ => rfl) (fun _ code _ => code) rfl
    rw [osCall, osSchedUnlock]
    dsimp only
    split_ifs with locked last
    · refine inv.call quiet calm behind (same.goTo _ ?_ inv.made) rfl ?_ (.inl ?_)
      · show Pc.pends (.sched .ret) = (s.pc s.osPrioCur).pends
        rw [code]
        rfl
      · simp [goTo, Pc.pends]
      · simp [goTo, Pc.scheds]
    · refine inv.call quiet calm behind same rfl ?_ (.inr (.inl last))
      intro _
      show (s.pc s.osPrioCur).pends = none
      rw [code]
      rfl
    · exact inv

theorem due_cons (f : Frame) (rest : List Frame) :
    due (f :: rest) = (f.counted || f.sched || due rest) := rfl

theorem osIntEnter_of_depth (inv : Inv s) (room : s.isr.length < 16) :
    osIntEnter s = { s with osIntNesting := s.osIntNesting + 1 } := by
  have few : s.osIntNesting < 255 := by
    have count : s.isr.countP (·.counted) ≤ s.isr.length := List.countP_le_length
    have nesting := inv.switches.nesting
    omega
  exact if_pos few

theorem Inv.enter (inv : Inv s) (room : s.isr.length < 16) (tick : List (Fin 64)) :
    Inv { osIntEnter s with isr := ⟨true, tick, false⟩ :: s.isr } := by
  rw [osIntEnter_of_depth inv room]
  refine ⟨inv.lists.same rfl rfl rfl (fun _ => rfl) (fun _ code _ => code) rfl, ?_, inv.made⟩
  refine ⟨?_, room, fun f member some => ?_, inv.switches.sv, inv.switches.locked, ?_, ?_⟩
  · simp [inv.switches.nesting]
  · rcases List.mem_cons.mp member with rfl | earlier
    · rfl
    · exact inv.switches.ticks f earlier some
  · exact fun _ none => absurd none (by simp [due_cons])
  · exact fun _ none => absurd none (by simp [due_cons])

theorem Inv.irq (inv : Inv s) (handler : Handler) (room : s.isr.length < 16) :
    Inv (irqEnter handler s) := by
  cases handler with
  | counted => exact inv.enter room []
  | sysTick => exact inv.enter room _
  | plain =>
    have same : due (⟨false, [], false⟩ :: s.isr) = due s.isr := rfl
    refine ⟨inv.lists.same rfl rfl rfl (fun _ => rfl) (fun _ code _ => code) rfl, ?_, inv.made⟩
    refine ⟨?_, room, fun f member some => ?_, inv.switches.sv, inv.switches.locked, ?_, ?_⟩
    · simp [irqEnter, inv.switches.nesting]
    · rcases List.mem_cons.mp member with rfl | earlier
      · exact absurd rfl some
      · exact inv.switches.ticks f earlier some
    · exact fun unlocked none => inv.switches.next unlocked (same ▸ none)
    · exact fun unlocked none => inv.switches.settled unlocked (same ▸ none)

variable {f : Frame} {rest : List Frame}

theorem Inv.irqPost [DecidableEq ε] (inv : Inv s) (inside : s.isr = f :: rest) (free : f.sched = false)
    (post : Post ε α) :
    Inv { post.run s with isr := { f with sched := post.wakes s } :: rest } := by
  obtain ⟨core, lock, pc, rdy⟩ := post.run_core s
  have lists := inv.lists.postRun post
  generalize post.run s = s' at core lock pc rdy lists
  simp only [St.core, Core.mk.injEq] at core
  obtain ⟨made, cur, high, nesting, sv, -, -⟩ := core
  have w := inv.switches
  have before : due s.isr = (f.counted || false || due rest) := by rw [inside, due_cons, free]
  have quiet : due ({ f with sched := post.wakes s } :: rest) = false →
      due s.isr = false ∧ s'.osRdy = s.osRdy := by
    intro none
    simp only [due_cons, Bool.or_eq_false_iff] at none
    obtain ⟨⟨counted, asleep⟩, others⟩ := none
    exact ⟨by rw [before, counted, others]; rfl, rdy asleep⟩
  refine ⟨lists.same rfl rfl rfl (fun _ => rfl) (fun _ code _ => code) rfl, ?_, ?_⟩
  · refine ⟨?_, ?_, ?_, ?_, ?_, ?_, ?_⟩
    · show s'.osIntNesting = ({ f with sched := post.wakes s } :: rest).countP (·.counted)
      rw [nesting, w.nesting, inside]
      rfl
    · show ({ f with sched := post.wakes s } :: rest).length ≤ 16
      have depth := w.depth
      rw [inside] at depth
      exact depth
    · intro g member some
      have ticks := w.ticks
      rw [inside] at ticks
      rcases List.mem_cons.mp member with rfl | earlier
      · exact ticks f List.mem_cons_self some
      · exact ticks g (List.mem_cons_of_mem f earlier) some
    · show s'.pendSV = true → s'.osLockNesting = 0
      rw [sv, lock]
      exact w.sv
    · show 0 < s'.osLockNesting → (s'.pc s'.osPrioCur).pends = none
      rw [lock, pc, cur]
      exact w.locked
    · intro unlocked none pending
      obtain ⟨was, same⟩ := quiet none
      show s'.osPrioHighRdy = osSchedNew s'
      rw [high, osSchedNew_of_rdy same]
      exact w.next (lock ▸ unlocked) was (sv ▸ pending)
    · intro unlocked none calm still
      obtain ⟨was, same⟩ := quiet none
      show s'.osPrioCur = osSchedNew s'
      rw [cur, osSchedNew_of_rdy same]
      refine w.settled (lock ▸ unlocked) was (sv ▸ calm) ?_
      rw [← pc, ← cur]
      exact still
  · show s'.made s'.osPrioCur = true
    rw [made, cur]
    exact inv.made

theorem Inv.sched (lists : Lists s) (made : s.made s.osPrioCur = true)
    (nesting : s.osIntNesting = s.isr.countP (·.counted)) (depth : s.isr.length ≤ 16)
    (ticks : ∀ f ∈ s.isr, f.tick ≠ [] → f.counted = true)
    (sv : s.pendSV = true → s.osLockNesting = 0)
    (locked : 0 < s.osLockNesting → (s.pc s.osPrioCur).pends = none) : Inv (osSched s) := by
  obtain ⟨mades, cur, -⟩ := osSched_keeps s
  exact ⟨lists.sched, Switches.sched nesting depth ticks sv locked, by rw [mades, cur]; exact made⟩

theorem osSched_isr (s : St ε α) (isr : List Frame) :
    { osSched s with isr := isr } = osSched { s with isr := isr } := by
  show ({ (if s.osIntNesting = 0 then if s.osLockNesting = 0 then reschedule s else s else s) with
      isr := isr } : St ε α) =
    if s.osIntNesting = 0 then
      if s.osLockNesting = 0 then reschedule { s with isr := isr } else { s with isr := isr }
    else { s with isr := isr }
  split_ifs <;> rfl

theorem Inv.irqGo (inv : Inv s) (inside : s.isr = f :: rest) : Inv (irqGoStep f rest s) := by
  have w := inv.switches
  have nesting := w.nesting
  have depth := w.depth
  have ticks := w.ticks
  rw [inside] at nesting depth ticks
  unfold irqGoStep
  split_ifs with called
  · rw [osSched_isr]
    refine Inv.sched (inv.lists.same rfl rfl rfl (fun _ => rfl) (fun _ code _ => code) rfl) inv.made
      nesting depth (fun g member some => ?_) w.sv w.locked
    rcases List.mem_cons.mp member with rfl | earlier
    · exact ticks f List.mem_cons_self some
    · exact ticks g (List.mem_cons_of_mem f earlier) some
  · cases left : f.tick with
    | nil => exact inv
    | cons p later =>
      have counted : f.counted = true := ticks f List.mem_cons_self (by rw [left]; nofun)
      obtain ⟨core, lock, pc⟩ := tickTcb_core p s
      have lists := inv.lists.tick p
      dsimp only
      generalize tickTcb p s = s' at core lock pc lists
      simp only [St.core, Core.mk.injEq] at core
      obtain ⟨made, cur, -, same, sv, -, -⟩ := core
      refine ⟨lists.same rfl rfl rfl (fun _ => rfl) (fun _ code _ => code) rfl, ?_, ?_⟩
      · refine ⟨same.trans nesting, depth, fun g member some => ?_, ?_, ?_, ?_, ?_⟩
        · rcases List.mem_cons.mp member with rfl | earlier
          · exact counted
          · exact ticks g (List.mem_cons_of_mem f earlier) some
        · show s'.pendSV = true → s'.osLockNesting = 0
          rw [sv, lock]
          exact w.sv
        · show 0 < s'.osLockNesting → (s'.pc s'.osPrioCur).pends = none
          rw [lock, pc, cur]
          exact w.locked
        · exact fun _ none => absurd none (by simp [due_cons, counted])
        · exact fun _ none => absurd none (by simp [due_cons, counted])
      · show s'.made s'.osPrioCur = true
        rw [made, cur]
        exact inv.made

theorem Inv.irqEnd (inv : Inv s) (inside : s.isr = f :: rest) (free : f.sched = false) :
    Inv (if f.counted then osIntExit { s with isr := rest } else { s with isr := rest }) := by
  have w := inv.switches
  have nesting := w.nesting
  have depth := w.depth
  have ticks : ∀ g ∈ rest, g.tick ≠ [] → g.counted = true := fun g member =>
    w.ticks g (by rw [inside]; exact List.mem_cons_of_mem f member)
  rw [inside] at nesting depth
  split_ifs with counted
  · have nested : s.osIntNesting = rest.countP (·.counted) + 1 := by
      rw [nesting, List.countP_cons_of_pos counted]
    rw [osIntExit, if_pos (show s.osIntNesting > 0 by rw [nested]; exact Nat.succ_pos _)]
    refine Inv.sched (inv.lists.same rfl rfl rfl (fun _ => rfl) (fun _ code _ => code) rfl) inv.made
      ?_ (by simpa using Nat.le_of_succ_le depth) ticks w.sv w.locked
    show s.osIntNesting - 1 = rest.countP (·.counted)
    rw [nested, Nat.add_sub_cancel]
  · rw [List.countP_cons_of_neg counted] at nesting
    have uncounted : f.counted = false := Bool.not_eq_true _ ▸ counted
    have same : due s.isr = due rest := by
      rw [inside, due_cons, free, uncounted]
      rfl
    exact ⟨inv.lists.same rfl rfl rfl (fun _ => rfl) (fun _ code _ => code) rfl,
      ⟨nesting, Nat.le_of_succ_le depth, ticks, w.sv, w.locked,
        fun unlocked none => w.next unlocked (same ▸ none),
        fun unlocked none => w.settled unlocked (same ▸ none)⟩, inv.made⟩

theorem Inv.switch (inv : Inv s) (quiet : s.isr = []) (pending : s.pendSV = true) :
    Inv (pendSVHandler s) := by
  have w := inv.switches
  have unlocked := w.sv pending
  have none : due s.isr = false := by rw [quiet]; rfl
  have next := w.next unlocked none pending
  have first := inv.lists.schedNew
  refine ⟨inv.lists.same rfl rfl rfl (fun _ => rfl) (fun _ code _ => code) rfl,
    ⟨w.nesting, w.depth, w.ticks, nofun, fun locked => ?_, fun _ _ => nofun, fun _ _ _ _ => next⟩, ?_⟩
  · exact absurd unlocked (Nat.ne_of_gt locked)
  · show s.made s.osPrioHighRdy = true
    rw [next]
    exact first.1.1

theorem Inv.step [DecidableEq ε] (inv : Inv s) {label : Label ε α} (lively : Lively label s) :
    Inv (step label s) := by
  cases label with
  | call call =>
    simp only [Ucos.step]
    split_ifs with alone
    · simp only [Bool.and_eq_true, List.isEmpty_iff, Bool.not_eq_eq_eq_not, Bool.not_true] at alone
      split
      · rename_i code
        exact inv.task lively alone.1 alone.2 code
      · exact inv
    · exact inv
  | go =>
    simp only [Ucos.step]
    split_ifs with alone
    · simp only [Bool.and_eq_true, List.isEmpty_iff, Bool.not_eq_eq_eq_not, Bool.not_true] at alone
      exact inv.go alone.1 alone.2
    · exact inv
  | pendSV =>
    simp only [Ucos.step]
    split_ifs with alone
    · simp only [Bool.and_eq_true, List.isEmpty_iff] at alone
      exact inv.switch alone.1 alone.2
    · exact inv
  | irq handler =>
    simp only [Ucos.step]
    split_ifs with room
    · exact inv.irq handler room
    · exact inv
  | irqPost post =>
    simp only [Ucos.step]
    split
    · exact inv
    · rename_i inside
      split_ifs with called
      · exact inv
      · exact inv.irqPost inside (Bool.not_eq_true _ ▸ called) post
  | irqGo =>
    simp only [Ucos.step]
    split
    · exact inv
    · rename_i inside
      exact inv.irqGo inside
  | irqEnd =>
    simp only [Ucos.step]
    split
    · exact inv
    · rename_i f rest inside
      by_cases busy : (f.sched || !f.tick.isEmpty) = true
      · rw [if_pos busy]
        exact inv
      · rw [if_neg busy]
        simp only [Bool.or_eq_true, not_or, Bool.not_eq_true] at busy
        exact inv.irqEnd inside busy.1

end Invariant

section Cases

variable {ε α : Type} {s : St ε α}

structure Rest (s s' : St ε α) : Prop where
  made : s'.made = s.made
  osEvent : s'.osEvent = s.osEvent
  tcb : s'.tcb = s.tcb
  log : s'.log = s.log
  lock : s'.osLockNesting = s.osLockNesting
  pends : ∀ p, (s'.pc p).pends = (s.pc p).pends
  cur : s'.osPrioCur = s.osPrioCur ∨ s.pendSV = true

theorem Rest.same (s : St ε α) (isr : List Frame) : Rest s { s with isr := isr } :=
  ⟨rfl, rfl, rfl, rfl, rfl, fun _ => rfl, .inl rfl⟩

theorem Rest.sched {s' : St ε α} (rest : Rest s s') : Rest s (osSched s') := by
  unfold osSched
  split_ifs
  · exact ⟨rest.made, rest.osEvent, rest.tcb, rest.log, rest.lock, rest.pends, rest.cur⟩
  · exact rest
  · exact rest

theorem Rest.enter (s : St ε α) (isr : List Frame) : Rest s { osIntEnter s with isr := isr } := by
  unfold osIntEnter
  split_ifs <;> exact ⟨rfl, rfl, rfl, rfl, rfl, fun _ => rfl, .inl rfl⟩

theorem Rest.exit (s : St ε α) (isr : List Frame) : Rest s (osIntExit { s with isr := isr }) := by
  unfold osIntExit
  split_ifs
  · exact Rest.sched ⟨rfl, rfl, rfl, rfl, rfl, fun _ => rfl, .inl rfl⟩
  · exact Rest.sched (Rest.same s isr)

variable [DecidableEq ε]

inductive Did (s : St ε α) : Label ε α → St ε α → Prop
  | call {call : Call ε α} (quiet : s.isr = []) (calm : s.pendSV = false)
      (code : s.pc s.osPrioCur = .code) : Did s (.call call) (osCall call s)
  | back {kind : Kind} {e : ε} (quiet : s.isr = []) (calm : s.pendSV = false)
      (inside : s.pc s.osPrioCur = .pended kind e) : Did s .go (pendReturn kind e s)
  | post {post : Post ε α} {f : Frame} {rest : List Frame} (inside : s.isr = f :: rest)
      (free : f.sched = false) :
      Did s (.irqPost post) { post.run s with isr := { f with sched := post.wakes s } :: rest }
  | tick {p : Fin 64} {f : Frame} {left : List (Fin 64)} {rest : List Frame}
      (inside : s.isr = f :: rest) (free : f.sched = false) (next : f.tick = p :: left) :
      Did s .irqGo { tickTcb p s with isr := { f with tick := left } :: rest }
  | rest {label : Label ε α} {s' : St ε α} (rest : Rest s s')
      (no_tick : label = .irqGo → ∀ f later, s.isr = f :: later → f.sched = true ∨ f.tick = []) :
      Did s label s'

theorem did_step (label : Label ε α) (s : St ε α) : Did s label (step label s) := by
  have none : ∀ {label : Label ε α}, label ≠ .irqGo → Did s label s := by
    intro label other
    exact .rest (Rest.same s s.isr) (absurd · other)
  cases label with
  | call call =>
    simp only [step]
    split_ifs with alone
    · simp only [Bool.and_eq_true, List.isEmpty_iff, Bool.not_eq_eq_eq_not, Bool.not_true] at alone
      split
      · exact .call alone.1 alone.2 (by assumption)
      · exact none (by simp)
    · exact none (by simp)
  | go =>
    simp only [step]
    split_ifs with alone
    · simp only [Bool.and_eq_true, List.isEmpty_iff, Bool.not_eq_eq_eq_not, Bool.not_true] at alone
      unfold goStep
      split
      · exact none (by simp)
      · rename_i next here
        refine .rest ?_ (by simp)
        rw [← osSched_goTo]
        refine Rest.sched ⟨rfl, rfl, rfl, rfl, rfl, fun p => ?_, .inl rfl⟩
        by_cases own : p = s.osPrioCur
        · rw [own, here]
          simp [goTo]
        · simp [goTo, own]
      · exact .back alone.1 alone.2 (by assumption)
    · exact none (by simp)
  | pendSV =>
    simp only [step]
    split_ifs with alone
    · simp only [Bool.and_eq_true] at alone
      exact .rest ⟨rfl, rfl, rfl, rfl, rfl, fun _ => rfl, .inr alone.2⟩ (by simp)
    · exact none (by simp)
  | irq handler =>
    simp only [step]
    split_ifs
    · cases handler with
      | counted => exact .rest (Rest.enter s _) (by simp)
      | plain => exact .rest (Rest.same s _) (by simp)
      | sysTick => exact .rest (Rest.enter s _) (by simp)
    · exact none (by simp)
  | irqPost post =>
    simp only [step]
    split
    · exact none (by simp)
    · rename_i inside
      split_ifs with called
      · exact none (by simp)
      · exact .post inside (Bool.not_eq_true _ ▸ called)
  | irqGo =>
    simp only [step]
    split
    · rename_i quiet
      refine .rest (Rest.same s s.isr) (fun _ f later inside => ?_)
      rw [quiet] at inside
      cases inside
    · rename_i f later inside
      unfold irqGoStep
      split_ifs with called
      · refine .rest ?_ (fun _ g rest same => ?_)
        · rw [osSched_isr]
          exact Rest.sched (Rest.same s _)
        · obtain ⟨rfl, rfl⟩ := List.cons.inj (inside.symm.trans same)
          exact .inl called
      · split
        · rename_i done
          refine .rest (Rest.same s s.isr) (fun _ g rest same => ?_)
          obtain ⟨rfl, rfl⟩ := List.cons.inj (inside.symm.trans same)
          exact .inr done
        · rename_i next
          exact .tick inside (Bool.not_eq_true _ ▸ called) next
  | irqEnd =>
    simp only [step]
    split
    · exact none (by simp)
    · split_ifs
      · exact none (by simp)
      · exact .rest (Rest.exit s _) (by simp)
      · exact .rest (Rest.same s _) (by simp)

end Cases

section Runs

variable {ε α : Type} (tasks : List (Fin 64)) (body : ε → Body α)

/-- `OSStart` with the tasks just created, `OSTCBList` in the order of the list. -/
def osStart : St ε α :=
  let rdy := tasks.foldr (fun p t => t.add p) Table.empty
  { osRdy := rdy
    made := fun p => decide (p ∈ tasks)
    tcb := fun _ => ⟨osStatRdy, .pendOk, 0, none, none⟩
    pc := fun _ => .code
    osEvent := fun e => ⟨body e, Table.empty⟩
    osPrioCur := rdy.lowest osUnMapTbl
    osPrioHighRdy := rdy.lowest osUnMapTbl
    osLockNesting := 0
    osIntNesting := 0
    pendSV := false
    isr := []
    osTCBList := tasks
    log := [] }

theorem has_foldr (p : Fin 64) :
    (tasks.foldr (fun p t => t.add p) Table.empty).has p = decide (p ∈ tasks) := by
  induction tasks with
  | nil => simp
  | cons q tasks ih => simp [ih]

variable {tasks}

theorem osStart_inv (idle : osTaskIdlePrio ∈ tasks) : Inv (osStart tasks body) := by
  have lists : Lists (osStart tasks body) := by
    refine ⟨fun p => ?_, fun e p waiting => ?_, ?_⟩
    · refine ⟨?_, fun e => ?_, rfl, fun k e inside => ?_, fun _ => ⟨rfl, rfl⟩, fun set => ?_,
        fun told => ?_, fun _ => ⟨rfl, rfl⟩⟩
      · simp [osStart, has_foldr]
      · simp [osStart, OsTcb.listed, Stat.pendAny, osStatRdy]
      · cases inside
      · cases set
      · cases told
    · simp [osStart] at waiting
    · simp [osStart, has_foldr, idle]
  refine ⟨lists, ⟨rfl, Nat.zero_le _, fun f member => ?_, fun pending => ?_, fun taken => ?_,
    fun _ _ pending => ?_, fun _ _ _ _ => rfl⟩, lists.schedNew.1.1⟩
  · cases member
  · cases pending
  · cases taken
  · cases pending

variable [DecidableEq ε] (idle : osTaskIdlePrio ∈ tasks) {labels : List (Label ε α)}
  (lively : Along step Lively labels (osStart tasks body))
include idle lively

theorem inv_of_run : Inv (run step labels (osStart tasks body)) := by
  have keep : ∀ (label : Label ε α) (s : St ε α), Lively label s → Inv s → Inv (step label s) :=
    fun _ _ lively inv => inv.step lively
  exact run_invariant keep lively (osStart_inv body idle)

/-- Whenever a task runs unlocked it is, of the tasks that nothing holds up, the first. -/
theorem highest_runs {s : St ε α} (reached : run step labels (osStart tasks body) = s)
    (quiet : s.isr = []) (calm : s.pendSV = false) (unlocked : s.osLockNesting = 0)
    (behind : (s.pc s.osPrioCur).scheds = false) : IsLeast {p | Runs s p} s.osPrioCur := by
  rw [← reached] at *
  exact (inv_of_run body idle lively).runs quiet calm behind unlocked

/-- In every state the tables of the kernel say which tasks are ready, which wait and for what. -/
theorem tables_exact {s : St ε α} (reached : run step labels (osStart tasks body) = s) (p : Fin 64) :
    (s.osRdy.has p = true ↔ Runs s p) ∧
      (∀ e, (s.osEvent e).wait.has p = true ↔
        ((s.pc p).pends = some ((s.osEvent e).body.kind, e) ∧ (s.tcb p).listed = true)) ∧
      (∀ e, (s.osEvent e).wait.has p = true → (s.osEvent e).body.take = none) := by
  have lists := (inv_of_run body idle lively).lists
  rw [reached] at lists
  have fit := lists.task p
  refine ⟨lists.ready p, fun e => ⟨fun waiting => ?_, fun pending => ?_⟩, fun e => lists.full e p⟩
  · obtain ⟨-, -, listed, pends, -⟩ := fit.listed waiting
    exact ⟨pends, listed⟩
  · refine (fit.waits e).mpr ⟨?_, pending.2⟩
    rw [fit.pends, pending.1]
    rfl

end Runs

section Waiting

def emptyBox : Unit → Body Nat := fun _ => .mbox none

def waiting : List (Label Unit Nat) := [.call (.mboxPend () 3), .go, .pendSV]

theorem waiting_lively : Along step Lively waiting (osStart [5, 63] emptyBox) := by decide

theorem highest_runs_waiting : IsLeast {p | Runs (run step waiting (osStart [5, 63] emptyBox)) p} 63 :=
  highest_runs emptyBox (by decide) waiting_lively rfl rfl rfl rfl rfl

theorem tables_exact_waiting :
    ((run step waiting (osStart [5, 63] emptyBox)).osRdy.has 5 = true ↔
      Runs (run step waiting (osStart [5, 63] emptyBox)) 5) ∧
    (∀ e, ((run step waiting (osStart [5, 63] emptyBox)).osEvent e).wait.has 5 = true ↔
      (((run step waiting (osStart [5, 63] emptyBox)).pc 5).pends =
          some (((run step waiting (osStart [5, 63] emptyBox)).osEvent e).body.kind, e) ∧
        ((run step waiting (osStart [5, 63] emptyBox)).tcb 5).listed = true)) ∧
    ((run step waiting (osStart [5, 63] emptyBox)).osEvent ()).wait.has 5 = true ∧
    ((run step waiting (osStart [5, 63] emptyBox)).osEvent ()).body.take = none := by
  obtain ⟨ready, waits, full⟩ := tables_exact emptyBox (by decide) waiting_lively rfl 5
  have on : ((run step waiting (osStart [5, 63] emptyBox)).osEvent ()).wait.has 5 = true := by decide
  exact ⟨ready, waits, on, full () on⟩

end Waiting

end BoxFirmware.Ucos
