import BoxFirmware.Ucos

/-! What the tables of the kernel say. The ready table holds just the tasks that nothing
holds up, every event's table just the tasks that wait for it, and every operation of the
kernel keeps it so. -/
namespace BoxFirmware.Ucos
open BitTable GuardedRun

section Views

variable {ε α : Type}

def Pc.pends : Pc ε → Option (Kind × ε)
  | .sched (.pended kind e) => some (kind, e)
  | .pended kind e => some (kind, e)
  | _ => none

def Pc.scheds : Pc ε → Bool
  | .sched _ => true
  | _ => false

@[simp] theorem After.pc_pends (next : After ε) : next.pc.pends = (Pc.sched next).pends := by
  cases next <;> rfl

@[simp] theorem After.pc_scheds (next : After ε) : next.pc.scheds = false := by
  cases next <;> rfl

def OsTcb.listed (t : OsTcb ε α) : Bool := t.osTCBStat.pendAny || decide (t.osTCBStatPend = .pendTo)

def Runs (s : St ε α) (p : Fin 64) : Prop :=
  s.made p = true ∧ (s.tcb p).osTCBStat = osStatRdy ∧ (s.tcb p).osTCBDly = 0

theorem Stat.pendAny_eq_false {stat : Stat} :
    stat.pendAny = false ↔ ∀ kind, stat.has kind = false := by
  constructor
  · intro none kind
    simp only [Stat.pendAny, Bool.or_eq_false_iff] at none
    cases kind <;> simp [Stat.has, none]
  · intro none
    have sem := none .sem
    have mbox := none .mbox
    have q := none .q
    simp only [Stat.has] at sem mbox q
    simp [Stat.pendAny, sem, mbox, q]

theorem Stat.has_set (stat : Stat) (kind other : Kind) :
    (stat.set kind).has other = (decide (other = kind) || stat.has other) := by
  cases kind <;> cases other <;> simp [Stat.set, Stat.has]

theorem Stat.has_clear (stat : Stat) (kind other : Kind) :
    (stat.clear kind).has other = (!decide (other = kind) && stat.has other) := by
  cases kind <;> cases other <;> simp [Stat.clear, Stat.has]

@[simp] theorem Stat.suspend_set (stat : Stat) (kind : Kind) :
    (stat.set kind).suspend = stat.suspend := by cases kind <;> rfl

@[simp] theorem Stat.suspend_clear (stat : Stat) (kind : Kind) :
    (stat.clear kind).suspend = stat.suspend := by cases kind <;> rfl

theorem Stat.eq_rdy {stat : Stat} : stat = osStatRdy ↔ stat.pendAny = false ∧ stat.suspend = false := by
  obtain ⟨sem, mbox, q, suspend⟩ := stat
  simp only [osStatRdy, Stat.pendAny, Stat.mk.injEq, Bool.or_eq_false_iff]
  tauto

theorem Stat.pendAny_set (stat : Stat) (kind : Kind) : (stat.set kind).pendAny = true := by
  by_contra none
  have cleared := Stat.pendAny_eq_false.mp (Bool.not_eq_true _ ▸ none) kind
  rw [Stat.has_set] at cleared
  simp at cleared

end Views

section Lists

variable {ε α : Type}

structure Fit (made rdy : Bool) (t : OsTcb ε α) (pc : Pc ε) (kind : ε → Kind) (wait : ε → Bool) :
    Prop where
  ready : rdy = true ↔ made = true ∧ t.osTCBStat = osStatRdy ∧ t.osTCBDly = 0
  waits : ∀ e, wait e = true ↔ t.osTCBEventPtr = some e ∧ t.listed = true
  pends : t.osTCBEventPtr = pc.pends.map Prod.snd
  kinds : ∀ k e, pc.pends = some (k, e) → kind e = k ∧ ∀ other, t.osTCBStat.has other = true → other = k
  free : pc.pends = none → t.osTCBStat.pendAny = false ∧ t.osTCBStatPend = .pendOk
  pending : t.osTCBStat.pendAny = true → t.osTCBStatPend = .pendOk
  out : t.osTCBStatPend = .pendTo → t.osTCBDly = 0
  absent : made = false → pc = .code ∧ t.osTCBDly = 0

def TaskFit (s : St ε α) (p : Fin 64) : Prop :=
  Fit (s.made p) (s.osRdy.has p) (s.tcb p) (s.pc p) (fun e => (s.osEvent e).body.kind)
    (fun e => (s.osEvent e).wait.has p)

structure Lists (s : St ε α) : Prop where
  task : ∀ p, TaskFit s p
  /-- nobody waits for an event that has something to give -/
  full : ∀ e p, (s.osEvent e).wait.has p = true → (s.osEvent e).body.take = none
  idle : s.osRdy.has osTaskIdlePrio = true

theorem Lists.change {s s' : St ε α} (l : Lists s) (p : Fin 64) (made : s'.made = s.made)
    (kinds : ∀ e, (s'.osEvent e).body.kind = (s.osEvent e).body.kind)
    (others : ∀ q, q ≠ p → s'.osRdy.has q = s.osRdy.has q ∧ s'.tcb q = s.tcb q ∧ s'.pc q = s.pc q ∧
      ∀ e, (s'.osEvent e).wait.has q = (s.osEvent e).wait.has q)
    (own : TaskFit s' p)
    (full : ∀ e p, (s'.osEvent e).wait.has p = true → (s'.osEvent e).body.take = none)
    (idle : p = osTaskIdlePrio → s'.osRdy.has p = true) : Lists s' := by
  refine ⟨fun q => ?_, full, ?_⟩
  · by_cases here : q = p
    · rw [here]
      exact own
    · obtain ⟨rdy, tcb, pc, wait⟩ := others q here
      have before := l.task q
      simp only [TaskFit] at before ⊢
      simp only [made, kinds, rdy, tcb, pc, wait]
      exact before
  · by_cases here : osTaskIdlePrio = p
    · rw [here]
      exact idle here.symm
    · rw [(others _ here).1]
      exact l.idle

theorem Lists.same {s s' : St ε α} (l : Lists s) (rdy : s'.osRdy = s.osRdy) (made : s'.made = s.made)
    (tcb : s'.tcb = s.tcb) (pends : ∀ p, (s'.pc p).pends = (s.pc p).pends)
    (absent : ∀ p, s.pc p = .code → s.made p = false → s'.pc p = .code)
    (event : s'.osEvent = s.osEvent) : Lists s' := by
  refine ⟨fun q => ?_, by rw [event]; exact l.full, by rw [rdy]; exact l.idle⟩
  have before := l.task q
  simp only [TaskFit, rdy, made, tcb, event]
  exact ⟨before.ready, before.waits, by rw [pends]; exact before.pends,
    by rw [pends]; exact before.kinds, by rw [pends]; exact before.free, before.pending, before.out,
    fun none => ⟨absent q (before.absent none).1 none, (before.absent none).2⟩⟩

variable {s : St ε α}

theorem Lists.ready (l : Lists s) (p : Fin 64) : s.osRdy.has p = true ↔ Runs s p := (l.task p).ready

theorem Lists.nonempty (l : Lists s) : s.osRdy.grp ≠ 0 :=
  s.osRdy.grp_ne_zero_iff.mpr ⟨osTaskIdlePrio, l.idle⟩

theorem Lists.schedNew (l : Lists s) : IsLeast {p | Runs s p} (osSchedNew s) := by
  have least := Table.lowest_isLeast osUnMapTbl_lowest l.nonempty
  simp only [l.ready] at least
  exact least

end Lists

section Tasks

variable {ε α : Type} {s : St ε α}

theorem Fit.listed {made rdy : Bool} {t : OsTcb ε α} {pc : Pc ε} {kind : ε → Kind} {wait : ε → Bool}
    (fit : Fit made rdy t pc kind wait) {e : ε} (waiting : wait e = true) :
    made = true ∧ t.osTCBEventPtr = some e ∧ t.listed = true ∧ pc.pends = some (kind e, e) ∧
      (t.osTCBStat.clear (kind e)).pendAny = false ∧ ∀ other, wait other = true → other = e := by
  obtain ⟨ptr, listed⟩ := (fit.waits e).mp waiting
  have pend : pc.pends.map Prod.snd = some e := fit.pends ▸ ptr
  obtain ⟨⟨k, e'⟩, pends, rfl⟩ := Option.map_eq_some_iff.mp pend
  obtain ⟨same, only⟩ := fit.kinds k e' pends
  refine ⟨?_, ptr, listed, by rw [pends, same], ?_, fun other waits => ?_⟩
  · by_contra none
    rw [(fit.absent (Bool.not_eq_true _ ▸ none)).1] at pends
    cases pends
  · refine Stat.pendAny_eq_false.mpr (fun other => ?_)
    rw [Stat.has_clear, same]
    by_contra set
    simp only [Bool.not_eq_false, Bool.and_eq_true, Bool.not_eq_eq_eq_not, Bool.not_true,
      decide_eq_false_iff_not] at set
    exact set.1 (only other set.2)
  · have ptrs := ptr.symm.trans ((fit.waits other).mp waits).1
    exact (Option.some.inj ptrs).symm

theorem Lists.retcb (l : Lists s) (p : Fin 64) {t : OsTcb ε α} {rdy : Table}
    (others : ∀ q, q ≠ p → rdy.has q = s.osRdy.has q)
    (ready : rdy.has p = true ↔ s.made p = true ∧ t.osTCBStat = osStatRdy ∧ t.osTCBDly = 0)
    (ptr : t.osTCBEventPtr = (s.tcb p).osTCBEventPtr) (listed : t.listed = (s.tcb p).listed)
    (fewer : ∀ kind, t.osTCBStat.has kind = true → (s.tcb p).osTCBStat.has kind = true)
    (told : (s.tcb p).osTCBStat.pendAny = false → t.osTCBStatPend = .pendOk ∨
      t.osTCBStatPend = (s.tcb p).osTCBStatPend)
    (pending : t.osTCBStat.pendAny = true → t.osTCBStatPend = .pendOk)
    (out : t.osTCBStatPend = .pendTo → t.osTCBDly = 0)
    (absent : s.made p = false → t.osTCBDly = 0)
    (idle : p = osTaskIdlePrio → rdy.has p = true) :
    Lists (setRdy rdy (setTcb p t s)) := by
  have fit := l.task p
  refine l.change p rfl (fun _ => rfl) (fun q other => ⟨others q other, ?_, rfl, fun _ => rfl⟩) ?_
    l.full idle
  · exact Function.update_of_ne other _ _
  · show Fit (s.made p) (rdy.has p) (Function.update s.tcb p t p) (s.pc p) _ _
    rw [Function.update_self]
    refine ⟨ready, fun e => ?_, ?_, fun k e inside => ?_, fun none => ?_, pending, out, fun none =>
      ⟨(fit.absent none).1, absent none⟩⟩
    · rw [ptr, listed]
      exact fit.waits e
    · rw [ptr]
      exact fit.pends
    · exact ⟨(fit.kinds k e inside).1, fun other set => (fit.kinds k e inside).2 other (fewer other set)⟩
    · obtain ⟨clear, ok⟩ := fit.free none
      refine ⟨Stat.pendAny_eq_false.mpr (fun kind => ?_), (told clear).elim id (fun same => same.trans ok)⟩
      by_contra set
      have before := fewer kind (Bool.not_eq_false _ ▸ set)
      rw [Stat.pendAny_eq_false.mp clear kind] at before
      cases before

theorem timeUp_spec (t : OsTcb ε α) :
    (timeUp t).osTCBStat = t.osTCBStat.clearAny ∧ (timeUp t).osTCBDly = t.osTCBDly ∧
      (timeUp t).osTCBEventPtr = t.osTCBEventPtr ∧
      (timeUp t).osTCBStatPend = if t.osTCBStat.pendAny then .pendTo else .pendOk := by
  unfold timeUp
  split_ifs with pend
  · exact ⟨rfl, rfl, rfl, rfl⟩
  · refine ⟨?_, rfl, rfl, rfl⟩
    simp only [Stat.pendAny, Bool.or_eq_true, not_or, Bool.not_eq_true] at pend
    obtain ⟨⟨sem, mbox⟩, q⟩ := pend
    simp [Stat.clearAny, Stat.ext_iff, sem, mbox, q]

@[simp] theorem Stat.pendAny_clearAny (stat : Stat) : stat.clearAny.pendAny = false := rfl

theorem Lists.tick (l : Lists s) (p : Fin 64) : Lists (tickTcb p s) := by
  have fit := l.task p
  by_cases still : (s.tcb p).osTCBDly = 0
  · rw [tickTcb, if_neg (not_not.mpr still)]
    exact l
  have made : s.made p = true := by
    by_contra none
    exact still (fit.absent (Bool.not_eq_true _ ▸ none)).2
  have waiting : s.osRdy.has p = false := by
    by_contra runs
    exact still (fit.ready.mp (Bool.not_eq_false _ ▸ runs)).2.2
  have untold : (s.tcb p).osTCBStatPend ≠ .pendTo := fun told => still (fit.out told)
  have notIdle : p ≠ osTaskIdlePrio := by
    rintro rfl
    rw [l.idle] at waiting
    cases waiting
  rw [tickTcb, if_pos still]
  by_cases last : (s.tcb p).osTCBDly - 1 = 0
  · rw [if_pos last]
    obtain ⟨stat, dly, ptr, told⟩ := timeUp_spec { s.tcb p with osTCBDly := (s.tcb p).osTCBDly - 1 }
    dsimp only at stat dly ptr told ⊢
    generalize timeUp { s.tcb p with osTCBDly := (s.tcb p).osTCBDly - 1 } = t at stat dly ptr told
    rw [last] at dly
    have clear : t.osTCBStat.pendAny = false := by rw [stat, Stat.pendAny_clearAny]
    have held : t.osTCBStat.suspend = (s.tcb p).osTCBStat.suspend := by rw [stat]; rfl
    refine l.retcb p ?_ ?_ ptr ?_ ?_ ?_ ?_ (fun _ => dly) (fun _ => dly) (absurd · notIdle)
    · intro q other
      split_ifs <;> simp [other]
    · rw [Stat.eq_rdy, clear]
      split_ifs with suspended
      · simp [waiting, suspended]
      · simp [made, dly, Bool.not_eq_true _ ▸ suspended]
    · simp only [OsTcb.listed, clear, told, decide_eq_false untold, Bool.false_or, Bool.or_false]
      split_ifs with pend <;> simp [pend]
    · intro kind set
      rw [Stat.pendAny_eq_false.mp clear kind] at set
      cases set
    · intro none
      rw [told, none]
      exact .inl rfl
    · rw [clear]
      exact nofun
  · rw [if_neg last]
    refine l.retcb p (fun _ _ => rfl) ?_ rfl rfl (fun _ => id) (fun _ => .inr rfl) fit.pending ?_ ?_
      (absurd · notIdle)
    · simp [waiting, last]
    · exact fun told => absurd told untold
    · intro none
      rw [made] at none
      cases none

theorem Lists.goTo (l : Lists s) (p : Fin 64) {pc : Pc ε} (pends : pc.pends = (s.pc p).pends)
    (made : s.made p = true) : Lists (Ucos.goTo p pc s) := by
  refine l.same rfl rfl rfl (fun q => ?_) (fun q code none => ?_) rfl
  · by_cases here : q = p
    · rw [here]
      simp [Ucos.goTo, pends]
    · simp [Ucos.goTo, here]
  · by_cases here : q = p
    · rw [here, made] at none
      cases none
    · simpa [Ucos.goTo, here] using code

theorem Lists.emit (l : Lists s) (evs : List (Ev ε α)) : Lists (s.emit evs) :=
  l.same rfl rfl rfl (fun _ => rfl) (fun _ code _ => code) rfl

theorem Lists.suspend (l : Lists s) {prio : Option (Fin 64)} (code : s.pc s.osPrioCur = .code)
    (other : prio.getD s.osPrioCur ≠ osTaskIdlePrio) : Lists (osTaskSuspend prio s) := by
  unfold osTaskSuspend
  dsimp only
  generalize prio.getD s.osPrioCur = p at other
  split_ifs with none here
  · exact l.emit _
  all_goals
    have made : s.made p = true := Bool.not_eq_false _ ▸ none
    have fit := l.task p
    have held : Lists (setRdy (s.osRdy.drop p) (setTcb p { s.tcb p with
        osTCBStat := { (s.tcb p).osTCBStat with suspend := true } } s)) := by
      refine l.retcb p (fun q out => by simp [out]) ?_ rfl rfl (fun kind set => ?_)
        (fun _ => .inr rfl) fit.pending fit.out (fun none => (fit.absent none).2) (absurd · other)
      · simp [Stat.eq_rdy]
      · cases kind <;> exact set
  · have same : p = s.osPrioCur := here
    refine (held.emit _).goTo p ?_ made
    show Pc.pends (.sched .ret) = (s.pc p).pends
    rw [same, code]
    rfl
  · exact held.emit _

theorem Lists.resume (l : Lists s) {p : Fin 64} (code : s.pc s.osPrioCur = .code)
    (running : s.made s.osPrioCur = true) : Lists (osTaskResume p s) := by
  have fit := l.task p
  unfold osTaskResume
  dsimp only
  by_cases none : s.made p = false
  · rw [if_pos none]
    exact l.emit _
  rw [if_neg none]
  by_cases held : (s.tcb p).osTCBStat.suspend = true
  · rw [if_pos held]
    have waiting : s.osRdy.has p = false := by
      by_contra runs
      rw [(fit.ready.mp (Bool.not_eq_false _ ▸ runs)).2.1] at held
      cases held
    have notIdle : p ≠ osTaskIdlePrio := by
      rintro rfl
      rw [l.idle] at waiting
      cases waiting
    have freed : ∀ rdy : Table, (∀ q, q ≠ p → rdy.has q = s.osRdy.has q) →
        (rdy.has p = true ↔ ({ (s.tcb p).osTCBStat with suspend := false } : Stat) = osStatRdy ∧
          (s.tcb p).osTCBDly = 0) →
        Lists (setRdy rdy (setTcb p { s.tcb p with
          osTCBStat := { (s.tcb p).osTCBStat with suspend := false } } s)) := by
      intro rdy others ready
      refine l.retcb p others ?_ rfl rfl (fun kind set => ?_) (fun _ => .inr rfl) fit.pending fit.out
        (fun none => (fit.absent none).2) (absurd · notIdle)
      · rw [ready]
        simp [none]
      · cases kind <;> exact set
    split_ifs with cleared due
    · refine ((freed (s.osRdy.add p) (fun q other => by simp [other]) ?_).emit _).goTo _ ?_ running
      · simp [cleared, show (s.tcb p).osTCBDly = 0 from due]
      · show Pc.pends (.sched .ret) = (s.pc s.osPrioCur).pends
        rw [code]
        rfl
    · refine (freed s.osRdy (fun _ _ => rfl) ?_).emit _
      simp [waiting, show ¬ (s.tcb p).osTCBDly = 0 from due]
    · refine (freed s.osRdy (fun _ _ => rfl) ?_).emit _
      simp [waiting, cleared]
  · rw [if_neg held]
    exact l.emit _

theorem Lists.timeDly (l : Lists s) (ticks : Nat) (code : s.pc s.osPrioCur = .code)
    (runs : s.osLockNesting = 0 → Runs s s.osPrioCur) (other : s.osPrioCur ≠ osTaskIdlePrio) :
    Lists (osTimeDly ticks s) := by
  unfold osTimeDly
  dsimp only
  split_ifs with nested locked some
  · exact l
  · exact l
  · obtain ⟨made, stat, dly⟩ := runs (Nat.eq_zero_of_not_pos locked)
    have fit := l.task s.osPrioCur
    have ok := (fit.free (by rw [code]; rfl)).2
    have delayed : Lists (setRdy (s.osRdy.drop s.osPrioCur)
        (setTcb s.osPrioCur { s.tcb s.osPrioCur with osTCBDly := ticks } s)) := by
      refine l.retcb s.osPrioCur (fun q out => by simp [out]) ?_ rfl rfl (fun _ => id)
        (fun _ => .inr rfl) fit.pending ?_ ?_ (absurd · other)
      · simp [Nat.ne_of_gt some]
      · intro told
        rw [ok] at told
        cases told
      · intro none
        rw [made] at none
        cases none
    refine delayed.goTo _ ?_ made
    show Pc.pends (.sched .ret) = (s.pc s.osPrioCur).pends
    rw [code]
    rfl
  · exact l

end Tasks

section Operations

variable {ε α : Type} [DecidableEq ε] {s : St ε α}

theorem Lists.rdy (l : Lists s) {e : ε} {kind : Kind} (known : (s.osEvent e).body.kind = kind)
    (some : (s.osEvent e).wait.grp ≠ 0) (pmsg : Option α) {pendStat : StatPend}
    (told : pendStat ≠ .pendTo) : Lists (osEventTaskRdy e pmsg kind pendStat s) := by
  have waiting := Table.lowest_has osUnMapTbl_lowest some
  generalize found : (s.osEvent e).wait.lowest osUnMapTbl = p at waiting
  have fit := l.task p
  obtain ⟨made, ptr, -, pends, cleared, alone⟩ := fit.listed waiting
  rw [known] at pends cleared
  have ready : (osEventTaskRdy e pmsg kind pendStat s).osRdy.has p =
      !(s.tcb p).osTCBStat.suspend := by
    simp only [osEventTaskRdy, osEventTaskRemove, setEvent, setRdy, setTcb, found, Stat.suspend_clear]
    split_ifs with held
    · rw [held]
      by_contra runs
      have stat := (fit.ready.mp (Bool.not_eq_false _ ▸ runs)).2.1
      rw [stat] at held
      cases held
    · simp [Bool.not_eq_true _ ▸ held]
  have tcb : (osEventTaskRdy e pmsg kind pendStat s).tcb p = { s.tcb p with
      osTCBDly := 0
      osTCBMsg := pmsg
      osTCBStat := (s.tcb p).osTCBStat.clear kind
      osTCBStatPend := pendStat } := by
    simp [osEventTaskRdy, osEventTaskRemove, setEvent, setRdy, setTcb, found]
  have body : ∀ e', ((osEventTaskRdy e pmsg kind pendStat s).osEvent e').body = (s.osEvent e').body := by
    intro e'
    by_cases here : e' = e <;> simp [osEventTaskRdy, osEventTaskRemove, setEvent, setRdy, setTcb, here]
  have wait : ∀ e' q, ((osEventTaskRdy e pmsg kind pendStat s).osEvent e').wait.has q =
      (!(decide (q = p) && decide (e' = e)) && (s.osEvent e').wait.has q) := by
    intro e' q
    by_cases here : e' = e <;>
      simp [osEventTaskRdy, osEventTaskRemove, setEvent, setRdy, setTcb, here, found]
  refine l.change p rfl (fun e' => by rw [body]) (fun q other => ⟨?_, ?_, rfl, fun e' => ?_⟩) ?_
    (fun e' q waits => ?_) (fun idle => ?_)
  · simp only [osEventTaskRdy, osEventTaskRemove, setEvent, setRdy, setTcb, found]
    split_ifs <;> simp [other]
  · simp [osEventTaskRdy, osEventTaskRemove, setEvent, setRdy, setTcb, found, other]
  · rw [wait, decide_eq_false other]
    rfl
  · -- the task of the event's highest priority is off the list, and runs unless suspended
    refine ⟨?_, fun e' => ?_, ?_, ?_, ?_, ?_, ?_, fun none => ⟨(fit.absent none).1, by rw [tcb]⟩⟩
    · rw [ready, tcb]
      simp only [Stat.eq_rdy, Stat.suspend_clear, cleared, Bool.not_eq_true', true_and, and_true]
      exact ⟨fun held => ⟨made, held⟩, fun runs => runs.2⟩
    · simp only [wait, tcb, OsTcb.listed, cleared, decide_eq_false told, Bool.or_self,
        Bool.false_eq_true, and_false, iff_false]
      by_cases here : e' = e
      · simp [here]
      · simpa [here] using fun waits => here (alone e' waits)
    · rw [tcb]
      exact fit.pends
    · rw [tcb]
      intro k e' inside
      refine ⟨by rw [body]; exact (fit.kinds k e' inside).1, fun other set => ?_⟩
      rw [Stat.pendAny_eq_false.mp cleared other] at set
      cases set
    · intro none
      rw [show s.pc p = (osEventTaskRdy e pmsg kind pendStat s).pc p from rfl, none] at pends
      cases pends
    · rw [tcb]
      intro set
      rw [cleared] at set
      cases set
    · rw [tcb]
      exact fun _ => rfl
  · rw [body]
    rw [wait, Bool.and_eq_true] at waits
    exact l.full e' q waits.2
  · rw [ready]
    have runs := (l.task p).ready.mp (idle ▸ l.idle)
    simp [runs.2.1, osStatRdy]

theorem setEvent_event (e e' : ε) (ev : OsEvent α) :
    (setEvent e ev s).osEvent e' = if e' = e then ev else s.osEvent e' :=
  Function.update_apply _ _ _ _

theorem Lists.rebody (l : Lists s) (e : ε) {body : Body α} (kind : body.kind = (s.osEvent e).body.kind)
    (nobody : ∀ p, (s.osEvent e).wait.has p = false) :
    Lists (setEvent e { s.osEvent e with body := body } s) := by
  have kinds : ∀ e', ((setEvent e { s.osEvent e with body := body } s).osEvent e').body.kind =
      (s.osEvent e').body.kind := by
    intro e'
    rw [setEvent_event]
    split_ifs with here
    · rw [here]
      exact kind
    · rfl
  have waits : ∀ e', ((setEvent e { s.osEvent e with body := body } s).osEvent e').wait =
      (s.osEvent e').wait := by
    intro e'
    rw [setEvent_event]
    split_ifs with here
    · rw [here]
    · rfl
  refine l.change osTaskIdlePrio rfl kinds (fun q _ => ⟨rfl, rfl, rfl, fun e' => by rw [waits]⟩) ?_
    (fun e' p waiting => ?_) (fun _ => l.idle)
  · have before := l.task osTaskIdlePrio
    simp only [TaskFit, kinds, waits] at before ⊢
    exact before
  · rw [waits] at waiting
    rw [setEvent_event]
    split_ifs with here
    · rw [here, nobody] at waiting
      cases waiting
    · exact l.full e' p waiting

theorem Body.kind_take {body body' : Body α} {pmsg : Option α} (taken : body.take = some (pmsg, body')) :
    body'.kind = body.kind := by
  cases body with
  | sem count =>
    simp only [Body.take, Option.ite_none_right_eq_some, Option.some.injEq, Prod.mk.injEq] at taken
    rw [← taken.2.2]
    rfl
  | mbox ptr =>
    cases ptr with
    | none => cases taken
    | some m =>
      obtain ⟨-, rfl⟩ := Prod.mk.inj (Option.some.inj taken)
      rfl
  | q size entries =>
    cases entries with
    | nil => cases taken
    | cons m rest =>
      obtain ⟨-, rfl⟩ := Prod.mk.inj (Option.some.inj taken)
      rfl

theorem Body.kind_put {body body' : Body α} {pmsg : Option α} (put : body.put pmsg = some body') :
    body'.kind = body.kind := by
  cases body with
  | sem count =>
    simp only [Body.put, Option.ite_none_right_eq_some, Option.some.injEq] at put
    rw [← put.2]
    rfl
  | mbox ptr =>
    cases ptr with
    | none =>
      rw [← Option.some.inj put]
      rfl
    | some m => cases put
  | q size entries =>
    simp only [Body.put, Option.ite_none_left_eq_some, Option.some.injEq] at put
    rw [← put.2]
    rfl

theorem Lists.post (l : Lists s) (kind : Kind) (e : ε) (pmsg : Option α) :
    Lists (osPost kind e pmsg s) := by
  unfold osPost
  split_ifs with other some
  · exact l.emit _
  · have told : StatPend.pendOk ≠ .pendTo := nofun
    exact (l.rdy (not_not.mp other) some pmsg told).emit _
  · have nobody := (Table.grp_eq_zero_iff _).mp (not_not.mp some)
    split
    · exact (l.rebody e (Body.kind_put (by assumption)) nobody).emit _
    · exact l.emit _

theorem Lists.postRun (l : Lists s) (post : Post ε α) : Lists (post.run s) := by
  cases post <;> exact l.post _ _ _

/-- The running task waits for an event that has nothing to give. -/
theorem Lists.wait (l : Lists s) {kind : Kind} {e : ε} {timeout : Nat}
    (known : (s.osEvent e).body.kind = kind) (code : s.pc s.osPrioCur = .code)
    (runs : Runs s s.osPrioCur) (other : s.osPrioCur ≠ osTaskIdlePrio)
    (nothing : (s.osEvent e).body.take = none) :
    Lists (Ucos.goTo s.osPrioCur (.sched (.pended kind e)) (osEventTaskWait e
      (setTcb s.osPrioCur { s.tcb s.osPrioCur with
        osTCBStat := (s.tcb s.osPrioCur).osTCBStat.set kind
        osTCBStatPend := .pendOk
        osTCBDly := timeout } s))) := by
  generalize next : Ucos.goTo s.osPrioCur (.sched (.pended kind e)) (osEventTaskWait e
    (setTcb s.osPrioCur { s.tcb s.osPrioCur with
      osTCBStat := (s.tcb s.osPrioCur).osTCBStat.set kind
      osTCBStatPend := .pendOk
      osTCBDly := timeout } s)) = s'
  obtain ⟨made, stat, -⟩ := runs
  have fit := l.task s.osPrioCur
  have free : (s.pc s.osPrioCur).pends = none := by
    rw [code]
    rfl
  have nowhere : ∀ e', (s.osEvent e').wait.has s.osPrioCur = false := by
    intro e'
    by_contra waiting
    have pends := (fit.listed (Bool.not_eq_false _ ▸ waiting)).2.2.2.1
    rw [free] at pends
    cases pends
  have tcb : s'.tcb s.osPrioCur = { s.tcb s.osPrioCur with
      osTCBStat := (s.tcb s.osPrioCur).osTCBStat.set kind
      osTCBStatPend := .pendOk
      osTCBDly := timeout
      osTCBEventPtr := some e } := by
    simp [← next, Ucos.goTo, osEventTaskWait, setRdy, setEvent, setTcb]
  have pc : s'.pc s.osPrioCur = .sched (.pended kind e) := by simp [← next, Ucos.goTo]
  have body : ∀ e', (s'.osEvent e').body = (s.osEvent e').body := by
    intro e'
    by_cases here : e' = e <;>
      simp [← next, Ucos.goTo, osEventTaskWait, setRdy, setEvent, setTcb, here]
  have wait : ∀ e' q, (s'.osEvent e').wait.has q =
      (decide (q = s.osPrioCur) && decide (e' = e) || (s.osEvent e').wait.has q) := by
    intro e' q
    by_cases here : e' = e <;>
      simp [← next, Ucos.goTo, osEventTaskWait, setRdy, setEvent, setTcb, here]
  have rdy : s'.osRdy = s.osRdy.drop s.osPrioCur := by
    rw [← next]
    rfl
  refine l.change s.osPrioCur (by rw [← next]; rfl) (fun e' => by rw [body])
    (fun q out => ⟨by simp [rdy, out], ?_, ?_, fun e' => by simp [wait, out]⟩) ?_
    (fun e' q waits => ?_) (absurd · other)
  · simp [← next, Ucos.goTo, osEventTaskWait, setRdy, setEvent, setTcb, out]
  · simp [← next, Ucos.goTo, osEventTaskWait, setRdy, setEvent, setTcb, out]
  · simp only [TaskFit, rdy, tcb, pc, body, wait]
    refine ⟨?_, fun e' => ?_, rfl, fun k e' inside => ?_, nofun, fun _ => rfl, nofun, fun none => ?_⟩
    · simp [Stat.eq_rdy, Stat.pendAny_set]
    · simp [nowhere, OsTcb.listed, Stat.pendAny_set, eq_comm]
    · obtain ⟨rfl, rfl⟩ := Prod.mk.inj (Option.some.inj inside)
      refine ⟨known, fun other set => ?_⟩
      rw [Stat.has_set, stat] at set
      cases other <;> simpa [Stat.has, osStatRdy] using set
    · rw [← next] at none
      exact absurd (show s.made s.osPrioCur = false from none) (by simp [made])
  · rw [body]
    by_cases here : q = s.osPrioCur ∧ e' = e
    · rw [here.2]
      exact nothing
    · refine l.full e' q ?_
      rw [wait] at waits
      simpa [here] using waits

theorem Lists.back (l : Lists s) {s' : St ε α} {kind : Kind} {e : ε} {pmsg : Option α}
    (inside : s.pc s.osPrioCur = .pended kind e) (runs : Runs s s.osPrioCur)
    (left : s' = osEventTaskRemove s.osPrioCur e s ∨
      s' = s ∧ (s.tcb s.osPrioCur).osTCBStatPend ≠ .pendTo) :
    Lists (Ucos.goTo s.osPrioCur .code (setTcb s.osPrioCur { s.tcb s.osPrioCur with
      osTCBStat := osStatRdy
      osTCBStatPend := .pendOk
      osTCBEventPtr := none
      osTCBMsg := pmsg } s')) := by
  obtain ⟨made, stat, dly⟩ := runs
  have fit := l.task s.osPrioCur
  have pends : (s.pc s.osPrioCur).pends = some (kind, e) := by
    rw [inside]
    rfl
  have others : s'.osRdy = s.osRdy ∧ s'.made = s.made ∧ s'.tcb = s.tcb ∧ s'.pc = s.pc := by
    rcases left with rfl | ⟨rfl, -⟩ <;> exact ⟨rfl, rfl, rfl, rfl⟩
  obtain ⟨rdy, mades, tcbs, pcs⟩ := others
  have body : ∀ e', (s'.osEvent e').body = (s.osEvent e').body := by
    intro e'
    rcases left with rfl | ⟨rfl, -⟩
    · by_cases here : e' = e <;> simp [osEventTaskRemove, setEvent, here]
    · rfl
  have stays : ∀ e', e' ≠ e → (s.osEvent e').wait.has s.osPrioCur = false := by
    intro e' elsewhere
    by_contra waiting
    have same := (fit.listed (Bool.not_eq_false _ ▸ waiting)).2.2.2.1
    rw [pends] at same
    exact elsewhere (Prod.mk.inj (Option.some.inj same)).2.symm
  have wait : ∀ e' q, (s'.osEvent e').wait.has q =
      (!decide (q = s.osPrioCur) && (s.osEvent e').wait.has q) := by
    intro e' q
    rcases left with rfl | ⟨rfl, untold⟩
    · by_cases here : e' = e
      · simp [osEventTaskRemove, setEvent, here]
      · by_cases own : q = s.osPrioCur
        · simp [osEventTaskRemove, setEvent, here, own, stays e' here]
        · simp [osEventTaskRemove, setEvent, here, own]
    · by_cases own : q = s'.osPrioCur
      · simp only [own, decide_true, Bool.not_true, Bool.false_and]
        by_contra waiting
        have listed := (fit.listed (Bool.not_eq_false _ ▸ waiting)).2.2.1
        rw [OsTcb.listed, stat, decide_eq_false untold] at listed
        cases listed
      · simp [own]
  refine l.change s.osPrioCur mades (fun e' => by rw [← body]; rfl)
    (fun q out => ⟨congrArg (·.has q) rdy, ?_, ?_, fun e' => ?_⟩) ?_ (fun e' q waits => ?_) (fun idle => ?_)
  · simp [Ucos.goTo, setTcb, out, tcbs]
  · simp [Ucos.goTo, setTcb, out, pcs]
  · exact (wait e' q).trans (by simp [out])
  · simp only [TaskFit, Ucos.goTo, setTcb, Function.update_self, rdy, mades, body, wait]
    refine ⟨?_, fun e' => ?_, rfl, nofun, fun _ => ⟨rfl, rfl⟩, nofun, nofun, fun none => ?_⟩
    · exact iff_of_true (fit.ready.mpr ⟨made, stat, dly⟩) ⟨made, rfl, dly⟩
    · simp
    · rw [made] at none
      cases none
  · have before : (s'.osEvent e').wait.has q = true := waits
    rw [wait, Bool.and_eq_true] at before
    rw [← l.full e' q before.2, ← body e']
    rfl
  · rw [idle]
    exact (congrArg (·.has osTaskIdlePrio) rdy).trans l.idle

theorem Lists.pendReturn (l : Lists s) {kind : Kind} {e : ε} (inside : s.pc s.osPrioCur = .pended kind e)
    (runs : Runs s s.osPrioCur) : Lists (Ucos.pendReturn kind e s) := by
  unfold Ucos.pendReturn
  dsimp only
  cases told : (s.tcb s.osPrioCur).osTCBStatPend with
  | pendOk => exact (l.back inside runs (.inr ⟨rfl, by rw [told]; nofun⟩)).emit _
  | pendTo => exact (l.back inside runs (.inl rfl)).emit _
  | pendAbort => exact (l.back inside runs (.inr ⟨rfl, by rw [told]; nofun⟩)).emit _

theorem Lists.pend (l : Lists s) (kind : Kind) (e : ε) (timeout : Nat) (code : s.pc s.osPrioCur = .code)
    (runs : s.osLockNesting = 0 → Runs s s.osPrioCur) (other : s.osPrioCur ≠ osTaskIdlePrio) :
    Lists (osPend kind e timeout s) := by
  unfold osPend
  dsimp only
  split_ifs with mismatch nested locked
  · exact l.emit _
  · exact l.emit _
  · exact l.emit _
  obtain ⟨made, stat, dly⟩ := runs (Nat.eq_zero_of_not_pos locked)
  have fit := l.task s.osPrioCur
  split
  · rename_i pmsg body taken
    refine (l.rebody e (Body.kind_take taken) (fun p => ?_)).emit _
    by_contra waiting
    rw [l.full e p (Bool.not_eq_false _ ▸ waiting)] at taken
    cases taken
  · rename_i nothing
    exact l.wait (not_not.mp mismatch) code ⟨made, stat, dly⟩ other nothing

end Operations

end BoxFirmware.Ucos
