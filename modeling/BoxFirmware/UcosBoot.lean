import BoxFirmware.UcosFlow

/-! How the tasks of `main.c` and `tcp_client.c` start. `fan_task`, `mqtt_task` and
`tcp_client_thread` suspend themselves before anything else, and `dhcpselct_task` resumes
them when there is an address. No other task is resumed but `dht11_task`, which never
suspends itself, and none is suspended but by itself. -/
namespace BoxFirmware.Ucos
open BitTable GuardedRun

def fanTaskPrio : Fin 64 := ⟨8, by decide⟩
def mqttTaskPrio : Fin 64 := ⟨11, by decide⟩
def tcpClientPrio : Fin 64 := ⟨12, by decide⟩
def dhcpselectTaskPrio : Fin 64 := ⟨13, by decide⟩
def dht11TaskPrio : Fin 64 := ⟨14, by decide⟩

def parked : List (Fin 64) := [fanTaskPrio, mqttTaskPrio, tcpClientPrio]

section Blocks

variable {ε α : Type} {s : St ε α}

theorem tickTcb_tcb (p q : Fin 64) (s : St ε α) :
    ((tickTcb q s).tcb p).osTCBStat.suspend = (s.tcb p).osTCBStat.suspend ∧
      ((s.tcb p).osTCBDly = 0 → (tickTcb q s).tcb p = s.tcb p) := by
  unfold tickTcb
  dsimp only
  by_cases still : (s.tcb q).osTCBDly = 0
  · rw [if_neg (not_not.mpr still)]
    exact ⟨rfl, fun _ => rfl⟩
  rw [if_pos still]
  by_cases here : p = q
  · rw [here]
    refine ⟨?_, fun zero => absurd zero still⟩
    split_ifs
    · simp [setRdy, setTcb, (timeUp_spec _).1, Stat.clearAny]
    · simp [setRdy, setTcb, (timeUp_spec _).1, Stat.clearAny]
    · simp [setTcb]
  · split_ifs <;> simp [setRdy, setTcb, here]

theorem osTimeDly_tcb (p : Fin 64) (ticks : Nat) (s : St ε α) :
    ((osTimeDly ticks s).tcb p).osTCBStat.suspend = (s.tcb p).osTCBStat.suspend ∧
      (p ≠ s.osPrioCur → (osTimeDly ticks s).tcb p = s.tcb p) := by
  unfold osTimeDly
  dsimp only
  split_ifs
  · exact ⟨rfl, fun _ => rfl⟩
  · exact ⟨rfl, fun _ => rfl⟩
  · by_cases own : p = s.osPrioCur <;> simp [goTo, setRdy, setTcb, own]
  · exact ⟨rfl, fun _ => rfl⟩

variable [DecidableEq ε]

theorem osPend_tcb (p : Fin 64) (kind : Kind) (e : ε) (timeout : Nat) (s : St ε α) :
    ((osPend kind e timeout s).tcb p).osTCBStat.suspend = (s.tcb p).osTCBStat.suspend ∧
      (p ≠ s.osPrioCur → (osPend kind e timeout s).tcb p = s.tcb p) := by
  unfold osPend
  dsimp only
  split_ifs
  · exact ⟨rfl, fun _ => rfl⟩
  · exact ⟨rfl, fun _ => rfl⟩
  · exact ⟨rfl, fun _ => rfl⟩
  · split
    · exact ⟨rfl, fun _ => rfl⟩
    · by_cases own : p = s.osPrioCur <;>
        simp [goTo, osEventTaskWait, setRdy, setEvent, setTcb, own]

theorem osPost_tcb (p : Fin 64) (kind : Kind) (e : ε) (pmsg : Option α) (s : St ε α) :
    ((osPost kind e pmsg s).tcb p).osTCBStat.suspend = (s.tcb p).osTCBStat.suspend ∧
      ((s.osEvent e).wait.has p = false → (osPost kind e pmsg s).tcb p = s.tcb p) := by
  unfold osPost
  split_ifs with other some
  · exact ⟨rfl, fun _ => rfl⟩
  · have waiting := Table.lowest_has osUnMapTbl_lowest some
    by_cases here : p = (s.osEvent e).wait.lowest osUnMapTbl
    · rw [← here] at waiting
      refine ⟨?_, fun none => absurd waiting (by rw [none]; nofun)⟩
      simp [St.emit, osEventTaskRdy, osEventTaskRemove, setRdy, setEvent, setTcb, ← here]
    · simp [St.emit, osEventTaskRdy, osEventTaskRemove, setRdy, setEvent, setTcb, here]
  · split <;> exact ⟨rfl, fun _ => rfl⟩

theorem Post.run_tcb (p : Fin 64) (post : Post ε α) (s : St ε α) :
    ((post.run s).tcb p).osTCBStat.suspend = (s.tcb p).osTCBStat.suspend ∧
      ((∀ e, (s.osEvent e).wait.has p = false) → (post.run s).tcb p = s.tcb p) := by
  cases post <;> exact (osPost_tcb p _ _ _ s).imp_right (fun same nowhere => same (nowhere _))

end Blocks

section Boot

variable {ε α : Type} {s s' : St ε α}

def Call.booting (s : St ε α) : Call ε α → Prop
  | .suspend prio => prio = none ∧ s.osPrioCur ≠ dht11TaskPrio
  | .resume _ => s.osPrioCur = dhcpselectTaskPrio ∧ s.osLockNesting = 0
  | _ => s.osPrioCur ∈ parked → ∃ err, .suspended s.osPrioCur err ∈ s.log

def Boots : Label ε α → St ε α → Prop
  | .call call, s => call.lively s.osPrioCur ∧ call.booting s
  | _, _ => True

def Ev.suspends (p : Fin 64) : Ev ε α → Bool
  | .suspended q _ => decide (q = p)
  | _ => false

theorem suspends_iff {p : Fin 64} {log : List (Ev ε α)} :
    log.any (Ev.suspends p) = true ↔ ∃ err, .suspended p err ∈ log := by
  rw [List.any_eq_true]
  constructor
  · rintro ⟨ev, member, same⟩
    cases ev with
    | suspended q err =>
      obtain rfl : q = p := of_decide_eq_true same
      exact ⟨err, member⟩
    | _ => cases same
  · rintro ⟨err, member⟩
    exact ⟨_, member, decide_eq_true rfl⟩

theorem begun_iff {p : Fin 64} {log : List (Ev ε α)} :
    (!parked.contains p || log.any (Ev.suspends p)) = true ↔
      (p ∈ parked → ∃ err, .suspended p err ∈ log) := by
  rw [← suspends_iff, Bool.or_eq_true, Bool.not_eq_true', ← Bool.not_eq_true, List.contains_iff_mem,
    imp_iff_not_or]

instance decidableBooting (s : St ε α) : (call : Call ε α) → Decidable (call.booting s)
  | .suspend prio => inferInstanceAs (Decidable (prio = none ∧ s.osPrioCur ≠ dht11TaskPrio))
  | .resume _ =>
    inferInstanceAs (Decidable (s.osPrioCur = dhcpselectTaskPrio ∧ s.osLockNesting = 0))
  | .semPend _ _ | .mboxPend _ _ | .qPend _ _ | .post _ | .timeDly _ | .lock | .unlock =>
    decidable_of_iff ((!parked.contains s.osPrioCur || s.log.any (Ev.suspends s.osPrioCur)) = true)
      begun_iff

instance decidableBoots : (label : Label ε α) → (s : St ε α) → Decidable (Boots label s)
  | .call call, s => inferInstanceAs (Decidable (call.lively s.osPrioCur ∧ call.booting s))
  | .go, _ | .pendSV, _ | .irq _, _ | .irqPost _, _ | .irqGo, _ | .irqEnd, _ =>
    inferInstanceAs (Decidable True)

/-- The first resumption of a task that has suspended itself succeeds, and every one of
`dht11_task` fails. -/
def Resumes (past : List (Ev ε α)) : Ev ε α → Prop
  | .resumed p err =>
    (p ∈ parked → (∀ err, .resumed p err ∉ past) → err = osErrNone) ∧
      (p = dht11TaskPrio → err = osErrTaskNotSuspended)
  | _ => True

/-- A task that has not been resumed is suspended, or has done nothing yet and nothing holds it up. -/
structure Boot (s : St ε α) : Prop where
  waits : ∀ p ∈ parked, (∀ err, .resumed p err ∉ s.log) → (s.tcb p).osTCBStat.suspend = true ∨
    (∀ err, .suspended p err ∉ s.log) ∧ Runs s p ∧ (s.pc p).pends = none
  free : (s.tcb dht11TaskPrio).osTCBStat.suspend = false
  made : ∀ p, p ∈ parked ∨ p = dht11TaskPrio → s.made p = true
  good : Justified Resumes s.log

def Ev.plain : Ev ε α → Prop
  | .suspended _ _ | .resumed _ _ => False
  | _ => True

theorem Boot.keep (boot : Boot s) (evs : List (Ev ε α)) (log : s'.log = s.log ++ evs)
    (plain : ∀ ev ∈ evs, ev.plain) (made : s'.made = s.made)
    (held : ∀ p, (s'.tcb p).osTCBStat.suspend = (s.tcb p).osTCBStat.suspend)
    (fresh : ∀ p ∈ parked, (∀ err, .suspended p err ∉ s.log) → Runs s p → (s.pc p).pends = none →
      s'.tcb p = s.tcb p ∧ (s'.pc p).pends = none) : Boot s' := by
  refine ⟨fun p member unresumed => ?_, by rw [held]; exact boot.free, by rw [made]; exact boot.made, ?_⟩
  · have before : ∀ err, .resumed p err ∉ s.log := by
      intro err inside
      refine unresumed err ?_
      rw [log]
      exact List.mem_append_left _ inside
    rcases boot.waits p member before with suspended | ⟨none, runs, free⟩
    · left
      rw [held]
      exact suspended
    · right
      obtain ⟨tcb, pends⟩ := fresh p member none runs free
      refine ⟨fun err inside => ?_, by rw [Runs, made, tcb]; exact runs, pends⟩
      rw [log] at inside
      rcases List.mem_append.mp inside with earlier | now
      · exact none err earlier
      · exact plain _ now
  · rw [log]
    refine justified_append boot.good (fun ev member past => ?_)
    have free := plain ev member
    cases ev with
    | resumed => exact free.elim
    | _ => trivial

theorem Boot.same (boot : Boot s) (log : s'.log = s.log) (made : s'.made = s.made)
    (tcb : s'.tcb = s.tcb) (pends : ∀ p, (s'.pc p).pends = (s.pc p).pends) : Boot s' :=
  boot.keep [] (by rw [log, List.append_nil]) nofun made (fun p => by rw [tcb])
    (fun p _ _ _ free => ⟨by rw [tcb], by rw [pends]; exact free⟩)

theorem suspend_self (made : s.made s.osPrioCur = true) :
    (osTaskSuspend none s).made = s.made ∧
      (osTaskSuspend none s).log = s.log ++ [.suspended s.osPrioCur osErrNone] ∧
      ((osTaskSuspend none s).tcb s.osPrioCur).osTCBStat.suspend = true ∧
      ∀ p, p ≠ s.osPrioCur → (osTaskSuspend none s).tcb p = s.tcb p ∧
        (osTaskSuspend none s).pc p = s.pc p := by
  unfold osTaskSuspend
  dsimp only
  split_ifs with absent own
  · exact absurd made (Bool.eq_false_iff.mp absent)
  · refine ⟨rfl, rfl, ?_, fun p other => ⟨Function.update_of_ne other _ _, Function.update_of_ne other _ _⟩⟩
    simp [goTo, St.emit, setRdy, setTcb]
  · exact absurd rfl own

theorem Boot.suspend (boot : Boot s) (own : s.osPrioCur ≠ dht11TaskPrio)
    (there : s.made s.osPrioCur = true) : Boot (osTaskSuspend none s) := by
  obtain ⟨made, log, held, others⟩ := suspend_self there
  generalize osTaskSuspend none s = s' at made log held others
  refine ⟨fun p member unresumed => ?_, ?_, by rw [made]; exact boot.made, ?_⟩
  · have before : ∀ err, .resumed p err ∉ s.log := by
      intro err inside
      refine unresumed err ?_
      rw [log]
      exact List.mem_append_left _ inside
    by_cases here : p = s.osPrioCur
    · left
      rw [here]
      exact held
    · obtain ⟨tcb, pc⟩ := others p here
      rw [Runs, made, tcb, pc]
      refine (boot.waits p member before).imp_right (fun fresh => ⟨fun err inside => ?_, fresh.2⟩)
      rw [log] at inside
      rcases List.mem_append.mp inside with earlier | now
      · exact fresh.1 err earlier
      · exact here (Ev.suspended.inj (List.mem_singleton.mp now)).1
  · rw [(others _ (Ne.symm own)).1]
    exact boot.free
  · rw [log]
    exact (justified_concat _ _).mpr ⟨boot.good, trivial⟩

theorem osTaskResume_spec {q : Fin 64} (made : s.made q = true) :
    (osTaskResume q s).made = s.made ∧
      (osTaskResume q s).log = s.log ++ [.resumed q
        (if (s.tcb q).osTCBStat.suspend then osErrNone else osErrTaskNotSuspended)] ∧
      ((osTaskResume q s).tcb q).osTCBStat.suspend = false ∧
      ∀ p, p ≠ q → (osTaskResume q s).tcb p = s.tcb p := by
  unfold osTaskResume
  dsimp only
  rw [if_neg (by rw [made]; nofun)]
  split_ifs with held
  · exact ⟨rfl, rfl, by simp [goTo, St.emit, setRdy, setTcb], fun p other => Function.update_of_ne other _ _⟩
  · exact ⟨rfl, rfl, by simp [St.emit, setTcb], fun p other => Function.update_of_ne other _ _⟩
  · exact ⟨rfl, rfl, by simp [St.emit, setTcb], fun p other => Function.update_of_ne other _ _⟩
  · exact ⟨rfl, rfl, Bool.not_eq_true _ ▸ held, fun _ _ => rfl⟩

theorem Boot.resume (boot : Boot s) (first : IsLeast {p | Runs s p} s.osPrioCur)
    (own : s.osPrioCur = dhcpselectTaskPrio) (q : Fin 64) : Boot (osTaskResume q s) := by
  have asleep : ∀ p ∈ parked, (∀ err, .resumed p err ∉ s.log) → (s.tcb p).osTCBStat.suspend = true := by
    intro p member before
    refine (boot.waits p member before).resolve_right (fun fresh => ?_)
    have after : dhcpselectTaskPrio ≤ p := own ▸ first.2 fresh.2.1
    have earlier : ∀ p ∈ parked, p < dhcpselectTaskPrio := by decide
    exact absurd after (not_le.mpr (earlier p member))
  by_cases there : s.made q = true
  · obtain ⟨made, log, freed, others⟩ := osTaskResume_spec there
    generalize osTaskResume q s = s' at made log freed others
    refine ⟨fun p member unresumed => ?_, ?_, by rw [made]; exact boot.made, ?_⟩
    · have other : p ≠ q := by
        intro same
        have inside := List.mem_append_right s.log (List.mem_singleton_self (Ev.resumed q
          (if (s.tcb q).osTCBStat.suspend then osErrNone else osErrTaskNotSuspended) : Ev ε α))
        rw [← log, ← same] at inside
        exact unresumed _ inside
      have before : ∀ err, .resumed p err ∉ s.log := by
        intro err inside
        refine unresumed err ?_
        rw [log]
        exact List.mem_append_left _ inside
      rw [others p other]
      exact .inl (asleep p member before)
    · by_cases here : dht11TaskPrio = q
      · rw [here]
        exact freed
      · rw [others _ here]
        exact boot.free
    · rw [log]
      refine (justified_concat _ _).mpr ⟨boot.good, fun member before => ?_, fun here => ?_⟩
      · rw [asleep q member before]
        rfl
      · rw [here, boot.free]
        rfl
  · have absent : s.made q = false := Bool.not_eq_true _ ▸ there
    have outside : ¬ (q ∈ parked ∨ q = dht11TaskPrio) := fun member => there (boot.made q member)
    have failed : osTaskResume q s = s.emit [.resumed q osErrTaskResumePrio] := by
      unfold osTaskResume
      dsimp only
      rw [if_pos absent]
    rw [failed]
    refine ⟨fun p member unresumed => ?_, boot.free, boot.made, ?_⟩
    · refine (boot.waits p member (fun err inside => ?_)).imp_right (fun fresh => ⟨fun err inside => ?_, fresh.2⟩)
      · exact unresumed err (List.mem_append_left _ inside)
      · rcases List.mem_append.mp inside with earlier | now
        · exact fresh.1 err earlier
        · cases List.mem_singleton.mp now
    · refine (justified_concat _ _).mpr ⟨boot.good, fun member => ?_, fun here => ?_⟩
      · exact absurd (.inl member) outside
      · exact absurd (.inr here) outside

structure Plain (s s' : St ε α) : Prop where
  log : ∃ evs, s'.log = s.log ++ evs ∧ ∀ ev ∈ evs, ev.plain
  made : s'.made = s.made
  held : ∀ p, (s'.tcb p).osTCBStat.suspend = (s.tcb p).osTCBStat.suspend
  others : ∀ p, p ≠ s.osPrioCur → (∀ e, (s.osEvent e).wait.has p = false) →
    s'.tcb p = s.tcb p ∧ s'.pc p = s.pc p

theorem Plain.same (log : s'.log = s.log) (made : s'.made = s.made) (tcb : s'.tcb = s.tcb)
    (pc : ∀ p, p ≠ s.osPrioCur → s'.pc p = s.pc p) : Plain s s' :=
  ⟨⟨[], by rw [log, List.append_nil], nofun⟩, made, fun p => by rw [tcb],
    fun p other _ => ⟨by rw [tcb], pc p other⟩⟩

theorem Plain.timeDly (ticks : Nat) : Plain s (osTimeDly ticks s) := by
  have tcb := fun p => osTimeDly_tcb p ticks s
  refine ⟨⟨[], ?_, nofun⟩, congrArg Core.made (osTimeDly_core ticks s).1, fun p => (tcb p).1,
    fun p other _ => ⟨(tcb p).2 other, ?_⟩⟩
  · unfold osTimeDly
    dsimp only
    split_ifs <;> exact (List.append_nil _).symm
  · unfold osTimeDly
    dsimp only
    split_ifs
    · rfl
    · rfl
    · exact Function.update_of_ne other _ _
    · rfl

theorem Lists.nowhere (l : Lists s) {p : Fin 64} (free : (s.pc p).pends = none) (e : ε) :
    (s.osEvent e).wait.has p = false := by
  by_contra waiting
  rw [((l.task p).listed (Bool.not_eq_false _ ▸ waiting)).2.2.2.1] at free
  cases free

theorem Boot.plain (boot : Boot s) (l : Lists s) (plain : Plain s s')
    (begun : ∀ p ∈ parked, (∀ err, .suspended p err ∉ s.log) → (s.pc p).pends = none →
      p ≠ s.osPrioCur) : Boot s' := by
  obtain ⟨evs, log, free⟩ := plain.log
  refine boot.keep evs log free plain.made plain.held (fun p member none runs free => ?_)
  obtain ⟨tcb, pc⟩ := plain.others p (begun p member none free) (l.nowhere free)
  exact ⟨tcb, by rw [pc]; exact free⟩

variable [DecidableEq ε]

theorem Plain.pend (kind : Kind) (e : ε) (timeout : Nat) : Plain s (osPend kind e timeout s) := by
  have tcb := fun p => osPend_tcb p kind e timeout s
  refine ⟨?_, congrArg Core.made (osPend_core kind e timeout s).1, fun p => (tcb p).1,
    fun p other _ => ⟨(tcb p).2 other, ?_⟩⟩
  · unfold osPend
    dsimp only
    split_ifs
    · exact ⟨_, rfl, by simp [Ev.plain]⟩
    · exact ⟨_, rfl, by simp [Ev.plain]⟩
    · exact ⟨_, rfl, by simp [Ev.plain]⟩
    · split
      · exact ⟨_, rfl, by simp [Ev.plain]⟩
      · exact ⟨[], (List.append_nil _).symm, nofun⟩
  · unfold osPend
    dsimp only
    split_ifs
    · rfl
    · rfl
    · rfl
    · split
      · rfl
      · exact Function.update_of_ne other _ _

theorem Plain.postRun (post : Post ε α) : Plain s (post.run s) := by
  have tcb := fun p => post.run_tcb p s
  have core := post.run_core s
  refine ⟨?_, congrArg Core.made core.1, fun p => (tcb p).1,
    fun p _ nowhere => ⟨(tcb p).2 nowhere, congrFun core.2.2.1 p⟩⟩
  have posted : ∀ kind e (pmsg : Option α), ∃ evs, (osPost kind e pmsg s).log = s.log ++ evs ∧
      ∀ ev ∈ evs, ev.plain := by
    intro kind e pmsg
    unfold osPost
    split_ifs
    · exact ⟨_, rfl, by simp [Ev.plain]⟩
    · exact ⟨_, rfl, by simp [Ev.plain]⟩
    · split <;> exact ⟨_, rfl, by simp [Ev.plain]⟩
  cases post <;> exact posted _ _ _

theorem Plain.task {call : Call ε α} (nor : ∀ prio, call ≠ .suspend prio) (other : ∀ q, call ≠ .resume q) :
    Plain s (osCall call s) := by
  cases call with
  | semPend e timeout => exact Plain.pend .sem e timeout
  | mboxPend e timeout => exact Plain.pend .mbox e timeout
  | qPend e timeout => exact Plain.pend .q e timeout
  | suspend prio => exact absurd rfl (nor prio)
  | resume q => exact absurd rfl (other q)
  | timeDly ticks => exact Plain.timeDly ticks
  | post post =>
    have posted := Plain.postRun (s := s) post
    simp only [osCall]
    split_ifs
    · refine ⟨posted.log, posted.made, posted.held, fun p own nowhere => ?_⟩
      obtain ⟨tcb, pc⟩ := posted.others p own nowhere
      exact ⟨tcb, (Function.update_of_ne own _ _).trans pc⟩
    · exact posted
  | lock =>
    rw [osCall, osSchedLock]
    split_ifs <;> exact Plain.same rfl rfl rfl (fun _ _ => rfl)
  | unlock =>
    rw [osCall, osSchedUnlock]
    dsimp only
    split_ifs
    · exact Plain.same rfl rfl rfl (fun p other => Function.update_of_ne other _ _)
    · exact Plain.same rfl rfl rfl (fun _ _ => rfl)
    · exact Plain.same rfl rfl rfl (fun _ _ => rfl)
    · exact Plain.same rfl rfl rfl (fun _ _ => rfl)

theorem Plain.back (runs : Runs s s.osPrioCur) (kind : Kind) (e : ε) : Plain s (pendReturn kind e s) := by
  have clear : (s.tcb s.osPrioCur).osTCBStat.suspend = false := by rw [runs.2.1]; rfl
  have kept : ∀ {s' : St ε α} {t : OsTcb ε α} {ev : Ev ε α}, s'.log = s.log → s'.made = s.made →
      s'.tcb = s.tcb → s'.pc = s.pc → t.osTCBStat = osStatRdy → ev.plain →
      Plain s ((goTo s.osPrioCur .code (setTcb s.osPrioCur t s')).emit [ev]) := by
    intro s' t ev log made tcb pc stat plain
    refine ⟨⟨[ev], congrArg (· ++ [ev]) log, by simpa using plain⟩, made, fun p => ?_, fun p other _ => ?_⟩
    · show (Function.update s'.tcb s.osPrioCur t p).osTCBStat.suspend = _
      by_cases own : p = s.osPrioCur
      · rw [own, Function.update_self, stat, clear]
        rfl
      · rw [Function.update_of_ne own, tcb]
    · exact ⟨(Function.update_of_ne other _ _).trans (congrFun tcb p),
        (Function.update_of_ne other _ _).trans (congrFun pc p)⟩
  unfold pendReturn
  dsimp only
  cases (s.tcb s.osPrioCur).osTCBStatPend <;> exact kept rfl rfl rfl rfl rfl trivial

theorem Boot.step (boot : Boot s) (inv : Inv s) {label : Label ε α} (boots : Boots label s) :
    Boot (step label s) := by
  have did := did_step label s
  generalize Ucos.step label s = s' at did
  cases did with
  | call quiet calm code =>
    rename_i call
    obtain ⟨-, booting⟩ := boots
    cases call with
    | suspend prio =>
      obtain ⟨rfl, other⟩ := booting
      exact boot.suspend other inv.made
    | resume q =>
      exact boot.resume (inv.runs quiet calm (by rw [code]; rfl) booting.2) booting.1 q
    | _ =>
      refine boot.plain inv.lists (Plain.task nofun nofun) (fun p member none _ own => ?_)
      rw [own] at member none
      obtain ⟨err, inside⟩ := booting member
      exact none err inside
  | back quiet calm inside =>
    refine boot.plain inv.lists (Plain.back (inv.pended quiet calm inside) _ _) (fun p _ _ free own => ?_)
    rw [own, inside] at free
    cases free
  | post =>
    rename_i post _ _ _ _
    obtain ⟨evs, log, plain⟩ := (Plain.postRun (s := s) post).log
    have core := post.run_core s
    refine boot.keep evs log plain (congrArg Core.made core.1) (fun p => (post.run_tcb p s).1)
      (fun p _ _ _ free => ⟨(post.run_tcb p s).2 (inv.lists.nowhere free), ?_⟩)
    rw [← free]
    exact congrArg Pc.pends (congrFun core.2.2.1 p)
  | tick =>
    rename_i q _ _ _ _ _ _
    have core := tickTcb_core q s
    refine boot.keep [] ?_ nofun (congrArg Core.made core.1) (fun p => (tickTcb_tcb p q s).1)
      (fun p _ _ runs free => ⟨(tickTcb_tcb p q s).2 runs.2.2, ?_⟩)
    · show (tickTcb q s).log = s.log ++ []
      unfold tickTcb
      dsimp only
      split_ifs <;> exact (List.append_nil _).symm
    · rw [← free]
      exact congrArg Pc.pends (congrFun core.2.2 p)
  | rest rest => exact boot.same rest.log rest.made rest.tcb rest.pends

end Boot

section Runs

variable {ε α : Type} [DecidableEq ε] {tasks : List (Fin 64)} (body : ε → Body α)
  (idle : osTaskIdlePrio ∈ tasks) (there : ∀ p ∈ dht11TaskPrio :: parked, p ∈ tasks)
  {labels : List (Label ε α)}

omit [DecidableEq ε] in
include there in
theorem osStart_boot : Boot (osStart tasks body) := by
  have made : ∀ p, p ∈ parked ∨ p = dht11TaskPrio → (osStart tasks body).made p = true :=
    fun p member => decide_eq_true (there p (List.mem_cons.mpr member.symm))
  exact ⟨fun p member _ => .inr ⟨nofun, ⟨made p (.inl member), rfl, rfl⟩, rfl⟩, rfl, made, justified_nil⟩

include idle there in
/-- Whatever interrupts and the other tasks do, `dhcpselct_task` finds the tasks that it waits
to start suspended when it first resumes them. -/
theorem tasks_are_resumed (boots : Along step Boots labels (osStart tasks body)) :
    Justified Resumes (run step labels (osStart tasks body)).log := by
  have keep : ∀ (label : Label ε α) (s : St ε α), Boots label s → Inv s ∧ Boot s →
      Inv (step label s) ∧ Boot (step label s) := by
    intro label s boots both
    refine ⟨both.1.step ?_, both.2.step both.1 boots⟩
    cases label with
    | call call => exact boots.1
    | _ => trivial
  exact (run_invariant keep boots ⟨osStart_inv body idle, osStart_boot body there⟩).2.good

end Runs

section Resumed

/-- `fan_task` suspends itself and `dhcpselct_task` resumes it. -/
def resumed : List (Label Unit Nat) :=
  [.call (.suspend none), .go, .pendSV, .call (.suspend none), .go, .pendSV, .call (.suspend none), .go,
    .pendSV, .call (.resume fanTaskPrio)]

theorem tasks_are_resumed_fan :
    Justified Resumes (run step resumed (osStart [8, 11, 12, 13, 14, 63] emptyBox)).log :=
  tasks_are_resumed emptyBox (by decide) (by decide) (by decide +kernel)

end Resumed

end BoxFirmware.Ucos
