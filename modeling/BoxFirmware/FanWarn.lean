import BoxFirmware.FanCapture
import BoxFirmware.MqttTurn

/-! The flag `fan_warn` between `fan_task` and `mqtt_thread`. The task looks for a complete
capture, sleeps for 20 ms and then judges by `temp`, which lives as long as the task; its steps,
those of the thread and the timer's interrupts come in any order. Of the thread's turn the test
of the flag, the report and the clear are steps of their own. Beside the code the state counts
what a check should know: whether a capture has completed since the check before. -/
namespace BoxFirmware.FanWarn
open CText Malloc MqttPacket MqttThread GuardedRun
open FanCapture (tim1CcIrqHandler pend fanWidth fanWidth_eq resetSta tim1IntInit handler_done)

inductive FanPc
  | look
  | judge
deriving DecidableEq, Repr

inductive Pc
  | top
  | test
  | report
  | clear
  | reports
  | switch
  | halted
deriving DecidableEq, Repr

structure Fan where
  st : MqttThread.St
  pc : Pc
  cap : FanCapture.St
  temp : Nat
  fanPc : FanPc
  /-- a capture has completed since the last check looked -/
  fresh : Bool
  /-- one had when this check looked -/
  seen : Bool

def irqStep (uif cc4if : Bool) (ccr4 : UInt16) (s : Fan) : Fan :=
  let cap := tim1CcIrqHandler (pend uif cc4if ccr4 s.cap)
  { s with
    cap := cap
    fresh := s.fresh || decide (s.cap.sta &&& 0x80 = 0 ∧ cap.sta &&& 0x80 ≠ 0) }

/-- `hot` says that the temperature is above 10. -/
def fanStep (hot : Bool) (s : Fan) : Fan :=
  match s.fanPc with
  | .look =>
    if hot then
      let s := { s with fanPc := .judge, seen := s.fresh, fresh := false }
      match fanWidth s.cap with
      | some width => { s with temp := width, cap := resetSta s.cap }
      | none => s
    else s
  | .judge => { s with st := { s.st with fanWarn := decide (s.temp = 0) }, fanPc := .look }

def threadStep (b : Board) (env : Env) (s : Fan) : Fan :=
  match s.pc with
  | .top =>
    let st := pingTimer env { s.st with doorFlag := s.st.doorFlag || env.doorOpened, log := [] }
    if st.connectFlag ∧ env.sendNow - st.sendtick ≥ 10 * 200 then
      { s with
        st := doorReport b env
          { st.emit [.uart (ascii "displaynew\r\n")] with sendtick := env.sendSet }
        pc := .test }
    else { s with st := st, pc := .switch }
  | .test => { s with pc := if s.st.fanWarn then .report else .reports }
  | .report => { s with st := eventReport b env .fan "fan is not work" s.st, pc := .clear }
  | .clear => { s with st := { s.st with fanWarn := false }, pc := .reports }
  | .reports => { s with st := mailReport b env (initReport b env s.st), pc := .switch }
  | .switch =>
    let st := dispatch b env { s.st with log := [] }
    if st.halted then { s with st := st, pc := .halted }
    else { s with st := (receive env st).2, pc := .top }
  | .halted => s

inductive Label
  | irq (uif cc4if : Bool) (ccr4 : UInt16)
  | fan (hot : Bool)
  | thread (env : Env)

def step (b : Board) : Label → Fan → Fan
  | .irq uif cc4if ccr4, s => irqStep uif cc4if ccr4 s
  | .fan hot, s => fanStep hot s
  | .thread env, s => threadStep b env s

/-- The thread at the top of its loop, the timer just set up and the task before its loop. -/
def start (st : MqttThread.St) : Fan where
  st := { st with fanWarn := false }
  pc := if st.halted then .halted else .top
  cap := tim1IntInit
  temp := 0
  fanPc := .look
  fresh := false
  seen := false

section Turn

variable {b : Board} {env : Env} {s : Fan}

theorem fan_eventually (at_ : s.pc = .test) :
    Eventually (step b) (.thread env)
      (fun t => t.pc = .reports ∧ t.st = fanReport b env s.st) s := by
  cases flag : s.st.fanWarn with
  | false =>
    apply eventually_next (t := { s with pc := .reports }) (by simp [step, threadStep, at_, flag])
    apply eventually_now
    simp [fanReport, flag]
  | true =>
    apply eventually_next (by simp only [step, threadStep, at_, flag, if_true]; rfl)
    apply eventually_step
    apply eventually_step
    apply eventually_now
    simp only [step, threadStep, fanReport, flag, if_true, and_self]

theorem wake_kept (st : MqttThread.St) (kept : env.fanSet = none) : wake env st =
    pingTimer env { st with doorFlag := st.doorFlag || env.doorOpened, log := [] } := by
  rw [wake, kept]
  rfl

theorem top_eventually (at_ : s.pc = .top) (kept : env.fanSet = none) :
    Eventually (step b) (.thread env)
      (fun t => t.pc = .switch ∧ t.st = beforeSwitch b env s.st) s := by
  by_cases due : (wake env s.st).connectFlag ∧ env.sendNow - (wake env s.st).sendtick ≥ 10 * 200
  · rw [beforeSwitch, timedReports, if_pos due]
    rw [wake_kept s.st kept] at due ⊢
    apply eventually_next (by simp only [step, threadStep, at_, if_pos due]; rfl)
    apply eventually_trans (fan_eventually rfl)
    intro t reported
    apply eventually_step
    apply eventually_now
    simp only [step, threadStep, reported.1, reported.2, and_self]
  · rw [beforeSwitch, timedReports, if_neg due]
    rw [wake_kept s.st kept] at due ⊢
    apply eventually_next (by simp only [step, threadStep, at_, if_neg due]; rfl)
    apply eventually_now
    exact ⟨rfl, rfl⟩

theorem switch_eventually (at_ : s.pc = .switch) :
    Eventually (step b) (.thread env) (fun t =>
      let after := dispatch b env { s.st with log := [] }
      t.st = (if after.halted then after else (receive env after).2) ∧
        t.pc = if after.halted then .halted else .top) s := by
  apply eventually_step
  apply eventually_now
  simp only [step, threadStep, at_]
  split <;> exact ⟨rfl, rfl⟩

theorem turn_eventually (at_ : s.pc = .top) (running : s.st.halted = false)
    (kept : env.fanSet = none) : Eventually (step b) (.thread env)
      (fun t => t.st = (iteration b env s.st).2) s := by
  apply eventually_trans (top_eventually at_ kept)
  intro t before
  apply eventually_mono (switch_eventually before.1)
  intro u after
  rw [before.2, ← afterSwitch] at after
  rw [iteration_state running]
  exact after.1

end Turn

section Checks

def Sent (b : Board) (log : List Event) : Prop :=
  ∃ sock retained msgid, .sent sock (eventPacket b "fan is not work" retained msgid)
    (eventPacket b "fan is not work" retained msgid).length
    (eventPacket b "fan is not work" retained msgid).length ∈ log

/-- The steps that may clear the flag: a check that saw a capture, and the thread's clear behind
a report. -/
def Earned (b : Board) (label : Label) (s : Fan) : Prop :=
  match label with
  | .irq _ _ _ => False
  | .fan _ => s.fanPc = .judge ∧ s.seen = true
  | .thread _ => s.pc = .clear ∧ Sent b s.st.log

/-- What a step has to do: a check sets the flag just when no capture has completed since the
check before, and a set flag is cleared where that is earned. -/
structure Meets (b : Board) (label : Label) (s : Fan) : Prop where
  judged : ∀ hot, label = .fan hot → s.fanPc = .judge →
    ((step b label s).st.fanWarn = true ↔ s.seen = false)
  cleared : s.st.fanWarn = true → (step b label s).st.fanWarn = false → Earned b label s

/-- A capture that a check finds has a width, and where it finds none no check before did. -/
def Looks (label : Label) (s : Fan) : Prop :=
  match label with
  | .fan true =>
    match s.fanPc, fanWidth s.cap with
    | .look, some width => width ≠ 0
    | .look, none => s.temp = 0
    | .judge, _ => True
  | _ => True

/-- A report gets its block and is written in full. -/
def Served (b : Board) (label : Label) (s : Fan) : Prop :=
  match label with
  | .thread env => s.pc = .report → (mallocSramin b 256 s.st).1 ≠ 0 ∧
      env.writeRc .fan = (eventPacket b "fan is not work" s.st.retained s.st.msgid).length
  | _ => True

def Sound (b : Board) (label : Label) (s : Fan) : Prop := Looks label s ∧ Served b label s

instance decidableLooks : (label : Label) → (s : Fan) → Decidable (Looks label s)
  | .irq .., _ => inferInstanceAs (Decidable True)
  | .fan false, _ => inferInstanceAs (Decidable True)
  | .thread _, _ => inferInstanceAs (Decidable True)
  | .fan true, s =>
    let judged : FanPc → Option Nat → Prop
      | .look, some width => width ≠ 0
      | .look, none => s.temp = 0
      | .judge, _ => True
    let dec : (pc : FanPc) → (found : Option Nat) → Decidable (judged pc found)
      | .look, some width => inferInstanceAs (Decidable (width ≠ 0))
      | .look, none => inferInstanceAs (Decidable (s.temp = 0))
      | .judge, _ => inferInstanceAs (Decidable True)
    dec s.fanPc (fanWidth s.cap)

instance decidableServed (b : Board) : (label : Label) → (s : Fan) → Decidable (Served b label s)
  | .irq .., _ => inferInstanceAs (Decidable True)
  | .fan _, _ => inferInstanceAs (Decidable True)
  | .thread _, _ => inferInstanceAs (Decidable (_ → _ ∧ _))

instance decidableSound (b : Board) (label : Label) (s : Fan) : Decidable (Sound b label s) :=
  inferInstanceAs (Decidable (_ ∧ _))

def Marked (s : Fan) : Prop := s.fresh = true ↔ s.cap.sta &&& 0x80 ≠ 0

/-- While a check sleeps, `temp` tells what it saw. -/
def Judging (s : Fan) : Prop := s.fanPc = .judge → (s.temp = 0 ↔ s.seen = false)

def Reported (b : Board) (s : Fan) : Prop := s.pc = .clear → Sent b s.st.log

variable {b : Board}

theorem fanStep_some {s : Fan} {width : Nat} (look : s.fanPc = .look)
    (found : fanWidth s.cap = some width) : fanStep true s = { s with
      fanPc := .judge, seen := s.fresh, fresh := false, temp := width, cap := resetSta s.cap } := by
  simp only [fanStep, look, found, if_true]

theorem fanStep_none {s : Fan} (look : s.fanPc = .look) (found : fanWidth s.cap = none) :
    fanStep true s = { s with fanPc := .judge, seen := s.fresh, fresh := false } := by
  simp only [fanStep, look, found, if_true]

theorem fanStep_cold {s : Fan} (look : s.fanPc = .look) : fanStep false s = s := by
  simp only [fanStep, look, Bool.false_eq_true, if_false]

theorem fanStep_look {s : Fan} (hot : Bool) (look : s.fanPc = .look) :
    (fanStep hot s).st = s.st ∧ (fanStep hot s).pc = s.pc := by
  cases hot with
  | false =>
    rw [fanStep_cold look]
    exact ⟨rfl, rfl⟩
  | true =>
    cases found : fanWidth s.cap with
    | none =>
      rw [fanStep_none look found]
      exact ⟨rfl, rfl⟩
    | some width =>
      rw [fanStep_some look found]
      exact ⟨rfl, rfl⟩

theorem fanStep_judge {s : Fan} (hot : Bool) (judge : s.fanPc = .judge) : fanStep hot s =
    { s with st := { s.st with fanWarn := decide (s.temp = 0) }, fanPc := .look } := by
  simp only [fanStep, judge]

theorem threadStep_task (env : Env) (s : Fan) : threadStep b env s =
    { s with st := (threadStep b env s).st, pc := (threadStep b env s).pc } := by
  unfold threadStep
  cases s.pc with
  | top | switch =>
    dsimp only
    split <;> rfl
  | _ => rfl

theorem mark_found {s : Fan} : fanWidth s.cap ≠ none ↔ s.cap.sta &&& 0x80 ≠ 0 := by
  rw [fanWidth_eq]
  split_ifs with mark
  · exact iff_of_true (Option.some_ne_none _) mark
  · exact iff_of_false (fun some => some rfl) mark

theorem irqStep_marked (uif cc4if : Bool) (ccr4 : UInt16) {s : Fan} (marked : Marked s) :
    Marked (irqStep uif cc4if ccr4 s) := by
  simp only [Marked, irqStep, Bool.or_eq_true, decide_eq_true_eq]
  by_cases done : s.cap.sta &&& 0x80 = 0
  · have stale : ¬ s.fresh = true := fun fresh => marked.mp fresh done
    simp [stale, done]
  · have kept := handler_done (pend uif cc4if ccr4 s.cap) done
    rw [kept]
    exact iff_of_true (.inl (marked.mpr done)) done

theorem step_marked (label : Label) (s : Fan) (marked : Marked s) : Marked (step b label s) := by
  cases label with
  | irq uif cc4if ccr4 => exact irqStep_marked uif cc4if ccr4 marked
  | thread env =>
    rw [step, threadStep_task]
    exact marked
  | fan hot =>
    cases at_ : s.fanPc with
    | judge =>
      rw [step, fanStep_judge hot at_]
      exact marked
    | look =>
      cases hot with
      | false =>
        rw [step, fanStep_cold at_]
        exact marked
      | true =>
        cases found : fanWidth s.cap with
        | none =>
          rw [step, fanStep_none at_ found]
          have unmarked := not_congr (mark_found (s := s))
          exact iff_of_false Bool.false_ne_true (unmarked.mp (by simp [found]))
        | some width =>
          rw [step, fanStep_some at_ found]
          have clear : (0 : UInt8) &&& 0x80 = 0 := by decide
          exact iff_of_false Bool.false_ne_true (fun high => high clear)

theorem look_judging {s : Fan} (marked : Marked s) (look : s.fanPc = .look) :
    Judging (step b (.fan true) s) ↔ Looks (.fan true) s := by
  have agree := marked.trans (mark_found (s := s)).symm
  cases found : fanWidth s.cap with
  | none =>
    have stale : s.fresh = false := by
      cases fresh : s.fresh with
      | false => rfl
      | true => exact absurd found (agree.mp fresh)
    rw [step, fanStep_none look found]
    simp [Judging, Looks, look, found, stale]
  | some width =>
    have fresh : s.fresh = true := agree.mpr (by simp [found])
    rw [step, fanStep_some look found]
    simp [Judging, Looks, look, found, fresh]

theorem step_judging (label : Label) (s : Fan) (looks : Looks label s) (marked : Marked s)
    (judging : Judging s) : Judging (step b label s) := by
  cases label with
  | irq uif cc4if ccr4 => exact judging
  | thread env =>
    rw [step, threadStep_task]
    exact judging
  | fan hot =>
    cases at_ : s.fanPc with
    | judge =>
      rw [step, fanStep_judge hot at_]
      intro under
      cases under
    | look =>
      cases hot with
      | false =>
        rw [step, fanStep_cold at_]
        exact judging
      | true => exact (look_judging marked at_).mpr looks

theorem judged_iff {s : Fan} (hot : Bool) (judge : s.fanPc = .judge) :
    ((step b (.fan hot) s).st.fanWarn = true ↔ s.seen = false) ↔ (s.temp = 0 ↔ s.seen = false) := by
  rw [step, fanStep_judge hot judge]
  simp only [decide_eq_true_eq]

theorem sent_report (env : Env) (st : MqttThread.St) (had : (mallocSramin b 256 st).1 ≠ 0)
    (full : env.writeRc .fan = (eventPacket b "fan is not work" st.retained st.msgid).length) :
    Sent b (eventReport b env .fan "fan is not work" st).log := by
  have made := serialize_event b "fan is not work" (by decide) [] st.retained st.msgid
  refine ⟨st.mysock, st.retained, st.msgid, ?_⟩
  rw [eventReport_log, if_neg had, publishEvent, full]
  dsimp only at made ⊢
  rw [made.1, made.2]
  simp

theorem step_reported (label : Label) (s : Fan) (served : Served b label s)
    (reported : Reported b s) : Reported b (step b label s) := by
  cases label with
  | irq uif cc4if ccr4 => exact reported
  | fan hot =>
    cases at_ : s.fanPc with
    | judge =>
      rw [step, fanStep_judge hot at_]
      exact reported
    | look =>
      have kept := fanStep_look hot at_
      rw [step, Reported, kept.1, kept.2]
      exact reported
  | thread env =>
    intro behind
    rw [step] at behind ⊢
    cases at_ : s.pc with
    | report =>
      have asked := served at_
      simp only [threadStep, at_]
      exact sent_report env s.st asked.1 asked.2
    | top | switch =>
      simp only [threadStep, at_] at behind
      split at behind <;> cases behind
    | test =>
      simp only [threadStep, at_] at behind
      split at behind <;> cases behind
    | halted =>
      simp only [threadStep, at_] at behind
      cases behind
    | _ => simp [threadStep, at_] at behind

theorem threadStep_fanWarn (env : Env) (s : Fan) (other : s.pc ≠ .clear) :
    (threadStep b env s).st.fanWarn = s.st.fanWarn := by
  unfold threadStep
  split
  · dsimp only
    have timer := congrArg Prod.snd (pingTimer_raised env
      { s.st with doorFlag := s.st.doorFlag || env.doorOpened, log := [] })
    split
    · dsimp only
      rw [(doorReport_flags b env _).1]
      exact timer
    · exact timer
  · rfl
  · exact congrArg Prod.snd (eventReport_raised b env s.st .fan "fan is not work")
  · exact absurd ‹_› other
  · dsimp only
    have mail := congrArg Prod.snd (mailReport_raised b env (initReport b env s.st))
    exact mail.trans (congrArg Prod.snd (initReport_raised b env s.st))
  · dsimp only
    have answer := congrArg Prod.snd (dispatch_raised b env { s.st with log := [] })
    split
    · exact answer
    · exact (congrArg Prod.snd (receive_raised env _)).trans answer
  · rfl

theorem meets_of_inv (label : Label) (s : Fan) (judging : Judging s) (reported : Reported b s) :
    Meets b label s := by
  refine ⟨?_, ?_⟩
  · intro hot same judge
    rw [same]
    exact (judged_iff hot judge).mpr (judging judge)
  · intro up down
    cases label with
    | irq uif cc4if ccr4 =>
      have kept : (step b (.irq uif cc4if ccr4) s).st.fanWarn = s.st.fanWarn := rfl
      simp [kept, up] at down
    | fan hot =>
      cases at_ : s.fanPc with
      | look =>
        have kept := (fanStep_look hot at_).1
        rw [step, kept, up] at down
        cases down
      | judge =>
        have right := (judged_iff (b := b) hot at_).mpr (judging at_)
        rw [down] at right
        refine ⟨at_, ?_⟩
        cases seen : s.seen with
        | true => rfl
        | false => exact absurd (right.mpr seen) Bool.false_ne_true
    | thread env =>
      by_cases at_ : s.pc = .clear
      · exact ⟨at_, reported at_⟩
      · rw [step, threadStep_fanWarn env s at_, up] at down
        cases down

/-- A check under way whose `temp` is wrong stays so until it judges. -/
theorem wrong_step (label : Label) (s : Fan) (meets : Meets b label s)
    (wrong : s.fanPc = .judge ∧ ¬ Judging s) :
    (step b label s).fanPc = .judge ∧ ¬ Judging (step b label s) := by
  cases label with
  | irq uif cc4if ccr4 => exact wrong
  | thread env =>
    rw [step, threadStep_task]
    exact wrong
  | fan hot =>
    have right := (judged_iff hot wrong.1).mp (meets.judged hot rfl wrong.1)
    exact absurd (fun _ => right) wrong.2

theorem looks_of_meets {labels : List Label} {s : Fan} (marked : Marked s)
    (meets : Along (step b) (Meets b) labels s)
    (whole : (run (step b) labels s).fanPc = .look) : Along (step b) Looks labels s := by
  induction labels generalizing s with
  | nil => trivial
  | cons label labels ih =>
    refine ⟨?_, ih (step_marked label s marked) meets.2 whole⟩
    by_contra missed
    have wrong : (step b label s).fanPc = .judge ∧ ¬ Judging (step b label s) := by
      cases label with
      | irq uif cc4if ccr4 => exact absurd trivial missed
      | thread env => exact absurd trivial missed
      | fan hot =>
        cases hot with
        | false => exact absurd trivial missed
        | true =>
          cases at_ : s.fanPc with
          | judge => simp [Looks, at_] at missed
          | look =>
            have other := mt (look_judging (b := b) marked at_).mp missed
            have under : (step b (.fan true) s).fanPc = .judge := by
              by_contra ended
              exact other (fun judge => absurd judge ended)
            exact ⟨under, other⟩
    have last := run_invariant (I := fun s => s.fanPc = .judge ∧ ¬ Judging s) wrong_step
      meets.2 wrong
    rw [run_cons, last.1] at whole
    cases whole

end Checks

/-- In every order of captures, checks and reports the flag is set and cleared as it should,
where each capture that a check finds has a width, no check that finds none comes behind one
that found some, and each report gets its block and is written in full. And where no check is
under way at the end of a run, the two conditions on the checks are needed. -/
theorem fan_warn_checked (b : Board) (st : MqttThread.St) (labels : List Label) :
    (Along (step b) (Sound b) labels (start st) → Along (step b) (Meets b) labels (start st)) ∧
      ((run (step b) labels (start st)).fanPc = .look →
        Along (step b) (Meets b) labels (start st) →
          Along (step b) Looks labels (start st)) := by
  have clear : (0 : UInt8) &&& 0x80 = 0 := by decide
  have marked : Marked (start st) := iff_of_false Bool.false_ne_true (fun high => high clear)
  constructor
  · intro sound
    have inv := along_invariant (I := fun s => Marked s ∧ Judging s ∧ Reported b s)
      (fun label s sound inv => ⟨step_marked label s inv.1,
        step_judging label s sound.1 inv.1 inv.2.1, step_reported label s sound.2 inv.2.2⟩)
      sound ⟨marked, fun judge => (by cases judge), fun behind => by
        simp only [start] at behind
        split at behind <;> cases behind⟩
    exact along_mono (fun label s held => meets_of_inv label s held.2.2.1 held.2.2.2) inv
  · intro whole meets
    exact looks_of_meets marked meets whole

def connected : MqttThread.St := { mqttThread (startOn []) with connectFlag := true }

def due : Env :=
  { calm with
    sendNow := 2000
    writeRc := fun _ => (eventPacket blankBoard "fan is not work" 0 1).length }

/-- A check of a fan that stands, the report of it between the edges of the next pulse, and the
check that finds this pulse. -/
def restarted : List Label :=
  [.fan true, .thread due, .fan true, .thread due, .irq false true 0, .thread due, .thread due,
    .irq false true 100, .fan true, .thread due, .fan true, .thread due]

theorem fan_warn_checked_restarted :
    (run (step blankBoard) (restarted.take 3) (start connected)).st.fanWarn = true ∧
      Along (step blankBoard) (Meets blankBoard) restarted (start connected) ∧
      Along (step blankBoard) Looks restarted (start connected) := by
  have meets := (fan_warn_checked blankBoard connected restarted).1 (by decide +kernel)
  exact ⟨by decide +kernel, meets,
    (fan_warn_checked blankBoard connected restarted).2 (by decide +kernel) meets⟩

def stopped : List Label :=
  [.irq false true 0, .irq false true 100, .fan true, .fan true, .fan true]

/-- The second check of such a fan clears the flag as well. -/
theorem fan_warn_stopped :
    ¬ ∀ (b : Board) (st : MqttThread.St) (labels : List Label),
      Along (step b) (Meets b) labels (start st) := by
  intro all
  have meets := along_iff.mp (all blankBoard (mqttThread (startOn [])) (stopped ++ [.fan true]))
    stopped (.fan true) (List.prefix_refl _)
  have judged := meets.judged true rfl (by decide +kernel)
  exact absurd judged (by decide +kernel)

end BoxFirmware.FanWarn
