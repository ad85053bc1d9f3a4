import BoxFirmware.MqttTurn

/-! The door alarm: `EXTI9_5_IRQHandler` sets `door_flag` between any two steps of
`mqtt_thread`, which tests the flag, builds and sends a report and then clears it. The report
is cut into its statements; what the thread does elsewhere never looks at the flag, and a run
of reports, of the switch or of the read is one step. The log keeps the interrupts of the
door line, the start of each report's serialization, what was written of it, and the clears. -/
namespace BoxFirmware.DoorAlarm
open ByteMem CText Malloc MqttPacket W25qxx MqttThread GuardedRun

inductive Alarm
  | interrupt
  | serialize
  | sent (packet : List UInt8) (rc : Int)
  | clear
  deriving DecidableEq

/-- The next statement of the thread; a pointer is `rdbuf`, and `len` the packet's length. -/
inductive Pc
  | top
  | test
  | alloc
  | serialize (ptr : Nat)
  | send (ptr : Nat) (len : Int)
  | clear (ptr : Nat)
  | free (ptr : Nat)
  | wipe
  | reports
  | switch
  | halted
  deriving DecidableEq

structure Door where
  st : St
  pc : Pc
  log : List Alarm

def exti9_5IRQHandler (line7 : Bool) (s : Door) : Door :=
  if line7 then { s with st := { s.st with doorFlag := true }, log := s.log ++ [.interrupt] } else s

def threadStep (b : Board) (env : Env) (s : Door) : Door :=
  match s.pc with
  | .top =>
    let st := pingTimer env { s.st with fanWarn := env.fanSet.getD s.st.fanWarn, log := [] }
    if st.connectFlag ∧ env.sendNow - st.sendtick ≥ 10 * 200 then
      { s with
        st := { st.emit [.uart (ascii "displaynew\r\n")] with sendtick := env.sendSet }
        pc := .test }
    else { s with st := st, pc := .switch }
  | .test => { s with pc := if s.st.doorFlag then .alloc else .reports }
  | .alloc =>
    let r := mallocSramin b 256 s.st
    { s with st := r.2, pc := .serialize r.1 }
  | .serialize ptr =>
    let r := mqttSerializePublish s.st.buf buflen 0 publishReqQos s.st.retained s.st.msgid
      devicePublish (if ptr = 0 then b.nullText else eventText b "open the door")
    { st := { s.st with buf := r.2 }, pc := .send ptr r.1, log := s.log ++ [.serialize] }
  | .send ptr len =>
    let packet := sentBytes (len, s.st.buf)
    { st := s.st.emit [.sent s.st.mysock packet len (env.writeRc .door)]
      pc := .clear ptr
      log := s.log ++ [.sent packet (env.writeRc .door)] }
  | .clear ptr =>
    { st := { s.st with doorFlag := false }, pc := .free ptr, log := s.log ++ [.clear] }
  | .free ptr => { s with st := freeSramin b ptr s.st, pc := .wipe }
  | .wipe => { s with st := { s.st with buf := zeroBuf }, pc := .reports }
  | .reports =>
    { s with st := mailReport b env (initReport b env (fanReport b env s.st)), pc := .switch }
  | .switch =>
    let st := dispatch b env { s.st with log := [] }
    if st.halted then { s with st := st, pc := .halted }
    else { s with st := (receive env st).2, pc := .top }
  | .halted => s

inductive Label
  | exti (line7 : Bool)
  | thread (env : Env)

def step (b : Board) : Label → Door → Door
  | .exti line7, s => exti9_5IRQHandler line7 s
  | .thread env, s => threadStep b env s

/-- The thread at the top of its loop, before any interrupt. -/
def start (st : St) : Door := ⟨st, if st.halted then .halted else .top, []⟩

section Turn

variable {b : Board} {env : Env} {s : Door}

theorem door_eventually (at_ : s.pc = .test) :
    Eventually (step b) (.thread env)
      (fun t => t.pc = .reports ∧ t.st = doorReport b env s.st) s := by
  cases flag : s.st.doorFlag with
  | false =>
    apply eventually_next (t := { s with pc := .reports }) (by simp [step, threadStep, at_, flag])
    apply eventually_now
    simp [doorReport, flag]
  | true =>
    apply eventually_next (by simp only [step, threadStep, at_, flag, if_true]; rfl)
    apply eventually_step
    apply eventually_step
    apply eventually_step
    apply eventually_step
    apply eventually_step
    apply eventually_step
    apply eventually_now
    simp only [step, threadStep, doorReport, flag, if_true, eventReport, sendPublish, sendPacket,
      mallocSramin, freeSramin, St.emit, true_and]

theorem switch_eventually (at_ : s.pc = .switch) :
    Eventually (step b) (.thread env) (fun t =>
      let after := dispatch b env { s.st with log := [] }
      t.st = (if after.halted then after else (receive env after).2) ∧
        t.pc = if after.halted then .halted else .top) s := by
  apply eventually_step
  apply eventually_now
  simp only [step, threadStep, at_]
  split <;> exact ⟨rfl, rfl⟩

theorem wake_closed (st : St) (closed : env.doorOpened = false) : wake env st =
    pingTimer env { st with fanWarn := env.fanSet.getD st.fanWarn, log := [] } := by
  rw [wake, closed, Bool.or_false]

theorem top_eventually (at_ : s.pc = .top) (closed : env.doorOpened = false) :
    Eventually (step b) (.thread env)
      (fun t => t.pc = .switch ∧ t.st = beforeSwitch b env s.st) s := by
  by_cases due : (wake env s.st).connectFlag ∧ env.sendNow - (wake env s.st).sendtick ≥ 10 * 200
  · rw [beforeSwitch, timedReports, if_pos due]
    rw [wake_closed s.st closed] at due ⊢
    apply eventually_next (by simp only [step, threadStep, at_, if_pos due]; rfl)
    apply eventually_trans (door_eventually rfl)
    rintro t ⟨atReports, report⟩
    apply eventually_step
    apply eventually_now
    simp only [step, threadStep, atReports, report, and_self]
  · rw [beforeSwitch, timedReports, if_neg due]
    rw [wake_closed s.st closed] at due ⊢
    apply eventually_next (by simp only [step, threadStep, at_, if_neg due]; rfl)
    apply eventually_now
    exact ⟨rfl, rfl⟩

theorem receive_halted (st : St) : (receive env st).2.halted = st.halted := by
  unfold receive
  dsimp only
  split <;> rfl

/-- Without an interrupt the steps of a turn do what `iteration` says. -/
theorem turn_eventually (at_ : s.pc = .top) (running : s.st.halted = false)
    (closed : env.doorOpened = false) :
    Eventually (step b) (.thread env) (fun t =>
      t.st = (iteration b env s.st).2 ∧ t.pc = if t.st.halted then .halted else .top) s := by
  apply eventually_trans (top_eventually at_ closed)
  rintro t ⟨atSwitch, before⟩
  apply eventually_mono (switch_eventually atSwitch)
  intro u after
  rw [before, ← afterSwitch] at after
  rw [iteration_state running]
  refine ⟨after.1, after.2.trans ?_⟩
  rw [after.1]
  cases halts : (afterSwitch b env s.st).halted with
  | true => rw [if_pos rfl, if_pos rfl, halts, if_pos rfl]
  | false => simp only [halts, receive_halted, Bool.false_eq_true, if_false]

end Turn

section Flag

variable (b : Board) (env : Env) (st : St)

theorem fanReport_doorFlag : (fanReport b env st).doorFlag = st.doorFlag := by
  unfold fanReport
  split
  · exact congrArg Prod.fst (eventReport_raised b env st .fan _)
  · rfl

theorem threadStep_doorFlag (s : Door) (other : ∀ ptr, s.pc ≠ .clear ptr) :
    (threadStep b env s).st.doorFlag = s.st.doorFlag := by
  unfold threadStep
  split
  · dsimp only
    split <;> exact congrArg Prod.fst (pingTimer_raised env _)
  · rfl
  · rfl
  · rfl
  · rfl
  · exact absurd ‹_› (other _)
  · rfl
  · rfl
  · dsimp only
    have mail := congrArg Prod.fst (mailReport_raised b env (initReport b env (fanReport b env s.st)))
    have init := congrArg Prod.fst (initReport_raised b env (fanReport b env s.st))
    exact (mail.trans init).trans (fanReport_doorFlag b env s.st)
  · dsimp only
    have answer := congrArg Prod.fst (dispatch_raised b env { s.st with log := [] })
    split
    · exact answer
    · exact (congrArg Prod.fst (receive_raised env _)).trans answer
  · rfl

end Flag

section Reports

def doorPacket (b : Board) (retained msgid : Nat) : List UInt8 :=
  publishPacket 0 publishReqQos retained msgid devicePublish (eventText b "open the door")

def Reports (b : Board) (log : List Alarm) : Prop :=
  ∃ pre mid post retained msgid, log = pre ++ .serialize :: mid ++
    .sent (doorPacket b retained msgid) (doorPacket b retained msgid).length :: post

/-- Behind every interrupt there is a report. -/
def Answered (b : Board) (log : List Alarm) : Prop :=
  ∀ pre post, log = pre ++ .interrupt :: post → Reports b post

/-- A clear comes behind a report of its own, and of every interrupt before it. -/
def Earned (b : Board) (past : List Alarm) : Alarm → Prop
  | .clear => Answered b past ∧ ∃ pre post, past = pre ++ post ∧ .clear ∉ post ∧ Reports b post
  | _ => True

/-- A report has been serialized and the flag is still set for it. -/
def Pc.reporting : Pc → Bool
  | .send _ _ | .clear _ => true
  | _ => false

def Pc.len : Pc → Option Int
  | .send _ len => some len
  | _ => none

/-- No interrupt comes between the start of a report's serialization and the clear; the
report gets its block and is written in full. -/
def Careful (b : Board) : Label → Door → Prop
  | .exti line7, s => s.pc.reporting = true → line7 = false
  | .thread env, s => (s.pc = .alloc → (mallocSramin b 256 s.st).1 ≠ 0) ∧
      ∀ len ∈ s.pc.len, env.writeRc .door = len

instance (b : Board) : (label : Label) → (s : Door) → Decidable (Careful b label s)
  | .exti _, _ => inferInstanceAs (Decidable (_ → _))
  | .thread _, _ => inferInstanceAs (Decidable (_ ∧ _))

theorem reports_concat {b : Board} {log : List Alarm} (e : Alarm) (reports : Reports b log) :
    Reports b (log ++ [e]) := by
  obtain ⟨pre, mid, post, retained, msgid, rfl⟩ := reports
  refine ⟨pre, mid, post ++ [e], retained, msgid, ?_⟩
  simp only [List.append_assoc, List.cons_append]

theorem answered_concat {b : Board} {log : List Alarm} {e : Alarm} (other : e ≠ .interrupt)
    (answered : Answered b log) : Answered b (log ++ [e]) := by
  intro pre post split
  rcases List.eq_nil_or_concat post with last | ⟨front, f, rfl⟩
  · rw [last] at split
    exact absurd (List.singleton_inj.mp (List.append_inj' split rfl).2) other
  · rw [List.concat_eq_append, ← List.cons_append, ← List.append_assoc] at split
    obtain ⟨same, last⟩ := List.append_inj' split rfl
    rw [List.concat_eq_append]
    exact reports_concat f (answered pre front same)

def JustSent (b : Board) (log : List Alarm) : Prop :=
  ∃ front retained msgid, log = front ++ [.serialize,
    .sent (doorPacket b retained msgid) (doorPacket b retained msgid).length]

theorem justSent_answered {b : Board} {log : List Alarm} (sent : JustSent b log) :
    Answered b log := by
  obtain ⟨front, retained, msgid, rfl⟩ := sent
  intro pre post split
  obtain ⟨behind, -, inside⟩ | ⟨between, -, later⟩ := List.append_eq_append_iff.mp split
  · have member : Alarm.interrupt ∈ behind ++ .interrupt :: post := by simp
    rw [← inside] at member
    simp at member
  · cases between with
    | nil => simp at later
    | cons e between =>
      obtain ⟨-, rest⟩ := List.cons.inj later
      exact ⟨between, [], [], retained, msgid, by simpa using rest⟩

theorem justSent_earned {b : Board} {log : List Alarm} (sent : JustSent b log) :
    Earned b log .clear := by
  refine ⟨justSent_answered sent, ?_⟩
  obtain ⟨front, retained, msgid, rfl⟩ := sent
  refine ⟨front, _, rfl, by simp, [], [], [], retained, msgid, rfl⟩

end Reports

section Invariant

def Stage (b : Board) (s : Door) : Prop :=
  match s.pc with
  | .serialize ptr => ptr ≠ 0
  | .send _ len => ∃ front retained msgid, s.log = front ++ [.serialize] ∧
      sentBytes (len, s.st.buf) = doorPacket b retained msgid ∧
      len = (doorPacket b retained msgid).length
  | .clear _ => JustSent b s.log
  | _ => True

structure Inv (b : Board) (s : Door) : Prop where
  earned : Justified (Earned b) s.log
  quiet : s.st.doorFlag = false → Answered b s.log
  stage : Stage b s

def Pc.rests : Pc → Bool
  | .alloc | .serialize _ | .send _ _ | .clear _ => false
  | _ => true

theorem inv_start (b : Board) (st : St) : Inv b (start st) := by
  refine ⟨justified_nil, fun _ pre post split => by simp [start] at split, ?_⟩
  unfold start Stage
  split_ifs <;> trivial

theorem inv_exti {b : Board} {line7 : Bool} {s : Door} (careful : Careful b (.exti line7) s)
    (inv : Inv b s) : Inv b (exti9_5IRQHandler line7 s) := by
  unfold exti9_5IRQHandler
  split
  · rename_i opened
    refine ⟨(justified_concat s.log _).mpr ⟨inv.earned, trivial⟩, nofun, ?_⟩
    cases at_ : s.pc with
    | serialize ptr => simpa only [Stage, at_] using inv.stage
    | send ptr len => simp [Careful, Pc.reporting, at_, opened] at careful
    | clear ptr => simp [Careful, Pc.reporting, at_, opened] at careful
    | _ => simp only [Stage]
  · exact inv

theorem inv_moved {b : Board} {s t : Door} (inv : Inv b s) (flag : t.st.doorFlag = s.st.doorFlag)
    (log : t.log = s.log ∨ ∃ e, t.log = s.log ++ [e] ∧ e ≠ .interrupt ∧ e ≠ .clear)
    (stage : Stage b t) : Inv b t := by
  obtain same | ⟨e, same, other, kept⟩ := log
  · refine ⟨?_, ?_, stage⟩
    · rw [same]
      exact inv.earned
    · rw [flag, same]
      exact inv.quiet
  · refine ⟨?_, ?_, stage⟩
    · rw [same, justified_concat]
      refine ⟨inv.earned, ?_⟩
      cases e with
      | clear => exact absurd rfl kept
      | _ => trivial
    · intro closed
      rw [flag] at closed
      rw [same]
      exact answered_concat other (inv.quiet closed)

theorem rest_step (b : Board) (env : Env) {s : Door} (rest : s.pc.rests = true) :
    (threadStep b env s).log = s.log ∧ Stage b (threadStep b env s) := by
  unfold threadStep
  cases at_ : s.pc with
  | top =>
    dsimp only
    split <;> exact ⟨rfl, trivial⟩
  | test =>
    dsimp only
    cases s.st.doorFlag <;> exact ⟨rfl, trivial⟩
  | switch =>
    dsimp only
    split <;> exact ⟨rfl, trivial⟩
  | halted => exact ⟨rfl, by simp only [Stage, at_]⟩
  | alloc | serialize _ | send _ _ | clear _ =>
    rw [at_] at rest
    cases rest
  | _ => exact ⟨rfl, trivial⟩

theorem inv_thread {b : Board} {env : Env} {s : Door} (careful : Careful b (.thread env) s)
    (inv : Inv b s) : Inv b (threadStep b env s) := by
  have flag := threadStep_doorFlag b env s
  have stage := inv.stage
  cases at_ : s.pc with
  | alloc =>
    apply inv_moved inv (flag (by simp [at_]))
    · simp only [threadStep, at_, true_or]
    · simpa only [threadStep, at_, Stage] using careful.1 at_
  | serialize ptr =>
    simp only [Stage, at_] at stage
    apply inv_moved inv (flag (by simp [at_]))
    · simp [threadStep, at_]
    · obtain ⟨bytes, full⟩ := serialize_event b "open the door" (by decide) s.st.buf s.st.retained
        s.st.msgid
      simp only [threadStep, at_, Stage, if_neg stage]
      exact ⟨s.log, s.st.retained, s.st.msgid, rfl, bytes, full⟩
  | send ptr len =>
    simp only [Stage, at_] at stage
    have full := careful.2 len (by simp [Pc.len, at_])
    apply inv_moved inv (flag (by simp [at_]))
    · simp [threadStep, at_]
    · obtain ⟨front, retained, msgid, log, bytes, count⟩ := stage
      simp only [threadStep, at_, Stage]
      rw [log, bytes, full, count, List.append_assoc]
      exact ⟨front, retained, msgid, rfl⟩
  | clear ptr =>
    simp only [Stage, at_] at stage
    have cleared : threadStep b env s =
        ⟨{ s.st with doorFlag := false }, .free ptr, s.log ++ [.clear]⟩ := by
      simp only [threadStep, at_]
    rw [cleared]
    refine ⟨(justified_concat s.log _).mpr ⟨inv.earned, justSent_earned stage⟩, ?_, trivial⟩
    intro _
    exact answered_concat nofun (justSent_answered stage)
  | _ =>
    obtain ⟨log, next⟩ := rest_step b env (by rw [at_]; rfl)
    exact inv_moved inv (flag (by simp [at_])) (.inl log) next

theorem inv_step {b : Board} {label : Label} {s : Door} (careful : Careful b label s)
    (inv : Inv b s) : Inv b (step b label s) := by
  cases label with
  | exti line7 => exact inv_exti careful inv
  | thread env => exact inv_thread careful inv

/-- In a run without such an interrupt and such a failure the flag is only cleared when all
interrupts have been reported, and none of them is left out while it is not set. -/
theorem door_reports (b : Board) (st : St) (labels : List Label)
    (careful : Along (step b) (Careful b) labels (start st)) : ∀ pre, pre <+: labels →
      Justified (Earned b) (run (step b) pre (start st)).log ∧
        ((run (step b) pre (start st)).st.doorFlag = false →
          Answered b (run (step b) pre (start st)).log) := by
  intro pre shorter
  have inv := run_invariant (fun _ _ => inv_step) (along_shorter shorter careful) (inv_start b st)
  exact ⟨inv.earned, inv.quiet⟩

end Invariant

section Examples

def connected : St := { mqttThread (startOn []) with connectFlag := true }

def due : Env :=
  { calm with sendNow := 2000, writeRc := fun _ => (doorPacket blankBoard 0 1).length }

def reported : List Label := .exti true :: List.replicate 8 (.thread due)

theorem door_reports_one :
    Justified (Earned blankBoard) (run (step blankBoard) reported (start connected)).log ∧
      ((run (step blankBoard) reported (start connected)).st.doorFlag = false →
        Answered blankBoard (run (step blankBoard) reported (start connected)).log) :=
  door_reports blankBoard connected reported (by decide +kernel) reported (List.prefix_refl _)

def swallowed : List Label :=
  .exti true :: List.replicate 5 (.thread due) ++ [.exti true, .thread due]

def unsent : List Label :=
  .exti true :: List.replicate 6 (.thread { due with writeRc := fun _ => -1 })

theorem door_swallowed :
    ¬ Justified (Earned blankBoard) (run (step blankBoard) swallowed (start connected)).log ∧
      ¬ Justified (Earned blankBoard) (run (step blankBoard) unsent (start connected)).log := by
  have written : ∀ log, Reports blankBoard log → ∃ packet, ∃ n : Nat, .sent packet n ∈ log := by
    rintro log ⟨pre, mid, post, retained, msgid, rfl⟩
    exact ⟨doorPacket blankBoard retained msgid, _, List.mem_append_right _ List.mem_cons_self⟩
  constructor
  · have ends : (run (step blankBoard) swallowed (start connected)).log.drop 3 =
        [.interrupt, .clear] := by decide +kernel
    generalize (run (step blankBoard) swallowed (start connected)).log = log at ends
    intro earned
    have clear := earned (log.take 3 ++ [.interrupt]) .clear [] (by
      rw [List.append_assoc, List.singleton_append, ← ends, List.take_append_drop])
    obtain ⟨packet, n, member⟩ := written [] (clear.1 (log.take 3) [] rfl)
    cases member
  · have log : (run (step blankBoard) unsent (start connected)).log =
        [.interrupt, .serialize, .sent (doorPacket blankBoard 0 1) (-1), .clear] := by
      decide +kernel
    rw [log]
    intro earned
    have clear := earned [.interrupt, .serialize, .sent (doorPacket blankBoard 0 1) (-1)] .clear [] rfl
    obtain ⟨packet, n, member⟩ := written _ (clear.1 [] _ rfl)
    simp at member

end Examples

end BoxFirmware.DoorAlarm
