import BoxFirmware.Dht11Task
import BoxFirmware.MqttTurn

/-! The byte `mode`: `mqtt_thread` writes it for the commands `switch` and `setMode`, and
`dht11_task` looks at it for each report. The three `if`s of the report are cut into the test,
the clear of a feedback and the `sprintf`, so that a command can come in between. The log keeps
the commands and the reports that are formatted. -/
namespace BoxFirmware.WorkMode
open ByteMem CText Dht11Task GuardedRun OsMbox

section Commands

inductive Command
  | switch
  | setMode (operation : Bool)
  deriving DecidableEq

def Command.value : Command → Nat
  | .switch => 3
  | .setMode true => 1
  | .setMode false => 0

def commandsOf (text : List UInt8) : List Command :=
  (if MqttThread.has text "switch" then [.switch] else []) ++
    if !MqttThread.has text "reset" && MqttThread.has text "setMode" then
      [.setMode (MqttThread.has text "operation")]
    else []

def modeWritten : MqttThread.Event → Option Nat
  | .mode value => some value
  | _ => none

theorem commands_modes (text : List UInt8) (st : MqttThread.St) :
    (MqttThread.commands text st).log.filterMap modeWritten =
      st.log.filterMap modeWritten ++ (commandsOf text).map Command.value := by
  rw [MqttThread.commands_eq, List.filterMap_append, MqttThread.commandEvents, commandsOf]
  cases MqttThread.has text "switch" <;> cases MqttThread.has text "reset" <;>
    cases MqttThread.has text "setMode" <;> cases MqttThread.has text "restart" <;>
    cases MqttThread.has text "operation" <;> rfl

end Commands

inductive Branch
  | clear
  | format (form : Form)
  deriving DecidableEq

inductive Entry
  | command (c : Command)
  | report (form : Form)
  deriving DecidableEq

structure Modes where
  task : St
  branch : Option Branch
  log : List Entry

inductive Label
  | command (c : Command)
  | task (r : Readings)
  | usart (dr : Option UInt8)
  | poll (rc : Int)
  | tick

def branchOf : Form → Branch
  | .feedback => .clear
  | form => .format form

def taskStep (clientId : Nat) (r : Readings) (s : Modes) : Modes :=
  match s.branch with
  | some .clear =>
    { s with task := { s.task with mode := 0 }, branch := some (.format .feedback) }
  | some (.format form) =>
    { task := { s.task with pc := .head form 0 (payloadHead clientId form s.task.timeBuf r) }
      branch := none
      log := s.log ++ [.report form] }
  | none =>
    match s.task.pc with
    | .test form =>
      if s.task.mode = form.mode then { s with branch := some (branchOf form) }
      else { s with task := { s.task with pc := form.next } }
    | _ => { s with task := dht11Task clientId r s.task }

def step (clientId : Nat) : Label → Modes → Modes
  | .command c, s =>
    { s with task := { s.task with mode := c.value }, log := s.log ++ [.command c] }
  | .task r, s => taskStep clientId r s
  | .usart dr, s => { s with task := usartStep dr s.task }
  | .poll rc, s => { s with task := pollStep rc s.task }
  | .tick, s => { s with task := Dht11Task.step clientId .tick s.task }

def start (buf : Mem) : Modes := ⟨Dht11Task.start buf 0, none, []⟩

theorem task_eventually (clientId : Nat) (r : Readings) {s : Modes} (outside : s.branch = none) :
    Eventually (step clientId) (.task r)
      (fun t => t.branch = none ∧ t.task = dht11Task clientId r s.task) s := by
  apply eventually_step
  cases at_ : s.task.pc with
  | test form =>
    by_cases same : s.task.mode = form.mode
    · have taken : step clientId (.task r) s = { s with branch := some (branchOf form) } := by
        simp only [step, taskStep, outside, at_, if_pos same]
      rw [taken]
      cases form with
      | feedback =>
        apply eventually_step
        apply eventually_step
        apply eventually_now
        simp only [step, taskStep, branchOf, dht11Task, at_, testStep, if_pos same, if_true, and_self]
      | timing1 | timing0 =>
        apply eventually_step
        apply eventually_now
        simp [step, taskStep, branchOf, dht11Task, at_, testStep, same]
    · apply eventually_now
      simp only [step, taskStep, outside, at_, if_neg same, dht11Task, testStep, and_self]
  | _ =>
    apply eventually_now
    simp only [step, taskStep, outside, at_, and_self]

section History

/-- The last `setMode` selected operation. -/
def operating (log : List Entry) : Bool :=
  log.foldl (fun before e => match e with
    | .command (.setMode operation) => operation
    | _ => before) false

/-- There has been a `switch` since the last report. -/
def requested (log : List Entry) : Bool :=
  log.foldl (fun before e => match e with
    | .command .switch => true
    | .report _ => false
    | _ => before) false

/-- A report gives the state that was selected, and is a feedback when one was requested. -/
def Truthful (past : List Entry) : Entry → Prop
  | .report form => (form.workState = "1" ↔ operating past = true) ∧
      (requested past = true → form.messageType = "state_feedback")
  | .command _ => True

/-- No `switch` comes in operation or in front of the `sprintf` of a timed report, and no
`setMode` takes a request away or contradicts a report that is about to be formatted. -/
def Obeyed : Label → Modes → Prop
  | .command .switch, s => s.task.mode ≠ 1 ∧
      s.branch ≠ some (.format .timing1) ∧ s.branch ≠ some (.format .timing0)
  | .command (.setMode true), s => s.task.mode ≠ 3 ∧ s.branch ≠ some (.format .timing0) ∧
      s.branch ≠ some .clear ∧ s.branch ≠ some (.format .feedback)
  | .command (.setMode false), s => s.branch ≠ some (.format .timing1) ∧
      (s.task.mode = 3 → s.branch = some .clear ∨ s.branch = some (.format .feedback))
  | _, _ => True

instance : (label : Label) → (s : Modes) → Decidable (Obeyed label s)
  | .command .switch, _ => inferInstanceAs (Decidable (_ ∧ _))
  | .command (.setMode true), _ => inferInstanceAs (Decidable (_ ∧ _))
  | .command (.setMode false), _ => inferInstanceAs (Decidable (_ ∧ _))
  | .task _, _ => inferInstanceAs (Decidable True)
  | .usart _, _ => inferInstanceAs (Decidable True)
  | .poll _, _ => inferInstanceAs (Decidable True)
  | .tick, _ => inferInstanceAs (Decidable True)

end History

section Invariant

def Agrees (mode : Nat) (operates requests : Bool) : Option Branch → Prop
  | none => (mode = 1 ∧ operates = true ∧ requests = false) ∨
      (mode = 0 ∧ operates = false ∧ requests = false) ∨ (mode = 3 ∧ operates = false)
  | some (.format .timing1) => mode = 1 ∧ operates = true ∧ requests = false
  | some (.format .timing0) => mode = 0 ∧ operates = false ∧ requests = false
  | some .clear => (mode = 0 ∨ mode = 3) ∧ operates = false
  | some (.format .feedback) => (mode = 0 ∨ mode = 3) ∧ operates = false

structure Inv (s : Modes) : Prop where
  truthful : Justified Truthful s.log
  agrees : Agrees s.task.mode (operating s.log) (requested s.log) s.branch

theorem operating_concat (log : List Entry) (e : Entry) :
    operating (log ++ [e]) = match e with
      | .command (.setMode operation) => operation
      | _ => operating log := by
  simp only [operating, List.foldl_concat]

theorem requested_concat (log : List Entry) (e : Entry) :
    requested (log ++ [e]) = match e with
      | .command .switch => true
      | .report _ => false
      | _ => requested log := by
  simp only [requested, List.foldl_concat]

theorem agrees_switch {mode : Nat} {operates requests : Bool} {branch : Option Branch}
    (agrees : Agrees mode operates requests branch) (rests : mode ≠ 1)
    (timing1 : branch ≠ some (.format .timing1)) (timing0 : branch ≠ some (.format .timing0)) :
    Agrees 3 operates true branch := by
  match branch with
  | none =>
    obtain ⟨on, -⟩ | ⟨-, off, -⟩ | ⟨-, off⟩ := agrees
    · exact absurd on rests
    · exact .inr (.inr ⟨rfl, off⟩)
    · exact .inr (.inr ⟨rfl, off⟩)
  | some .clear => exact ⟨.inr rfl, agrees.2⟩
  | some (.format .feedback) => exact ⟨.inr rfl, agrees.2⟩
  | some (.format .timing1) => exact absurd rfl timing1
  | some (.format .timing0) => exact absurd rfl timing0

theorem agrees_operation {mode : Nat} {operates requests : Bool} {branch : Option Branch}
    (agrees : Agrees mode operates requests branch) (idle : mode ≠ 3)
    (timing0 : branch ≠ some (.format .timing0)) (clear : branch ≠ some .clear)
    (feedback : branch ≠ some (.format .feedback)) : Agrees 1 true requests branch := by
  match branch with
  | none =>
    obtain ⟨-, -, none⟩ | ⟨-, -, none⟩ | ⟨pending, -⟩ := agrees
    · exact .inl ⟨rfl, rfl, none⟩
    · exact .inl ⟨rfl, rfl, none⟩
    · exact absurd pending idle
  | some .clear => exact absurd rfl clear
  | some (.format .feedback) => exact absurd rfl feedback
  | some (.format .timing1) => exact ⟨rfl, rfl, agrees.2.2⟩
  | some (.format .timing0) => exact absurd rfl timing0

theorem agrees_rest {mode : Nat} {operates requests : Bool} {branch : Option Branch}
    (agrees : Agrees mode operates requests branch) (timing1 : branch ≠ some (.format .timing1))
    (pending : mode = 3 → branch = some .clear ∨ branch = some (.format .feedback)) :
    Agrees 0 false requests branch := by
  match branch with
  | none =>
    obtain ⟨-, -, none⟩ | ⟨-, -, none⟩ | ⟨request, -⟩ := agrees
    · exact .inr (.inl ⟨rfl, rfl, none⟩)
    · exact .inr (.inl ⟨rfl, rfl, none⟩)
    · simp at pending
      exact absurd request pending
  | some .clear => exact ⟨.inl rfl, rfl⟩
  | some (.format .feedback) => exact ⟨.inl rfl, rfl⟩
  | some (.format .timing1) => exact absurd rfl timing1
  | some (.format .timing0) => exact ⟨rfl, rfl, agrees.2.2⟩

theorem inv_command {c : Command} {clientId : Nat} {s : Modes} (obeyed : Obeyed (.command c) s)
    (inv : Inv s) : Inv (step clientId (.command c) s) := by
  refine ⟨(justified_concat s.log _).mpr ⟨inv.truthful, trivial⟩, ?_⟩
  simp only [step]
  rw [operating_concat, requested_concat]
  match c with
  | .switch => exact agrees_switch inv.agrees obeyed.1 obeyed.2.1 obeyed.2.2
  | .setMode true =>
    exact agrees_operation inv.agrees obeyed.1 obeyed.2.1 obeyed.2.2.1 obeyed.2.2.2
  | .setMode false => exact agrees_rest inv.agrees obeyed.1 obeyed.2

theorem agrees_report {mode : Nat} {log : List Entry} {form : Form}
    (agrees : Agrees mode (operating log) (requested log) (some (.format form))) :
    Truthful log (.report form) ∧ Agrees mode (operating log) false none := by
  cases form with
  | timing1 =>
    obtain ⟨on, operates, none⟩ := agrees
    refine ⟨⟨by simp [Form.workState, operates], by simp [none]⟩, .inl ⟨on, operates, rfl⟩⟩
  | timing0 =>
    obtain ⟨off, rests, none⟩ := agrees
    refine ⟨⟨by simp [Form.workState, rests], by simp [none]⟩, .inr (.inl ⟨off, rests, rfl⟩)⟩
  | feedback =>
    obtain ⟨byte, rests⟩ := agrees
    refine ⟨⟨by simp [Form.workState, rests], fun _ => rfl⟩, ?_⟩
    obtain off | pending := byte
    · exact .inr (.inl ⟨off, rests, rfl⟩)
    · exact .inr (.inr ⟨pending, rests⟩)

theorem agrees_taken {mode : Nat} {operates requests : Bool} {form : Form}
    (agrees : Agrees mode operates requests none) (same : mode = form.mode) :
    Agrees mode operates requests (some (branchOf form)) := by
  cases form <;> simp only [Form.mode] at same <;> simpa [Agrees, branchOf, same] using agrees

theorem dht11Task_mode (clientId : Nat) (r : Readings) (s : St)
    (elsewhere : ∀ form, s.pc ≠ .test form) : (dht11Task clientId r s).mode = s.mode := by
  unfold dht11Task
  split
  case h_2 =>
    unfold blockedStep
    split <;> rfl
  case h_3 =>
    unfold scanStep
    split <;> rfl
  case h_5 =>
    unfold waitGpsStep
    split <;> rfl
  case h_6 form at_ => exact absurd at_ (elsewhere form)
  case h_7 =>
    unfold headStep
    split <;> rfl
  case h_8 =>
    unfold chnlsStep
    split <;> rfl
  case h_9 =>
    unfold tailStep
    split <;> rfl
  case h_10 =>
    unfold copyStep
    split <;> rfl
  case h_12 =>
    unfold clearStep
    split <;> rfl
  all_goals rfl

theorem pollStep_mode (rc : Int) (s : St) : (pollStep rc s).mode = s.mode := by
  unfold pollStep
  split
  case h_1 => rfl
  case h_2 => split <;> rfl
  case h_3 => split <;> rfl
  case h_4 => split <;> rfl
  case h_5 => rfl

theorem inv_task {clientId : Nat} {r : Readings} {s : Modes} (inv : Inv s) :
    Inv (taskStep clientId r s) := by
  have agrees := inv.agrees
  unfold taskStep
  match at_ : s.branch with
  | some .clear =>
    rw [at_] at agrees
    exact ⟨inv.truthful, .inl rfl, agrees.2⟩
  | some (.format form) =>
    rw [at_] at agrees
    obtain ⟨truthful, next⟩ := agrees_report agrees
    refine ⟨(justified_concat s.log _).mpr ⟨inv.truthful, truthful⟩, ?_⟩
    rw [operating_concat, requested_concat]
    exact next
  | none =>
    rw [at_] at agrees
    dsimp only
    split
    · rename_i form pc
      split
      · rename_i same
        exact ⟨inv.truthful, agrees_taken agrees same⟩
      · exact ⟨inv.truthful, agrees⟩
    · rename_i elsewhere
      refine ⟨inv.truthful, ?_⟩
      rw [dht11Task_mode clientId r s.task elsewhere]
      exact agrees

theorem inv_step {clientId : Nat} {label : Label} {s : Modes} (obeyed : Obeyed label s)
    (inv : Inv s) : Inv (step clientId label s) := by
  cases label with
  | command c => exact inv_command obeyed inv
  | task r => exact inv_task inv
  | usart dr => exact ⟨inv.truthful, inv.agrees⟩
  | poll rc =>
    refine ⟨inv.truthful, ?_⟩
    simp only [step]
    rw [pollStep_mode]
    exact inv.agrees
  | tick => exact ⟨inv.truthful, inv.agrees⟩

/-- In a run without such commands every report gives the state that was selected last, and
the first one behind a `switch` is a feedback. -/
theorem work_mode_reports (clientId : Nat) (buf : Mem) (labels : List Label)
    (obeyed : Along (step clientId) Obeyed labels (start buf)) :
    ∀ pre, pre <+: labels → Justified Truthful (run (step clientId) pre (start buf)).log := by
  intro pre shorter
  have first : Inv (start buf) := ⟨justified_nil, .inr (.inl ⟨rfl, rfl, rfl⟩)⟩
  exact (run_invariant (fun _ _ => inv_step) (along_shorter shorter obeyed) first).truthful

end Invariant

section Examples

def readings : Readings := ⟨some [], [], []⟩

def frame : List Label :=
  ([0x35, 0x0d, 0x0a].map fun b => .usart (some b)) ++ List.replicate 11 (.task readings)

/-- A `switch` while the box is not in operation. -/
def switched : List Label := .command .switch :: frame

theorem work_mode_reports_one :
    Justified Truthful (run (step 7) switched (start (fun _ => 0))).log :=
  work_mode_reports 7 (fun _ => 0) switched (by decide +kernel) switched (List.prefix_refl _)

/-- A `switch` in operation. -/
def stopped : List Label := .command (.setMode true) :: .command .switch :: frame

/-- A `setMode` between a `switch` and its feedback. -/
def overwritten : List Label := .command .switch :: .command (.setMode false) :: frame

/-- The feedback says that the box does not work, and the second run has none. -/
theorem work_mode_lost :
    ¬ Justified Truthful (run (step 7) stopped (start (fun _ => 0))).log ∧
      ¬ Justified Truthful (run (step 7) overwritten (start (fun _ => 0))).log := by
  have first : (run (step 7) stopped (start (fun _ => 0))).log =
      [.command (.setMode true), .command .switch, .report .feedback] := by decide +kernel
  have second : (run (step 7) overwritten (start (fun _ => 0))).log =
      [.command .switch, .command (.setMode false), .report .timing0] := by decide +kernel
  rw [first, second]
  constructor
  · intro all
    have report := all [.command (.setMode true), .command .switch] (.report .feedback) [] rfl
    simp [Truthful, Form.workState, operating] at report
  · intro all
    have report := all [.command .switch, .command (.setMode false)] (.report .timing0) [] rfl
    simp [Truthful, Form.messageType, requested] at report

end Examples

end BoxFirmware.WorkMode
