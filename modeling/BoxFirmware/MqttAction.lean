import BoxFirmware.Cjson
import BoxFirmware.MqttSearch

/-! The action that a JSON payload names in its `command` against what `mqtt_thread` does, which
looks for keywords anywhere in the payload. `info` is answered in the turn behind that of its
PUBLISH, unless another packet is read first. The mode that `setMode` sets is left open: no
member names it. -/
namespace BoxFirmware.MqttAction
open ByteMem CText Cjson GuardedRun MqttPacket MqttThread MqttSearch

inductive Action
  | switch | reset | info | setMode | restart
  deriving DecidableEq

def Action.word : Action → String
  | .switch => "switch"
  | .reset => "reset"
  | .info => "info"
  | .setMode => "setMode"
  | .restart => "restart"

section Request

def stringOf (doc : Item) (name : String) : Option (List UInt8) :=
  match doc.getObjectItem (ascii name) with
  | some (.string valuestring) => some (cstr valuestring)
  | _ => none

def named (doc : Item) : Option Action :=
  (stringOf doc "command").bind (fun command =>
    [Action.switch, .reset, .info, .setMode, .restart].find? (fun a => ascii a.word == command))

def outlets : List (String × String) :=
  [("0", "220v_ch1"), ("1", "220v_ch4"), ("2", "24v_ch1"), ("3", "24v_ch2"), ("4", "12v_ch1"),
    ("5", "12v_ch2"), ("6", "5v_ch"), ("7", "9v_ch")]

def namedOutlet (doc : Item) : Option String :=
  (stringOf doc "position").bind (fun position =>
    (outlets.find? (fun o => ascii o.1 == position)).map Prod.snd)

def opens (doc : Item) : Bool := stringOf doc "state" == some (ascii "1")

def controlLine (isOpen : Bool) (outlet : String) : List UInt8 :=
  (if isOpen then ascii "open " else ascii "close ") ++ ascii outlet ++ ascii "\r\n"

def wantedLines (doc : Item) : List (List UInt8) :=
  if named doc = some .switch then (namedOutlet doc).toList.map (controlLine (opens doc)) else []

end Request

section Property

def lastOutlet (text : List UInt8) : Option String :=
  (positions.reverse.find? (fun x => has text x.1)).map Prod.snd

/-- An earlier `switch` has cleared `usartsendbuf`. -/
def Cleared (past : List Round) : Prop := ∃ r ∈ past, Event.mode 3 ∈ r.answer

def uartOf : Event → Option (List UInt8)
  | .uart text => some text
  | _ => none

/-- What the turn of a PUBLISH does; `info` is what the next turn has to do. -/
def Performed (b : Board) (env : Env) (st : St) : Action → Prop
  | .switch => Event.mode 3 ∈ (iteration b env st).1.answer
  | .reset => Event.reset ∈ (iteration b env st).1.answer
  | .info => (iteration b env st).1.got = none ∧ (iteration b env st).2.msgtypes = 15
  | .setMode =>
    Event.mode 0 ∈ (iteration b env st).1.answer ∨ Event.mode 1 ∈ (iteration b env st).1.answer
  | .restart => Event.restar ∈ (iteration b env st).1.answer

/-- The action that is named and no other, with its control string, from a buffer that this turn
or an earlier `switch` has written. -/
structure Obeyed (b : Board) (past : List Round) (env : Env) (st : St) (doc : Item) : Prop where
  actions : ∀ a, Performed b env st a ↔ named doc = some a
  lines : ((iteration b env st).1.answer.filterMap uartOf).filter (· ≠ []) = wantedLines doc
  written : Performed b env st .switch →
    (lastOutlet (publishText b env (atSwitch b env st))).isSome ∨ Cleared past

/-- A turn that searches for commands obeys the JSON payload that was just read, and without a
packet it does nothing. -/
def Performs (b : Board) (past : List Round) (env : Env) (st : St) : Prop :=
  st.halted = false → switchOn env st = msgPublish →
    (pending past = none → ∀ a, ¬ Performed b env st a) ∧
    ∀ p : Packet, pending past = some p.image → ∀ doc, cjsonParse p.payload = some doc →
      Obeyed b past env st doc

/-- The keywords that a text may have beside that of its action, which it has; `info` does
nothing when a packet arrives. -/
def Alone (text : List UInt8) (arrives : Prop) : Option Action → Prop
  | none => has text "switch" = false ∧ has text "reset" = false ∧ has text "setMode" = false ∧
      has text "restart" = false ∧ (has text "info" = true → arrives)
  | some .switch => has text "switch" = true ∧ has text "reset" = false ∧
      has text "setMode" = false ∧ has text "restart" = false ∧ (has text "info" = true → arrives)
  | some .reset => has text "reset" = true ∧ has text "switch" = false
  | some .info => has text "info" = true ∧ has text "switch" = false ∧ has text "reset" = false ∧
      has text "setMode" = false ∧ has text "restart" = false ∧ ¬ arrives
  | some .setMode => has text "setMode" = true ∧ has text "switch" = false ∧
      has text "reset" = false ∧ has text "restart" = false
  | some .restart => has text "restart" = true ∧ has text "switch" = false ∧
      has text "reset" = false ∧ has text "setMode" = false

/-- The last position in the text is the named one, and its state that of the `state` member; with
no known position the buffer was cleared before. -/
def Placed (past : List Round) (text : List UInt8) (doc : Item) : Prop :=
  lastOutlet text = namedOutlet doc ∧
    ((namedOutlet doc).isSome → has text "\"state\":\"1\"" = opens doc) ∧
    (namedOutlet doc = none → Cleared past)

/-- The text that is searched, which is the payload by `publishText_ends`, has the keyword of its
command alone, and for `switch` its position and state. -/
def Clear (b : Board) (past : List Round) (env : Env) (st : St) : Prop :=
  st.halted = false → switchOn env st = msgPublish →
    (pending past = none → Alone (publishText b env (atSwitch b env st)) (0 < arriving env st) none) ∧
    ∀ p : Packet, pending past = some p.image → ∀ doc, cjsonParse p.payload = some doc →
      Alone (publishText b env (atSwitch b env st)) (0 < arriving env st) (named doc) ∧
        (named doc = some .switch → Placed past (publishText b env (atSwitch b env st)) doc)

end Property

section Lines

theorem foldl_last {α β : Type} (found : α → Bool) (f : α → β) (xs : List α) (first : β) :
    xs.foldl (fun y x => if found x then f x else y) first =
      ((xs.reverse.find? found).map f).getD first := by
  induction xs generalizing first with
  | nil => rfl
  | cons x xs ih =>
    rw [List.foldl_cons, ih, List.reverse_cons, List.find?_append]
    cases xs.reverse.find? found with
    | some y => rfl
    | none => cases hit : found x <;> simp [hit]

theorem switchText_eq (text usartsendbuf : List UInt8) : switchText text usartsendbuf =
    ((lastOutlet text).map (controlLine (has text "\"state\":\"1\""))).getD usartsendbuf := by
  rw [lastOutlet, Option.map_map]
  exact foldl_last (fun x : String × String => has text x.1)
    (fun x => controlLine (has text "\"state\":\"1\"") x.2) positions usartsendbuf

theorem controlLine_ne_nil (isOpen : Bool) (outlet : String) : controlLine isOpen outlet ≠ [] := by
  cases isOpen <;> simp [controlLine, ascii]

theorem controlLine_inj : ∀ o ∈ outlets, ∀ o' ∈ outlets, ∀ isOpen isOpen' : Bool,
    controlLine isOpen o.2 = controlLine isOpen' o'.2 → o.2 = o'.2 ∧ isOpen = isOpen' := by
  decide +kernel

theorem lastOutlet_mem {text : List UInt8} {outlet : String} (last : lastOutlet text = some outlet) :
    ∃ o ∈ outlets, o.2 = outlet := by
  have same : ∀ x ∈ positions, ∃ o ∈ outlets, o.2 = x.2 := by decide
  obtain ⟨x, found, rfl⟩ := Option.map_eq_some_iff.mp last
  exact same x (List.mem_reverse.mp (List.mem_of_find?_eq_some found))

theorem namedOutlet_mem {doc : Item} {outlet : String} (name : namedOutlet doc = some outlet) :
    ∃ o ∈ outlets, o.2 = outlet := by
  obtain ⟨position, -, known⟩ := Option.bind_eq_some_iff.mp name
  obtain ⟨o, found, rfl⟩ := Option.map_eq_some_iff.mp known
  exact ⟨o, List.mem_of_find?_eq_some found, rfl⟩

theorem placed_iff (past : List Round) (text usartsendbuf : List UInt8) (doc : Item)
    (empty : Cleared past → usartsendbuf = []) :
    ([switchText text usartsendbuf].filter (· ≠ []) =
        (namedOutlet doc).toList.map (controlLine (opens doc)) ∧
      ((lastOutlet text).isSome ∨ Cleared past)) ↔ Placed past text doc := by
  rw [switchText_eq, Placed]
  cases last : lastOutlet text with
  | none =>
    cases name : namedOutlet doc with
    | none =>
      simp only [Option.map_none, Option.getD_none, Option.isSome_none]
      constructor
      · rintro ⟨-, written⟩
        exact ⟨trivial, by simp, fun _ => by simpa using written⟩
      · rintro ⟨-, -, cleared⟩
        rw [empty (cleared trivial)]
        exact ⟨rfl, Or.inr (cleared trivial)⟩
    | some outlet =>
      refine iff_of_false ?_ (by simp)
      rintro ⟨line, written⟩
      have blank := empty (by simpa using written)
      simp [blank] at line
  | some found =>
    have filled := controlLine_ne_nil (has text "\"state\":\"1\"") found
    cases name : namedOutlet doc with
    | none =>
      refine iff_of_false ?_ (by simp)
      rintro ⟨line, -⟩
      simp [filled] at line
    | some outlet =>
      obtain ⟨o, known, rfl⟩ := lastOutlet_mem last
      obtain ⟨o', known', rfl⟩ := namedOutlet_mem name
      have equal := controlLine_inj o known o' known' (has text "\"state\":\"1\"") (opens doc)
      simp only [Option.map_some, Option.getD_some, Option.isSome_some, true_or, and_true,
        Option.toList_some, List.map_cons, List.map_nil, ne_eq, filled, not_false_eq_true, decide_true,
        List.filter_cons_of_pos, List.filter_nil, List.cons.injEq, Option.some.injEq, true_imp_iff,
        reduceCtorEq, false_imp_iff]
      exact ⟨equal, fun ⟨same, state⟩ => by rw [same, state]⟩

end Lines

section Turn

variable {b : Board} {env : Env} {st now : St}

def Triggers (text : List UInt8) (arrives : Prop) : Action → Prop
  | .switch => has text "switch" = true
  | .reset => has text "reset" = true
  | .info => has text "info" = true ∧ has text "reset" = false ∧ has text "setMode" = false ∧
      has text "restart" = false ∧ ¬ arrives
  | .setMode => has text "setMode" = true ∧ has text "reset" = false
  | .restart => has text "restart" = true ∧ has text "reset" = false

theorem forall_action {P : Action → Prop} :
    (∀ a, P a) ↔ P .switch ∧ P .reset ∧ P .info ∧ P .setMode ∧ P .restart :=
  ⟨fun all => ⟨all _, all _, all _, all _, all _⟩, fun ⟨p, q, r, s, t⟩ a => by cases a <;> assumption⟩

theorem alone_iff (text : List UInt8) (arrives : Prop) (action : Option Action) :
    (∀ a, Triggers text arrives a ↔ action = some a) ↔ Alone text arrives action := by
  rw [forall_action]
  simp only [Triggers]
  cases action with
  | none =>
    simp only [Alone, reduceCtorEq, iff_false]
    cases has text "switch" <;> cases has text "reset" <;> cases has text "setMode" <;>
      cases has text "restart" <;> cases has text "info" <;> simp
  | some a =>
    cases a <;> simp only [Alone, Option.some.injEq, reduceCtorEq, iff_false, iff_true] <;>
      cases has text "switch" <;> cases has text "reset" <;> cases has text "setMode" <;>
      cases has text "restart" <;> cases has text "info" <;> simp

theorem command_mem {e : Event} (kind : CommandEvent e) (running : now.halted = false)
    (empty : now.log = []) : e ∈ (publishCase b env now).log ↔
      e ∈ commandEvents (publishText b env now) now.usartsendbuf := by
  have ack : e ∉ pubackEvents env now.mysock (deserializePublish env now) := by
    intro sent
    obtain ⟨packet, len, rc, rfl, -⟩ := pubackEvents_kind sent
    exact kind
  have block : e ≠ .malloc 125 (payloadBlock b now) := by
    rintro rfl
    exact kind
  have back : e ≠ .free (payloadIn b env now) := by
    rintro rfl
    exact kind
  rw [publishCase_log b env now running, empty, List.nil_append]
  split <;> simp [ack, block, back]

theorem uart_lines (running : now.halted = false) (empty : now.log = []) :
    (publishCase b env now).log.filterMap uartOf =
      if has (publishText b env now) "switch" then
        [switchText (publishText b env now) now.usartsendbuf]
      else [] := by
  have ack : (pubackEvents env now.mysock (deserializePublish env now)).filterMap uartOf = [] := by
    unfold pubackEvents
    split <;> rfl
  have behind : (if has (publishText b env now) "reset" then []
      else Event.free (payloadIn b env now) ::
        pubackEvents env now.mysock (deserializePublish env now)).filterMap uartOf = [] := by
    split
    · rfl
    · exact ack
  rw [publishCase_log b env now running, empty, List.nil_append, List.filterMap_append, behind,
    List.append_nil, List.filterMap_cons_none rfl, commandEvents]
  split_ifs <;> rfl

theorem commandEvents_mem (text usartsendbuf : List UInt8) :
    (Event.mode 3 ∈ commandEvents text usartsendbuf ↔ has text "switch" = true) ∧
      (Event.reset ∈ commandEvents text usartsendbuf ↔ has text "reset" = true) ∧
      (Event.mode 0 ∈ commandEvents text usartsendbuf ∨ Event.mode 1 ∈ commandEvents text usartsendbuf ↔
        has text "setMode" = true ∧ has text "reset" = false) ∧
      (Event.restar ∈ commandEvents text usartsendbuf ↔
        has text "restart" = true ∧ has text "reset" = false) := by
  unfold commandEvents
  cases has text "switch" <;> cases has text "reset" <;> cases has text "setMode" <;>
    cases has text "restart" <;> cases has text "operation" <;> simp

theorem commandNext_info (text : List UInt8) : commandNext text msgPublish = 15 ↔
    has text "info" = true ∧ has text "reset" = false ∧ has text "setMode" = false ∧
      has text "restart" = false := by
  unfold commandNext
  cases has text "switch" <;> cases has text "reset" <;> cases has text "setMode" <;>
    cases has text "restart" <;> cases has text "info" <;> simp [msgPublish]

theorem info_waits (running : st.halted = false) (on : (atSwitch b env st).msgtypes = msgPublish) :
    ((iteration b env st).1.got = none ∧ (iteration b env st).2.msgtypes = 15) ↔
      commandNext (publishText b env (atSwitch b env st)) msgPublish = 15 ∧ ¬ 0 < arriving env st := by
  have halted : (atSwitch b env st).halted = false := atSwitch_running b env running
  have case : afterSwitch b env st = publishCase b env (atSwitch b env st) := dispatch_publish on
  cases resets : has (publishText b env (atSwitch b env st)) "reset" with
  | true =>
    rw [publishCase_reset b env _ resets, on] at case
    have next : commandNext (publishText b env (atSwitch b env st)) msgPublish ≠ 15 := by
      unfold commandNext
      rw [if_pos resets]
      split <;> decide
    rw [iteration_halts running (by rw [case]), case]
    exact iff_of_false (fun waits => next waits.2) (fun waits => next waits.1)
  | false =>
    rw [publishCase_eq b env _ halted resets, on] at case
    have goes : (afterSwitch b env st).halted = false := by
      rw [case]
      exact halted
    rw [iteration_reads running goes]
    by_cases packet : 0 < arriving env st
    · rw [receive_packet packet]
      exact iff_of_false (fun waits => by cases waits.1) (fun waits => waits.2 packet)
    · rw [receive_quiet (Int.not_lt.mp packet), case]
      exact ⟨fun waits => ⟨waits.2, packet⟩, fun waits => ⟨rfl, waits.1⟩⟩

theorem performed_iff (running : st.halted = false) (type : switchOn env st = msgPublish) (a : Action) :
    Performed b env st a ↔
      Triggers (publishText b env (atSwitch b env st)) (0 < arriving env st) a := by
  have on : (atSwitch b env st).msgtypes = msgPublish := (atSwitch_msgtypes b env st).trans type
  have halted : (atSwitch b env st).halted = false := atSwitch_running b env running
  have answer : (iteration b env st).1.answer = (publishCase b env (atSwitch b env st)).log := by
    rw [(turn_answer b env running).1, afterSwitch_eq, dispatch_publish on]
  have commands : ∀ e, CommandEvent e → (e ∈ (iteration b env st).1.answer ↔
      e ∈ commandEvents (publishText b env (atSwitch b env st)) (atSwitch b env st).usartsendbuf) := by
    intro e kind
    rw [answer]
    exact command_mem kind halted rfl
  obtain ⟨switch, reset, setMode, restart⟩ := commandEvents_mem
    (publishText b env (atSwitch b env st)) (atSwitch b env st).usartsendbuf
  cases a with
  | switch => exact (commands (.mode 3) trivial).trans switch
  | reset => exact (commands .reset trivial).trans reset
  | info =>
    refine (info_waits running on).trans ?_
    rw [commandNext_info]
    simp only [Triggers, and_assoc]
  | setMode => exact (or_congr (commands (.mode 0) trivial) (commands (.mode 1) trivial)).trans setMode
  | restart => exact (commands .restar trivial).trans restart

theorem turn_obeyed {past : List Round} (empty : Cleared past → st.usartsendbuf = [])
    (running : st.halted = false) (type : switchOn env st = msgPublish) (doc : Item) :
    Obeyed b past env st doc ↔
      Alone (publishText b env (atSwitch b env st)) (0 < arriving env st) (named doc) ∧
        (named doc = some .switch → Placed past (publishText b env (atSwitch b env st)) doc) := by
  have on : (atSwitch b env st).msgtypes = msgPublish := (atSwitch_msgtypes b env st).trans type
  have performed := performed_iff (b := b) running type
  have uart := @uart_lines b env (atSwitch b env st) (atSwitch_running b env running) rfl
  rw [atSwitch_usartsendbuf, ← dispatch_publish on, ← afterSwitch_eq,
    ← (turn_answer b env running).1] at uart
  have actions : (∀ a, Performed b env st a ↔ named doc = some a) ↔
      Alone (publishText b env (atSwitch b env st)) (0 < arriving env st) (named doc) := by
    rw [← alone_iff]
    exact forall_congr' (fun a => by rw [performed a])
  have placed := placed_iff past (publishText b env (atSwitch b env st)) st.usartsendbuf doc empty
  constructor
  · rintro ⟨own, lines, written⟩
    refine ⟨actions.mp own, fun switch => placed.mp ⟨?_, ?_⟩⟩
    · have word : has (publishText b env (atSwitch b env st)) "switch" = true :=
        (performed .switch).mp ((own .switch).mpr switch)
      rw [uart, if_pos word, wantedLines, if_pos switch] at lines
      exact lines
    · exact written ((own .switch).mpr switch)
  · rintro ⟨alone, place⟩
    have own := actions.mpr alone
    refine ⟨own, ?_, fun switched => (placed.mpr (place ((own .switch).mp switched))).2⟩
    rw [uart, wantedLines]
    by_cases switch : named doc = some .switch
    · have word : has (publishText b env (atSwitch b env st)) "switch" = true :=
        (performed .switch).mp ((own .switch).mpr switch)
      rw [if_pos word, if_pos switch]
      exact (placed.mpr (place switch)).1
    · have silent : ¬ has (publishText b env (atSwitch b env st)) "switch" = true :=
        fun word => switch ((own .switch).mp ((performed .switch).mpr word))
      rw [if_neg silent, if_neg switch]
      rfl

end Turn

section Runs

variable {b : Board}

theorem dispatch_cleared (env : Env) {now : St} (running : now.halted = false) (empty : now.log = [])
    (switched : Event.mode 3 ∈ (dispatch b env now).log) : (dispatch b env now).usartsendbuf = [] := by
  by_cases publish : now.msgtypes = msgPublish
  · rw [dispatch_publish publish] at switched ⊢
    rw [@command_mem b env now (.mode 3) trivial running empty] at switched
    have word := (commandEvents_mem _ _).1.mp switched
    cases resets : has (publishText b env now) "reset" with
    | false =>
      rw [publishCase_eq b env now running resets]
      exact if_pos word
    | true =>
      rw [publishCase_reset b env now resets]
      exact if_pos word
  · have answers := @dispatch_answers b env now empty running
    generalize (dispatch b env now).log = es at answers switched
    cases answers with
    | publish type => exact absurd type publish
    | pingreq type => split at switched <;> simp at switched
    | info type => simp [publishEvent] at switched
    | _ => simp at switched

theorem cleared_step {past : List Round} (env : Env) {st : St}
    (kept : Cleared past → st.usartsendbuf = [])
    (cleared : Cleared (past ++ [(iteration b env st).1])) :
    (iteration b env st).2.usartsendbuf = [] := by
  obtain ⟨r, member, switched⟩ := cleared
  cases running : st.halted with
  | true =>
    rw [iteration_stopped b env running] at member ⊢
    rcases List.mem_append.mp member with before | now
    · exact kept ⟨r, before, switched⟩
    · rw [List.mem_singleton.mp now] at switched
      cases switched
  | false =>
    have halted := atSwitch_running b env running
    rw [MqttCommand.turn_usartsendbuf env running, afterSwitch_eq]
    rcases List.mem_append.mp member with before | now
    · rcases MqttCommand.dispatch_residue b env halted with empty | left
      · exact empty
      · rw [left, atSwitch_usartsendbuf]
        exact kept ⟨r, before, switched⟩
    · rw [List.mem_singleton.mp now, (turn_answer b env running).1] at switched
      exact dispatch_cleared env halted rfl switched

/-- In every run each JSON payload has its command obeyed, and nothing else is done, just when the
keyword of the command stands alone in it, and for `switch` its position and state as well. -/
theorem commands_performed (b : Board) (s : Start) (envs : List Env) :
    Guarded (iteration b) (Performs b) [] envs (mqttThread s) ↔
      Guarded (iteration b) (Clear b) [] envs (mqttThread s) := by
  refine guarded_congr (I := fun past st => Cleared past → st.usartsendbuf = [])
    (fun past env st kept => cleared_step env kept) (fun past env st empty => ?_) ?_
  · refine imp_congr_right (fun running => imp_congr_right (fun type => and_congr ?_ ?_))
    · refine imp_congr_right (fun _ => ?_)
      rw [← alone_iff]
      exact forall_congr' (fun a => by rw [performed_iff running type]; simp)
    · exact forall_congr' (fun p => imp_congr_right (fun _ => forall_congr' (fun doc =>
        imp_congr_right (fun _ => turn_obeyed empty running type doc))))
  · rintro ⟨r, none, -⟩
    cases none

def noted : Packet where
  head := 0x30
  body := 0 :: 0 :: ascii "\x7b\"command\":\"none\",\"note\":\"reset\"\x7d"
  fits := by decide

/-- The note restarts the processor. -/
theorem note_performed :
    ¬ (∀ (b : Board) (s : Start) (envs : List Env),
      Guarded (iteration b) (Performs b) [] envs (mqttThread s)) ∧
    (cjsonParse noted.payload).bind named = none ∧
    Event.reset ∈ (outputs (iteration blankBoard) [calm, calm]
      (mqttThread (startOn noted.bytes))).flatMap Round.answer := by
  have unnamed : (cjsonParse noted.payload).bind named = none := by decide +kernel
  refine ⟨fun all => ?_, unnamed, by decide +kernel⟩
  obtain ⟨-, performs, -⟩ := all blankBoard (startOn noted.bytes) [calm, calm]
  obtain ⟨doc, parsed⟩ := Option.isSome_iff_exists.mp
    (show (cjsonParse noted.payload).isSome = true by decide +kernel)
  have obeyed := (performs (by decide +kernel) (by decide +kernel)).2 noted (by decide +kernel) doc
    parsed
  rw [parsed, Option.bind_some] at unnamed
  have resets := (obeyed.actions .reset).mp (show Event.reset ∈ _ by decide +kernel)
  rw [unnamed] at resets
  cases resets

end Runs

end BoxFirmware.MqttAction
