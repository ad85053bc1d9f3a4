import BoxFirmware.DeviceInfo
import BoxFirmware.TcpClient

/-! What `tcp_client_thread` has cJSON allocate: the tree `root` that `add_json` builds, the
text `sendbuf` that it prints `root` into, and the tree `get_r` of a reply. An object is known
by the pass that creates it, the first pass being the thread up to its loop. A string member
that is not had is left out of `root`, and a text that is not had is written to all the same. -/
namespace BoxFirmware.TcpHeap
open CText Cjson DeviceInfo GuardedRun TcpClient

inductive Obj
  | root | sendbuf | getR
  deriving DecidableEq

inductive Kind
  | tree | buffer
  deriving DecidableEq

def Obj.kind : Obj → Kind
  | .root => .tree
  | .sendbuf => .buffer
  | .getR => .tree

/-- `written`: `sprintf` puts `bytes` into a block that was allocated with size `asked`. -/
inductive Call
  | created (pass : Nat) (obj : Obj)
  | released (pass : Nat) (obj : Obj)
  | written (request : Item) (asked : Nat) (bytes : List UInt8)
  | writtenNull

structure Given where
  root : Bool
  member : List UInt8 → Bool
  text : Bool

structure Input where
  env : Env
  given : Given

/-- The value of a member: a string, or the id number, which `%1.15g` gives digit by digit. -/
def printValue : Item → List UInt8
  | .string valuestring => printStringPtr valuestring
  | .number _ valuedouble => digits 10 valuedouble.floor.toNat
  | _ => []

def printRequest : Item → List UInt8
  | .object child => 123 :: [44].intercalate
      (child.map (fun (key, value) => printStringPtr key ++ 58 :: printValue value)) ++ [125]
  | _ => []

def sprintfLine (sendbuf : List UInt8) : List UInt8 := cstr sendbuf ++ [13, 10, 0]

def built (given : Given) : Item → Item
  | .object child => .object (child.filter (fun m => given.member m.1))
  | item => item

/-- `add_json`. cJSON prints into a block of its own and reallocates it to the text. -/
def addJsonCalls (given : Given) (pass : Nat) (request : Item) : List Call :=
  match given.root, given.text with
  | false, _ => [.writtenNull]
  | true, false => [.created pass .root, .released pass .root, .writtenNull]
  | true, true =>
    let text := printRequest (built given request)
    [.created pass .root, .created pass .sendbuf, .released pass .root,
      .written (built given request) (text.length + 1) (sprintfLine text)]

def parsed (env : Env) (text : List UInt8) : Option Item :=
  if strstr text (ascii "hi,this is MessageServer") then none
  else if env.heapFull then none
  else cjsonParse text

def parseCalls (i : Input) (pass : Nat) (st : TcpClient.St) : List Call :=
  match parsed i.env (recvText i.env st) with
  | none => []
  | some getR =>
    .created pass .getR :: match getR.getObjectItem (ascii "code") with
      | none => [.released pass .getR]
      | some (.number valueint _) =>
        if valueint = 2 then addJsonCalls i.given pass (parseStep i.env st).sendbuf else []
      | some _ => addJsonCalls i.given pass (parseStep i.env st).sendbuf

def passCalls (i : Input) (pass : Nat) (st : TcpClient.St) : List Call :=
  match st.step with
  | .connect =>
    if i.env.connectErr then [] else addJsonCalls i.given pass (connectStep i.env st).sendbuf
  | .parse => parseCalls i pass st
  | .registerFlash => addJsonCalls i.given pass (registerFlashStep i.env st).sendbuf
  | _ => []

/-- The thread beside its calls; `kept` says that `get_r` points to a tree of a past pass. -/
structure St where
  thread : TcpClient.St
  pass : Nat
  kept : Bool
  calls : List Call

/-- The reply has a code, behind which `get_r` is not deleted. -/
def answered (env : Env) (st : TcpClient.St) : Bool :=
  st.step = .parse && (readAck env (recvText env st)).isSome

def heapStep (i : Input) (s : St) : St :=
  if s.thread.status ≠ .running then s
  else
    { thread := tcpClientStep i.env s.thread
      pass := s.pass + 1
      kept := s.kept || answered i.env s.thread
      calls := s.calls ++ passCalls i s.pass s.thread }

def start (i : Input) (chip : W25qxx.Chip) (ram : ByteMem.Mem) : St :=
  let thread := tcpClientThread i.env chip ram
  { thread := thread
    pass := 1
    kept := false
    calls := if thread.status = .running then addJsonCalls i.given 0 thread.sendbuf else [] }

/-- An object is only created when all others of its kind have been released, and the request
text is the printed document, CR and LF, within the bytes that belong to the block. -/
def Tidy (owned : Nat → Nat) (past : List Call) : Call → Prop
  | .created _ obj => ∀ n o, .created n o ∈ past → o.kind = obj.kind → .released n o ∈ past
  | .written request asked bytes =>
    bytes = printRequest request ++ [13, 10] ++ [0] ∧ bytes.length ≤ owned asked
  | .writtenNull => False
  | .released _ _ => True

/-- The pass calls `add_json`. -/
def requests (env : Env) (st : TcpClient.St) : Bool :=
  match st.step with
  | .connect => !env.connectErr
  | .registerFlash => true
  | .parse =>
    match readAck env (recvText env st) with
    | none => false
    | some (_, .number valueint _) => valueint = 2
    | some _ => true
  | _ => false

/-- The pass makes no further request, and reads no document behind a reply with a code. -/
def Single (i : Input) (s : St) : Prop :=
  s.thread.status = .running → requests i.env s.thread = false ∧
    (s.kept = true → s.thread.step = .parse → parsed i.env (recvText i.env s.thread) = none)

/-- The first request is had, and its line fits into the bytes that belong to its block. -/
def Fits (owned : Nat → Nat) (given : Given) (request : Item) : Prop :=
  given.root = true ∧ given.text = true ∧
    (printRequest (built given request)).length + 3 ≤
      owned ((printRequest (built given request)).length + 1)

section Text

theorem printValue_clean (item : Item) : 0 ∉ printValue item := by
  cases item with
  | string valuestring => exact printStringPtr_clean valuestring
  | number valueint valuedouble => exact zero_not_mem_digits 10 _
  | _ => simp [printValue]

theorem printRequest_clean (request : Item) : 0 ∉ printRequest request := by
  cases request with
  | object child =>
    have members : ∀ text ∈ child.map (fun (key, value) =>
        printStringPtr key ++ 58 :: printValue value), 0 ∉ text := by
      intro text member
      obtain ⟨⟨key, value⟩, -, rfl⟩ := List.mem_map.mp member
      simp [printStringPtr_clean, printValue_clean]
    simp [printRequest, intercalate_clean members]
  | _ => simp [printRequest]

theorem sprintfLine_request (request : Item) :
    sprintfLine (printRequest request) = printRequest request ++ [13, 10] ++ [0] := by
  rw [sprintfLine, cstr_clean (printRequest_clean request), List.append_assoc]
  rfl

end Text

section Passes

variable (i : Input) (pass : Nat) (st : TcpClient.St)

inductive Makes : List Call → Prop
  | request (request : Item) (front : List Call) (asks : requests i.env st = true)
      (creates : ∀ n o, .released n o ∉ front) :
      Makes (front ++ addJsonCalls i.given pass request)
  | dropped (asks : requests i.env st = false) (keeps : answered i.env st = false)
      (read : st.step = .parse ∧ parsed i.env (recvText i.env st) ≠ none) :
      Makes [.created pass .getR, .released pass .getR]
  | kept (asks : requests i.env st = false) (keeps : answered i.env st = true)
      (read : st.step = .parse ∧ parsed i.env (recvText i.env st) ≠ none) :
      Makes [.created pass .getR]
  | quiet (asks : requests i.env st = false) (keeps : answered i.env st = false)
      (read : st.step = .parse → parsed i.env (recvText i.env st) = none) : Makes []

theorem readAck_parsed (env : Env) (text : List UInt8) : readAck env text =
    (parsed env text).bind fun getR =>
      (getR.getObjectItem (ascii "code")).map fun jsonResult => (getR, jsonResult) := by
  unfold readAck parsed
  split_ifs <;> rfl

theorem parseCalls_makes (step : st.step = .parse) : Makes i pass st (parseCalls i pass st) := by
  have ack := readAck_parsed i.env (recvText i.env st)
  unfold parseCalls
  cases read : parsed i.env (recvText i.env st) with
  | none =>
    rw [read] at ack
    exact .quiet (by simp [requests, step, ack]) (by simp [answered, ack]) (fun _ => read)
  | some getR =>
    have found : st.step = .parse ∧ parsed i.env (recvText i.env st) ≠ none :=
      ⟨step, by simp [read]⟩
    rw [read, Option.bind_some] at ack
    dsimp only
    cases code : getR.getObjectItem (ascii "code") with
    | none =>
      rw [code] at ack
      exact .dropped (by simp [requests, step, ack]) (by simp [answered, ack]) found
    | some item =>
      rw [code] at ack
      have keeps : answered i.env st = true := by simp [answered, step, ack]
      have asked : ∀ request, requests i.env st = true →
          Makes i pass st (.created pass .getR :: addJsonCalls i.given pass request) :=
        fun request asks => .request request [.created pass .getR] asks (by simp)
      cases item with
      | number valueint valuedouble =>
        dsimp only
        by_cases two : valueint = 2
        · rw [if_pos two]
          exact asked _ (by simp [requests, step, ack, two])
        · rw [if_neg two]
          exact .kept (by simp [requests, step, ack, two]) keeps found
      | _ => exact asked _ (by simp [requests, step, ack])

theorem passCalls_makes : Makes i pass st (passCalls i pass st) := by
  have other : st.step ≠ .parse → answered i.env st = false := by
    intro away
    simp [answered, away]
  unfold passCalls
  cases step : st.step with
  | connect =>
    dsimp only
    by_cases failed : i.env.connectErr = true
    · rw [if_pos failed]
      exact .quiet (by simp [requests, step, failed]) (other (by simp [step])) (by simp [step])
    · rw [if_neg failed]
      exact .request _ [] (by simp [requests, step, failed]) (by simp)
  | parse => exact parseCalls_makes i pass st step
  | registerFlash => exact .request _ [] (by simp [requests, step]) (by simp)
  | _ => exact .quiet (by simp [requests, step]) (other (by simp [step])) (by simp [step])

end Passes

section Steps

variable {owned : Nat → Nat} {i : Input} {s : St}

structure Held (s : St) : Prop where
  buffer : ∃ n, .created n .sendbuf ∈ s.calls ∧ .released n .sendbuf ∉ s.calls
  below : ∀ n o, .released n o ∈ s.calls → n < s.pass
  trees : s.kept = false → ∀ n o, .created n o ∈ s.calls → o.kind = .tree →
    .released n o ∈ s.calls
  kept : s.kept = true → ∃ n, .created n .getR ∈ s.calls ∧ .released n .getR ∉ s.calls

/-- A second request is refused: the text of the first is never released. -/
theorem request_refused (held : Held s) (given : Given) (request : Item) (pass : Nat)
    {front : List Call} (creates : ∀ n o, .released n o ∉ front) :
    ¬ Justified (Tidy owned) (s.calls ++ (front ++ addJsonCalls given pass request)) := by
  intro all
  unfold addJsonCalls at all
  split at all
  · exact all (s.calls ++ front) .writtenNull [] (by simp)
  · exact all (s.calls ++ front ++ [.created pass .root, .released pass .root]) .writtenNull []
      (by simp)
  · obtain ⟨n, created, live⟩ := held.buffer
    have freed := all (s.calls ++ front ++ [.created pass .root]) (.created pass .sendbuf) _
      (by simp only [List.append_assoc, List.cons_append, List.nil_append]; rfl)
      n .sendbuf (by simp [created]) rfl
    simp [live, creates] at freed

theorem Held.tree (held : Held s) (pass : Nat) :
    Tidy owned s.calls (.created pass .getR) ↔ s.kept = false := by
  constructor
  · intro freed
    by_contra has
    obtain ⟨n, created, live⟩ := held.kept (by simpa using has)
    exact live (freed n .getR created rfl)
  · intro none n o created same
    exact held.trees none n o created same

theorem heapStep_stopped (stopped : s.thread.status ≠ .running) : heapStep i s = s :=
  if_pos stopped

theorem heapStep_running (running : s.thread.status = .running) : heapStep i s =
    { thread := tcpClientStep i.env s.thread
      pass := s.pass + 1
      kept := s.kept || answered i.env s.thread
      calls := s.calls ++ passCalls i s.pass s.thread } :=
  if_neg (not_not.mpr running)

/-- One pass: its calls are in order just when it makes no request, and reads no document
while `get_r` still has one. -/
theorem heapStep_tidy (held : s.thread.status = .running → Held s)
    (before : Justified (Tidy owned) s.calls) :
    Justified (Tidy owned) (heapStep i s).calls ↔ Single i s := by
  by_cases running : s.thread.status = .running
  · rw [heapStep_running running]
    dsimp only
    have tree : Tidy owned s.calls (.created s.pass .getR) ↔ s.kept = false :=
      (held running).tree s.pass
    have makes := passCalls_makes i s.pass s.thread
    generalize passCalls i s.pass s.thread = calls at makes ⊢
    have single : ∀ read : s.thread.step = .parse ∧ parsed i.env (recvText i.env s.thread) ≠ none,
        requests i.env s.thread = false → (Single i s ↔ s.kept = false) := by
      intro read asks
      constructor
      · intro single
        by_contra has
        exact read.2 ((single running).2 (by simpa using has) read.1)
      · intro none _
        exact ⟨asks, fun has => by simp [none] at has⟩
    cases makes with
    | request request front asks creates =>
      refine iff_of_false (request_refused (held running) _ _ _ creates) (fun single => ?_)
      simp [(single running).1] at asks
    | dropped asks keeps read =>
      have split : s.calls ++ [.created s.pass .getR, .released s.pass .getR] =
          s.calls ++ [.created s.pass .getR] ++ [.released s.pass .getR] := by simp
      rw [split, justified_concat, justified_concat, tree, single read asks]
      exact ⟨fun both => both.1.2, fun none => ⟨⟨before, none⟩, trivial⟩⟩
    | kept asks keeps read =>
      rw [justified_concat, tree, single read asks]
      exact and_iff_right before
    | quiet asks keeps read =>
      rw [List.append_nil]
      exact iff_of_true before (fun _ => ⟨asks, fun _ => read⟩)
  · rw [heapStep_stopped running]
    exact iff_of_true before (fun now => absurd now running)

theorem heapStep_held (held : Held s) (running : s.thread.status = .running)
    (single : Single i s) : Held (heapStep i s) := by
  rw [heapStep_running running]
  have makes := passCalls_makes i s.pass s.thread
  generalize passCalls i s.pass s.thread = calls at makes ⊢
  obtain ⟨n, created, live⟩ := held.buffer
  have fresh : ∀ o, .released s.pass o ∉ s.calls :=
    fun o freed => Nat.lt_irrefl _ (held.below _ o freed)
  have later : ∀ m, m < s.pass → m < s.pass + 1 := fun m lt => Nat.lt_succ_of_lt lt
  cases makes with
  | request request front asks creates => simp [(single running).1] at asks
  | dropped asks keeps read =>
    have none : s.kept = false := by
      by_contra has
      exact read.2 ((single running).2 (by simpa using has) read.1)
    refine ⟨⟨n, by simp [created], by simp [live]⟩, ?_, ?_, by simp [none, keeps]⟩
    · intro m o freed
      rcases List.mem_append.mp freed with before | now
      · exact later m (held.below m o before)
      · obtain ⟨rfl, -⟩ : m = s.pass ∧ o = .getR := by simpa using now
        exact Nat.lt_succ_self _
    · intro _ m o made kind
      rcases List.mem_append.mp made with before | now
      · exact List.mem_append_left _ (held.trees none m o before kind)
      · obtain ⟨rfl, rfl⟩ : m = s.pass ∧ o = .getR := by simpa using now
        simp
  | kept asks keeps read =>
    refine ⟨⟨n, by simp [created], by simp [live]⟩, ?_, by simp [keeps], ?_⟩
    · intro m o freed
      exact later m (held.below m o (by simpa using freed))
    · intro _
      exact ⟨s.pass, by simp, by simp [fresh]⟩
  | quiet asks keeps read =>
    simp only [List.append_nil, keeps, Bool.or_false]
    exact ⟨⟨n, created, live⟩, fun m o freed => later m (held.below m o freed), held.trees,
      held.kept⟩

end Steps

section Runs

variable {owned : Nat → Nat}

theorem heapCalls_grow (inputs : List Input) (s : St) :
    s.calls <+: (run heapStep inputs s).calls := by
  induction inputs generalizing s with
  | nil => exact List.prefix_refl _
  | cons i inputs ih =>
    refine List.IsPrefix.trans ?_ (ih (heapStep i s))
    by_cases running : s.thread.status = .running
    · rw [heapStep_running running]
      exact List.prefix_append _ _
    · simp [heapStep_stopped running]

theorem run_tidy (inputs : List Input) {s : St} (held : s.thread.status = .running → Held s)
    (before : Justified (Tidy owned) s.calls) :
    Justified (Tidy owned) (run heapStep inputs s).calls ↔ Along heapStep Single inputs s := by
  induction inputs generalizing s with
  | nil => exact iff_of_true before trivial
  | cons i inputs ih =>
    have next : Single i s → (heapStep i s).thread.status = .running → Held (heapStep i s) := by
      intro single now
      by_cases running : s.thread.status = .running
      · exact heapStep_held (held running) running single
      · rw [heapStep_stopped running] at now
        exact absurd now running
    rw [run_cons, Along]
    constructor
    · intro all
      have first := justified_shorter (heapCalls_grow inputs (heapStep i s)) all
      have single := (heapStep_tidy held before).mp first
      exact ⟨single, (ih (next single) first).mp all⟩
    · rintro ⟨single, rest⟩
      exact (ih (next single) ((heapStep_tidy held before).mpr single)).mpr rest

theorem addJsonCalls_tidy (given : Given) (request : Item) :
    Justified (Tidy owned) (addJsonCalls given 0 request) ↔ Fits owned given request := by
  have log := justifiedFrom_iff (R := Tidy owned) [] (addJsonCalls given 0 request) justified_nil
  rw [List.nil_append] at log
  rw [← log, Fits, addJsonCalls]
  cases root : given.root with
  | false => simp [justifiedFrom, Tidy]
  | true =>
    cases text : given.text with
    | false => simp [justifiedFrom, Tidy]
    | true =>
      have line := sprintfLine_request (built given request)
      simp [justifiedFrom, Tidy, line, Obj.kind]

theorem held_start {i : Input} {chip : W25qxx.Chip} {ram : ByteMem.Mem}
    (fits : Fits owned i.given (tcpClientThread i.env chip ram).sendbuf)
    (running : (start i chip ram).thread.status = .running) : Held (start i chip ram) := by
  have calls : (start i chip ram).calls =
      addJsonCalls i.given 0 (tcpClientThread i.env chip ram).sendbuf := if_pos running
  rw [addJsonCalls, fits.1, fits.2.1] at calls
  refine ⟨⟨0, by simp [calls], by simp [calls]⟩, ?_, ?_, nofun⟩
  · intro n o freed
    obtain ⟨rfl, -⟩ : n = 0 ∧ o = .root := by simpa [calls] using freed
    exact Nat.zero_lt_one
  · intro _ n o made kind
    rw [calls] at made ⊢
    have which : n = 0 ∧ (o = .root ∨ o = .sendbuf) := by
      simp at made
      tauto
    obtain ⟨rfl, rfl | rfl⟩ := which
    · simp
    · cases kind

theorem start_tidy (first : Input) (chip : W25qxx.Chip) (ram : ByteMem.Mem) :
    Justified (Tidy owned) (start first chip ram).calls ↔
      ((start first chip ram).thread.status = .running →
        Fits owned first.given (tcpClientThread first.env chip ram).sendbuf) := by
  by_cases running : (start first chip ram).thread.status = .running
  · have calls : (start first chip ram).calls =
        addJsonCalls first.given 0 (tcpClientThread first.env chip ram).sendbuf := if_pos running
    rw [calls, addJsonCalls_tidy]
    exact ⟨fun fits _ => fits, fun fits => fits running⟩
  · have calls : (start first chip ram).calls = [] := if_neg running
    rw [calls]
    exact iff_of_true justified_nil (fun now => absurd now running)

/-- In every run of the thread its trees and texts are released in time and its request is
inside its block, just when it does not enter its loop, or its one request is had and fits,
and every reply behind one with a code is no document. -/
theorem heap_tidy (owned : Nat → Nat) (first : Input) (chip : W25qxx.Chip) (ram : ByteMem.Mem)
    (inputs : List Input) :
    Justified (Tidy owned) (run heapStep inputs (start first chip ram)).calls ↔
      ((start first chip ram).thread.status = .running →
        Fits owned first.given (tcpClientThread first.env chip ram).sendbuf) ∧
      Along heapStep Single inputs (start first chip ram) := by
  rw [← start_tidy first chip ram]
  have runs : Justified (Tidy owned) (start first chip ram).calls →
      (Justified (Tidy owned) (run heapStep inputs (start first chip ram)).calls ↔
        Along heapStep Single inputs (start first chip ram)) := by
    intro before
    exact run_tidy inputs (fun now => held_start ((start_tidy _ _ _).mp before now) now) before
  constructor
  · intro all
    have before := justified_shorter (heapCalls_grow inputs _) all
    exact ⟨before, (runs before).mp all⟩
  · rintro ⟨before, along⟩
    exact (runs before).mpr along

def plenty : Given := ⟨true, fun _ => true, true⟩

/-- The server answers, and the request is made anew: the text of the first is never released,
whatever belongs to a block. The text alone is longer than what was asked for. -/
theorem heap_untidy : (∀ owned, ¬ ∀ (first : Input) (chip : W25qxx.Chip) (ram : ByteMem.Mem)
      (inputs : List Input),
        Justified (Tidy owned) (run heapStep inputs (start first chip ram)).calls) ∧
    ¬ Justified (Tidy id) (start ⟨answer [], plenty⟩ blank (fun _ => 0)).calls := by
  have running : (start ⟨answer [], plenty⟩ blank (fun _ => 0)).thread.status = .running := by
    decide +kernel
  constructor
  · intro owned all
    have tidy := all ⟨answer [], plenty⟩ blank (fun _ => 0) [⟨answer [], plenty⟩]
    have before := justified_shorter (heapCalls_grow [⟨answer [], plenty⟩] _) tidy
    have held := held_start ((start_tidy _ _ _).mp before running) running
    have single := (heapStep_tidy (fun _ => held) before).mp tidy
    have asks : requests (answer []) (start ⟨answer [], plenty⟩ blank (fun _ => 0)).thread = true := by
      decide +kernel
    simp [(single running).1] at asks
  · rw [start_tidy]
    intro fits
    have room := (fits running).2.2
    simp at room

end Runs

end BoxFirmware.TcpHeap
