import BoxFirmware.Cjson
import BoxFirmware.GuardedRun
import BoxFirmware.W25qxx

/-! `tcp_client_thread`, the task that registers the box. One step is one pass of
its `switch(TCP_STEP)`; what the pass gets from outside (the network, the heap of
cJSON, the position) is its input. A pass that reads a member of a missing value
ends in `faulted`, and nothing resumes the task after its own `OSTaskSuspend`.
The thread's printing is left out. -/
namespace BoxFirmware.TcpClient
open ByteMem CText Cjson GuardedRun W25qxx

def tcpClientRxBufsize : Nat := 2000
def registerFlashAddr : Nat := 100
def queryFalshAddr : Nat := 200
def remainConntime : Nat := 3

inductive Step
  | recv | send | registerFlash | queryFalsh | parse | suspend | connect | compete
  deriving DecidableEq

inductive NextStep
  | reg | que
  deriving DecidableEq

inductive Status
  | running | suspended | faulted | hung
  deriving DecidableEq

inductive Event
  | connected
  | closed
  | deleted
  | sent (request : Item)
  | reply (phase : NextStep) (text : List UInt8)
  | absentMember
  | issued (phase : NextStep) (value : List UInt8)
  | stored (phase : NextStep) (bytes : List UInt8)
  | posted

/-- The result of `netconn_recv`; the data is a chain of pbufs. -/
inductive Received
  | ok (chain : List (List UInt8))
  | clsd
  | other

/-- What one pass meets: `netconn_connect`, `netconn_recv`, the memory behind the
receive buffer, an allocation that fails in `cJSON_Parse`, and what `add_json` reads. -/
structure Env where
  connectErr : Bool
  recv : Received
  recvTail : List UInt8
  heapFull : Bool
  sn0 : Nat
  longitude : List UInt8
  latitude : List UInt8

structure St where
  step : Step
  finStep : NextStep
  counter : Nat
  registBuf : Mem
  passcodeBuf : Mem
  /-- The 50 bytes of `get_passidbuf` and the memory behind them. -/
  getPassidbuf : Mem
  recvbuf : List UInt8
  sendbuf : Item
  chip : Chip
  status : Status
  log : List Event

def St.emit (st : St) (es : List Event) : St := { st with log := st.log ++ es }

/-- `check_flash`: 0 when the 40 bytes are all the same. -/
def checkFlashFrom : (left i : Nat) → (temp : UInt8) → Mem → Nat
  | 0, _, _, _ => 0
  | left + 1, i, temp, buf =>
    if buf i ^^^ temp ≠ 0 then 1 else checkFlashFrom left (i + 1) (buf i) buf

def checkFlash (buf : Mem) : Nat := checkFlashFrom 40 0 (buf 0) buf

theorem checkFlashFrom_eq_zero (left i : Nat) (temp : UInt8) (buf : Mem) :
    checkFlashFrom left i temp buf = 0 ↔ ∀ k < left, buf (i + k) = temp := by
  induction left generalizing i temp with
  | zero => simp [checkFlashFrom]
  | succ left ih =>
    rw [checkFlashFrom]
    by_cases same : buf i = temp
    · have equal : ¬ (buf i ^^^ temp ≠ 0) := by simp [same]
      rw [if_neg equal, ih, same]
      constructor
      · intro rest k hk
        cases k with
        | zero => exact same
        | succ k =>
          have := rest k (by omega)
          rwa [show i + 1 + k = i + (k + 1) by omega] at this
      · intro all k hk
        have := all (k + 1) (by omega)
        rwa [show i + (k + 1) = i + 1 + k by omega] at this
    · have differ : buf i ^^^ temp ≠ 0 := fun zero => same (UInt8.xor_eq_zero_iff.mp zero)
      rw [if_pos differ]
      constructor
      · intro one
        cases one
      · intro all
        exact absurd (all 0 (by omega)) same

/-- The blank test only compares the first forty bytes with the first. -/
theorem checkFlash_eq_zero (buf : Mem) : checkFlash buf = 0 ↔ ∀ k < 40, buf k = buf 0 := by
  rw [checkFlash, checkFlashFrom_eq_zero]
  simp only [Nat.zero_add]

def addJson (env : Env) (arg : Nat) (pbuf : List UInt8) : Item :=
  let no := Item.number (saturate env.sn0) env.sn0
  if arg = 0 then
    .object [(ascii "method", .string (ascii "register")), (ascii "no", no),
      (ascii "longitude", .string (cstr env.longitude)),
      (ascii "latitude", .string (cstr env.latitude))]
  else
    .object [(ascii "method", .string (ascii "query")), (ascii "no", no),
      (ascii "code", .string (cstr pbuf))]

def copyAt (buf : List UInt8) (pos : Nat) (bytes : List UInt8) : List UInt8 :=
  buf.take pos ++ bytes ++ buf.drop (pos + bytes.length)

def copyChain : (chain : List (List UInt8)) → (dataLen : Nat) → List UInt8 → List UInt8
  | [], _, buf => buf
  | q :: chain, dataLen, buf =>
    let n := if q.length > tcpClientRxBufsize - dataLen then tcpClientRxBufsize - dataLen
      else q.length
    let buf := copyAt buf dataLen (q.take n)
    if dataLen + q.length > tcpClientRxBufsize then buf
    else copyChain chain (dataLen + q.length) buf

def recvStep (env : Env) (st : St) : St :=
  match env.recv with
  | .ok chain =>
    { st with
      recvbuf := copyChain chain 0 (List.replicate tcpClientRxBufsize 0)
      step := .parse }
  | .clsd => { st.emit [.closed, .deleted] with step := .connect, counter := remainConntime }
  | .other => { st with step := .recv }

/-- A failed connect goes on into `RECV_STEP` unless the counter has just reached 0. -/
def connectStep (env : Env) (st : St) : St :=
  if env.connectErr then
    let st := { st.emit [.deleted] with
      step := if st.counter = 0 then .suspend else .connect
      counter := (st.counter + 255) % 256 }
    if st.counter = 0 then st else recvStep env st
  else
    { st.emit [.connected] with
      counter := 3
      step := .recv
      sendbuf := match st.finStep with
        | .reg => addJson env 0 []
        | .que => addJson env 1 (slice st.registBuf 0 64) }

def registerFlashStep (env : Env) (st : St) : St :=
  match w25qxxWrite st.chip st.getPassidbuf 100 40 with
  | none => { st with status := .hung }
  | some chip =>
    let registBuf := w25qxxRead chip st.registBuf registerFlashAddr 40
    { st.emit [.stored .reg (slice st.getPassidbuf 0 40)] with
      chip := chip
      registBuf := registBuf
      sendbuf := addJson env 1 (slice registBuf 0 64)
      step := .recv
      finStep := .que }

def queryFalshStep (st : St) : St :=
  match w25qxxWrite st.chip st.getPassidbuf queryFalshAddr 40 with
  | none => { st with status := .hung }
  | some chip =>
    { st.emit [.stored .que (slice st.getPassidbuf 0 40)] with
      chip := chip
      passcodeBuf := w25qxxRead chip st.passcodeBuf 200 40
      finStep := .reg
      step := .compete }

def sprintfString (buf : Mem) (s : List UInt8) : Mem :=
  store buf 0 (ofList (cstr s ++ [0])) (cstr s ++ [0]).length

def storeValue (st : St) (getR : Item) : St :=
  match getR.getObjectItem (ascii "value") with
  | none => { st.emit [.absentMember] with status := .faulted }
  | some (.string valuestring) =>
    { st.emit [.issued st.finStep (cstr valuestring)] with
      getPassidbuf := sprintfString st.getPassidbuf valuestring
      step := match st.finStep with
        | .que => .queryFalsh
        | .reg => .registerFlash }
  | some _ => st

def codeSwitch (env : Env) (st : St) (getR : Item) (valueint : Int) : St :=
  if valueint = 0 then storeValue st getR
  else if valueint = 1 then { st with step := .suspend }
  else if valueint = 2 then
    match st.finStep with
    | .reg =>
      { st with
        sendbuf := addJson env 1 (slice st.registBuf 0 64)
        finStep := .que
        step := .recv }
    | .que => { st with step := .recv, sendbuf := addJson env 0 [], finStep := .reg }
  else if valueint = 3 then { st with step := .recv, finStep := .que }
  else if valueint = 4 then { st with step := .suspend }
  else st

/-- The text of the reply: `tcp_client_recvbuf` read as a C string. -/
def recvText (env : Env) (st : St) : List UInt8 := cstr (st.recvbuf ++ env.recvTail)

/-- The reply's document and its "code" member, or `none` where the thread asks again. -/
def readAck (env : Env) (text : List UInt8) : Option (Item × Item) :=
  if strstr text (ascii "hi,this is MessageServer") then none
  else if env.heapFull then none
  else (cjsonParse text).bind fun getR =>
    (getR.getObjectItem (ascii "code")).map fun jsonResult => (getR, jsonResult)

/-- A code that is not a number leaves the `if`, and there is no `break` behind it. -/
def parseStep (env : Env) (st : St) : St :=
  let text := recvText env st
  let st := st.emit [.reply st.finStep text]
  match readAck env text with
  | none => { st with step := .send }
  | some (getR, .number valueint _) => codeSwitch env st getR valueint
  | some _ => registerFlashStep env st

def sendStep (st : St) : St := { st.emit [.sent st.sendbuf] with step := .recv }

def suspendStep (st : St) : St := { st.emit [.closed, .deleted] with status := .suspended }

def competeStep (st : St) : St :=
  { st.emit [.posted, .closed, .deleted] with status := .suspended }

def tcpClientStep (env : Env) (st : St) : St :=
  if st.status ≠ .running then st
  else match st.step with
    | .connect => connectStep env st
    | .recv => recvStep env st
    | .parse => parseStep env st
    | .registerFlash => registerFlashStep env st
    | .queryFalsh => queryFalshStep st
    | .send => sendStep st
    | .suspend => suspendStep st
    | .compete => competeStep st

/-- The thread up to its loop, on the flash as it stands at power-on. -/
def tcpClientThread (env : Env) (chip : Chip) (ram : Mem) : St :=
  let registBuf := w25qxxRead chip (fun _ => 0) 100 40
  let passcodeBuf := w25qxxRead chip (fun _ => 0) 200 40
  let st : St :=
    { step := .connect
      finStep := .reg
      counter := remainConntime
      registBuf := registBuf
      passcodeBuf := passcodeBuf
      getPassidbuf := ram
      recvbuf := List.replicate tcpClientRxBufsize 0
      sendbuf := addJson env 0 []
      chip := chip
      status := .running
      log := [] }
  if checkFlash registBuf = 0 ∨ checkFlash passcodeBuf = 0 then st
  else { st.emit [.posted] with status := .suspended }

/-- The thread after some passes. -/
def runThread (env : Env) (chip : Chip) (ram : Mem) (envs : List Env) : St :=
  run tcpClientStep envs (tcpClientThread env chip ram)

def NextStep.addr : NextStep → Nat
  | .reg => registerFlashAddr
  | .que => queryFalshAddr

def NextStep.flashStep : NextStep → Step
  | .reg => .registerFlash
  | .que => .queryFalsh

/-- The flash after the stores of a log. -/
def replay (log : List Event) (cells : Mem) : Mem :=
  log.foldl (fun m e => match e with
    | .stored phase bytes => store m phase.addr (ofList bytes) 40
    | _ => m) cells

/-- The value string of a reply whose code is the number 0. -/
def success (text : List UInt8) : Option (List UInt8) :=
  match cjsonParse text with
  | none => none
  | some getR =>
    match getR.getObjectItem (ascii "code"), getR.getObjectItem (ascii "value") with
    | some (.number _ valuedouble), some (.string valuestring) =>
      if valuedouble = 0 then some (cstr valuestring) else none
    | _, _ => none

/-- A store comes right behind a successful reply of its phase and carries its value,
and no missing member is read. -/
def Earned (past : List Event) : Event → Prop
  | .stored phase bytes => ∃ earlier text value,
      past = earlier ++ [.reply phase text, .issued phase value] ∧
      success text = some value ∧ (value ++ [0]).take 40 <+: bytes
  | .absentMember => False
  | _ => True

def isString : Item → Bool
  | .string _ => true
  | _ => false

/-- An acknowledgement carries a number as its code; with an integer part of 0 it also has
a value, and one that is a string comes with exactly 0. -/
def wellFormedAck : Option (Item × Item) → Bool
  | none => true
  | some (getR, .number valueint valuedouble) =>
    if valueint ≠ 0 then true
    else match getR.getObjectItem (ascii "value") with
      | none => false
      | some value => !isString value || valuedouble == 0
  | some _ => false

def WellFormed (env : Env) (st : St) : Prop :=
  st.status = .running → st.step = .parse → wellFormedAck (readAck env (recvText env st)) = true

instance (env : Env) (st : St) : Decidable (WellFormed env st) :=
  inferInstanceAs (Decidable (_ → _ → _))

@[simp] theorem St.emit_log (st : St) (es : List Event) : (st.emit es).log = st.log ++ es := rfl

theorem replay_append (log es : List Event) (cells : Mem) :
    replay (log ++ es) cells = replay es (replay log cells) := List.foldl_append

theorem storeCredential (chip : Chip) (buf : Mem) (phase : NextStep) :
    ∃ chip', w25qxxWrite chip buf phase.addr 40 = some chip' ∧
      chip'.cells = store chip.cells phase.addr (ofList (slice buf 0 40)) 40 := by
  have room : phase.addr + 40 ≤ 2^24 := by cases phase <;> decide
  obtain ⟨chip', run, cells⟩ := w25qxxWrite_store chip buf phase.addr 40 (by omega) (by omega) room
  exact ⟨chip', run, by rw [cells, store_slice]⟩

def Event.isQuiet : Event → Bool
  | .stored _ _ => false
  | .issued _ _ => false
  | .absentMember => false
  | .posted => false
  | _ => true

structure Quiet (st st' : St) : Prop where
  chip : st'.chip = st.chip
  buf : st'.getPassidbuf = st.getPassidbuf
  log : ∃ es, st'.log = st.log ++ es ∧ ∀ e ∈ es, e.isQuiet
  flash : ∀ phase : NextStep, st'.step ≠ phase.flashStep
  compete : st'.step ≠ .compete

theorem flashStep_ne (phase : NextStep) {s : Step} (h : s ≠ .registerFlash) (h' : s ≠ .queryFalsh) :
    s ≠ phase.flashStep := by
  cases phase <;> assumption

theorem quiet_of_log {st st' : St} (chip : st'.chip = st.chip)
    (buf : st'.getPassidbuf = st.getPassidbuf) (es : List Event) (log : st'.log = st.log ++ es)
    (free : ∀ e ∈ es, e.isQuiet)
    (next : st'.step ∈ [Step.recv, .send, .parse, .suspend, .connect]) : Quiet st st' := by
  have step : st'.step ≠ .registerFlash ∧ st'.step ≠ .queryFalsh ∧ st'.step ≠ .compete := by
    refine ⟨?_, ?_, ?_⟩ <;> intro same <;> rw [same] at next <;> simp at next
  exact ⟨chip, buf, ⟨es, log, free⟩, fun phase => flashStep_ne phase step.1 step.2.1, step.2.2⟩

theorem recvStep_quiet (env : Env) (st : St) : Quiet st (recvStep env st) := by
  unfold recvStep
  cases env.recv with
  | ok chain => exact quiet_of_log rfl rfl [] (by simp) (by simp) (by simp)
  | clsd =>
    exact quiet_of_log rfl rfl [.closed, .deleted] rfl (by simp [Event.isQuiet]) (by simp)
  | other => exact quiet_of_log rfl rfl [] (by simp) (by simp) (by simp)

theorem recvStep_finStep (env : Env) (st : St) : (recvStep env st).finStep = st.finStep := by
  unfold recvStep
  split <;> rfl

theorem Quiet.emit {st mid st' : St} (next : Quiet mid st') (chip : mid.chip = st.chip)
    (buf : mid.getPassidbuf = st.getPassidbuf) (es : List Event) (log : mid.log = st.log ++ es)
    (free : ∀ e ∈ es, e.isQuiet) : Quiet st st' := by
  obtain ⟨more, moreLog, moreFree⟩ := next.log
  refine ⟨next.chip.trans chip, next.buf.trans buf, ⟨es ++ more, ?_, ?_⟩, next.flash, next.compete⟩
  · rw [moreLog, log, List.append_assoc]
  · intro e he
    exact (List.mem_append.mp he).elim (free e) (moreFree e)

theorem connectStep_quiet (env : Env) (st : St) : Quiet st (connectStep env st) := by
  unfold connectStep
  by_cases failed : env.connectErr
  · rw [if_pos failed]
    dsimp only
    split
    · refine quiet_of_log rfl rfl [.deleted] rfl (by simp [Event.isQuiet]) ?_
      dsimp only
      split <;> simp
    · exact (recvStep_quiet env _).emit rfl rfl [.deleted] rfl (by simp [Event.isQuiet])
  · rw [if_neg failed]
    exact quiet_of_log rfl rfl [.connected] rfl (by simp [Event.isQuiet]) (by simp)

theorem connectStep_finStep (env : Env) (st : St) :
    (connectStep env st).finStep = st.finStep := by
  unfold connectStep
  by_cases failed : env.connectErr
  · rw [if_pos failed]
    dsimp only
    split
    · rfl
    · exact recvStep_finStep env _
  · rw [if_neg failed]
    rfl

theorem sendStep_quiet (st : St) : Quiet st (sendStep st) :=
  quiet_of_log rfl rfl [.sent st.sendbuf] rfl (by simp [Event.isQuiet]) (by simp [sendStep])

theorem suspendStep_quiet (st : St) (atSuspend : st.step = .suspend) :
    Quiet st (suspendStep st) :=
  quiet_of_log rfl rfl [.closed, .deleted] rfl (by simp [Event.isQuiet])
    (by simp [suspendStep, St.emit, atSuspend])

theorem codeSwitch_quiet (env : Env) (st : St) (getR : Item) (valueint : Int)
    (atParse : st.step = .parse) (code : valueint ≠ 0) :
    Quiet st (codeSwitch env st getR valueint) := by
  unfold codeSwitch
  rw [if_neg code]
  split_ifs
  · exact quiet_of_log rfl rfl [] (by simp) (by simp) (by simp)
  · split <;> exact quiet_of_log rfl rfl [] (by simp) (by simp) (by simp)
  · exact quiet_of_log rfl rfl [] (by simp) (by simp) (by simp)
  · exact quiet_of_log rfl rfl [] (by simp) (by simp) (by simp)
  · exact quiet_of_log rfl rfl [] (by simp) (by simp) (by simp [atParse])

theorem codeSwitch_finStep (env : Env) (st : St) (getR : Item) (valueint : Int)
    (code : valueint ≠ 0) (entered : (codeSwitch env st getR valueint).finStep = .que) :
    st.finStep = .que ∨ valueint = 2 ∨ valueint = 3 := by
  unfold codeSwitch at entered
  rw [if_neg code] at entered
  split_ifs at entered with one two three four
  · exact Or.inl entered
  · exact Or.inr (Or.inl two)
  · exact Or.inr (Or.inr three)
  · exact Or.inl entered
  · exact Or.inl entered

def NextStep.behind : NextStep → Step
  | .reg => .recv
  | .que => .compete

def NextStep.other : NextStep → NextStep
  | .reg => .que
  | .que => .reg

structure Stored (phase : NextStep) (st st' : St) : Prop where
  cells : st'.chip.cells = store st.chip.cells phase.addr (ofList (slice st.getPassidbuf 0 40)) 40
  log : st'.log = st.log ++ [.stored phase (slice st.getPassidbuf 0 40)]
  buf : st'.getPassidbuf = st.getPassidbuf
  status : st'.status = st.status
  step : st'.step = phase.behind
  finStep : st'.finStep = phase.other

theorem registerFlashStep_stored (env : Env) (st : St) : Stored .reg st (registerFlashStep env st) := by
  obtain ⟨chip, run, cells⟩ := storeCredential st.chip st.getPassidbuf .reg
  rw [show NextStep.reg.addr = 100 from rfl] at run
  unfold registerFlashStep
  simp only [run]
  exact ⟨cells, rfl, rfl, rfl, rfl, rfl⟩

theorem queryFalshStep_stored (st : St) : Stored .que st (queryFalshStep st) := by
  obtain ⟨chip, run, cells⟩ := storeCredential st.chip st.getPassidbuf .que
  rw [show NextStep.que.addr = queryFalshAddr from rfl] at run
  unfold queryFalshStep
  simp only [run]
  exact ⟨cells, rfl, rfl, rfl, rfl, rfl⟩

inductive Pass (env : Env) (st : St) : St → Prop
  | stopped (halted : st.status ≠ .running) : Pass env st st
  | quiet {st' : St} (running : st.status = .running)
      (waits : st.step ∈ [Step.recv, .send, .parse, .suspend, .connect]) (quiet : Quiet st st')
      (entered : st'.finStep = .que → st.finStep = .que ∨ st.step = .parse ∧
        ∃ getR valueint valuedouble, (valueint = 2 ∨ valueint = 3) ∧
          readAck env (recvText env st) = some (getR, .number valueint valuedouble)) :
      Pass env st st'
  | issue {getR : Item} {valuedouble : Rat} {value : List UInt8} (running : st.status = .running)
      (atParse : st.step = .parse)
      (ack : readAck env (recvText env st) = some (getR, .number 0 valuedouble))
      (found : getR.getObjectItem (ascii "value") = some (.string value)) :
      Pass env st
        { st.emit [.reply st.finStep (recvText env st), .issued st.finStep (cstr value)] with
          getPassidbuf := sprintfString st.getPassidbuf value
          step := st.finStep.flashStep }
  | absent {getR : Item} {valuedouble : Rat} (running : st.status = .running)
      (atParse : st.step = .parse)
      (ack : readAck env (recvText env st) = some (getR, .number 0 valuedouble))
      (missing : getR.getObjectItem (ascii "value") = none) :
      Pass env st { st.emit [.reply st.finStep (recvText env st), .absentMember] with
        status := .faulted }
  | malformed {st' : St} {getR code : Item} (running : st.status = .running)
      (atParse : st.step = .parse) (ack : readAck env (recvText env st) = some (getR, code))
      (other : ∀ valueint valuedouble, code ≠ .number valueint valuedouble)
      (stored : Stored .reg (st.emit [.reply st.finStep (recvText env st)]) st') : Pass env st st'
  | flash {st' : St} (phase : NextStep) (running : st.status = .running)
      (atFlash : st.step = phase.flashStep) (stored : Stored phase st st') : Pass env st st'
  | compete (running : st.status = .running) (atCompete : st.step = .compete) :
      Pass env st (competeStep st)

theorem storeValue_pass {env : Env} {st : St} {getR : Item} {valuedouble : Rat}
    (running : st.status = .running) (atParse : st.step = .parse)
    (ack : readAck env (recvText env st) = some (getR, .number 0 valuedouble)) :
    Pass env st (storeValue (st.emit [.reply st.finStep (recvText env st)]) getR) := by
  unfold storeValue
  cases value : getR.getObjectItem (ascii "value") with
  | none =>
    have pass := Pass.absent running atParse ack value
    simpa [St.emit] using pass
  | some item =>
    cases item with
    | string s =>
      have pass := Pass.issue running atParse ack value
      cases phase : st.finStep <;> simpa [St.emit, phase, NextStep.flashStep] using pass
    | _ =>
      refine Pass.quiet running (by simp [atParse]) ?_ Or.inl
      exact quiet_of_log rfl rfl [.reply st.finStep (recvText env st)] rfl (by simp [Event.isQuiet])
        (by simp [St.emit, atParse])

theorem parseStep_pass {env : Env} {st : St} (running : st.status = .running)
    (atParse : st.step = .parse) : Pass env st (parseStep env st) := by
  have replyQuiet : ∀ e ∈ [Event.reply st.finStep (recvText env st)], e.isQuiet := by
    simp [Event.isQuiet]
  have waits : st.step ∈ [Step.recv, .send, .parse, .suspend, .connect] := by simp [atParse]
  unfold parseStep
  dsimp only
  cases ack : readAck env (recvText env st) with
  | none => exact Pass.quiet running waits (quiet_of_log rfl rfl _ rfl replyQuiet (by simp)) Or.inl
  | some pair =>
    obtain ⟨getR, code⟩ := pair
    cases code with
    | number valueint valuedouble =>
      by_cases zero : valueint = 0
      · subst zero
        exact storeValue_pass running atParse ack
      · have quiet := codeSwitch_quiet env (st.emit [.reply st.finStep (recvText env st)]) getR
          valueint atParse zero
        refine Pass.quiet running waits (quiet.emit rfl rfl _ rfl replyQuiet) (fun entered => ?_)
        rcases codeSwitch_finStep env _ getR valueint zero entered with before | two
        · exact Or.inl before
        · exact Or.inr ⟨atParse, getR, valueint, valuedouble, two, ack⟩
    | _ => exact Pass.malformed running atParse ack (by simp) (registerFlashStep_stored env _)

theorem tcpClientStep_pass (env : Env) (st : St) : Pass env st (tcpClientStep env st) := by
  unfold tcpClientStep
  by_cases running : st.status = .running
  · rw [if_neg (by simp [running])]
    cases atStep : st.step with
    | connect =>
      refine Pass.quiet running (by simp [atStep]) (connectStep_quiet env st) (fun entered => ?_)
      exact Or.inl ((connectStep_finStep env st).symm.trans entered)
    | recv =>
      refine Pass.quiet running (by simp [atStep]) (recvStep_quiet env st) (fun entered => ?_)
      exact Or.inl ((recvStep_finStep env st).symm.trans entered)
    | send => exact Pass.quiet running (by simp [atStep]) (sendStep_quiet st) Or.inl
    | suspend => exact Pass.quiet running (by simp [atStep]) (suspendStep_quiet st atStep) Or.inl
    | registerFlash => exact Pass.flash .reg running atStep (registerFlashStep_stored env st)
    | queryFalsh => exact Pass.flash .que running atStep (queryFalshStep_stored st)
    | parse => exact parseStep_pass running atStep
    | compete => exact Pass.compete running atStep
  · rw [if_pos running]
    exact Pass.stopped running

/-- Between `PARSE_STEP` and the flash step: the log ends with the reply and its value,
and the buffer starts with that value. -/
def Pending (st : St) (phase : NextStep) : Prop :=
  ∃ earlier text value, st.log = earlier ++ [.reply phase text, .issued phase value] ∧
    success text = some value ∧ (value ++ [0]).take 40 <+: slice st.getPassidbuf 0 40

structure Audited (boot : Mem) (st : St) : Prop where
  earned : Justified Earned st.log
  cells : st.chip.cells = replay st.log boot
  pending : ∀ phase : NextStep, st.step = phase.flashStep → Pending st phase

theorem replay_quiet (es : List Event) (free : ∀ e ∈ es, e.isQuiet) (cells : Mem) :
    replay es cells = cells := by
  induction es generalizing cells with
  | nil => rfl
  | cons e es ih =>
    have rest := ih (fun f hf => free f (by simp [hf]))
    have head := free e (by simp)
    cases e <;> first | exact rest cells | simp [Event.isQuiet] at head

theorem earned_quiet {e : Event} (free : e.isQuiet) (past : List Event) : Earned past e := by
  cases e <;> trivial

theorem Quiet.audited {boot : Mem} {st st' : St} (quiet : Quiet st st') (inv : Audited boot st) :
    Audited boot st' := by
  obtain ⟨es, log, free⟩ := quiet.log
  refine ⟨?_, ?_, fun phase atFlash => absurd atFlash (quiet.flash phase)⟩
  · rw [log]
    exact justified_append inv.earned (fun e he => earned_quiet (free e he))
  · rw [quiet.chip, log, replay_append, replay_quiet es free, inv.cells]

theorem sprintf_prefix (buf : Mem) (s : List UInt8) :
    (cstr s ++ [0]).take 40 <+: slice (sprintfString buf s) 0 40 :=
  take_prefix_slice buf (cstr s ++ [0]) 40

theorem Stored.audited {boot : Mem} {st st' : St} {phase : NextStep} (stored : Stored phase st st')
    (pending : Pending st phase) (inv : Audited boot st) : Audited boot st' := by
  refine ⟨?_, ?_, fun other atFlash => ?_⟩
  · rw [stored.log, justified_concat]
    exact ⟨inv.earned, pending⟩
  · rw [stored.cells, stored.log, replay_append, inv.cells]
    rfl
  · rw [stored.step] at atFlash
    cases phase <;> cases other <;> cases atFlash

theorem success_eq {env : Env} {text : List UInt8} {getR : Item} {valueint : Int} {value : List UInt8}
    (ack : readAck env text = some (getR, .number valueint 0))
    (string : getR.getObjectItem (ascii "value") = some (.string value)) :
    success text = some (cstr value) := by
  unfold readAck at ack
  split_ifs at ack
  obtain ⟨doc, parsed, member⟩ := Option.bind_eq_some_iff.mp ack
  obtain ⟨code, found, pair⟩ := Option.map_eq_some_iff.mp member
  obtain ⟨rfl, rfl⟩ := Prod.mk.injEq .. ▸ pair
  simp [success, parsed, found, string]

theorem Pass.audited {boot : Mem} {env : Env} {st st' : St} (pass : Pass env st st')
    (regular : WellFormed env st) (inv : Audited boot st) : Audited boot st' := by
  cases pass with
  | stopped => exact inv
  | quiet running waits quiet entered => exact quiet.audited inv
  | @issue getR valuedouble value running atParse ack found =>
    have wellFormed := regular running atParse
    have zero : valuedouble = 0 := by simpa [ack, wellFormedAck, found, isString] using wellFormed
    subst zero
    refine ⟨?_, ?_, fun phase atFlash => ?_⟩
    · exact justified_append inv.earned (by simp [Earned])
    · rw [St.emit_log, replay_append]
      exact inv.cells
    · have phases : st.finStep = phase := by
        revert atFlash
        cases st.finStep <;> cases phase <;> simp [NextStep.flashStep]
      rw [← phases]
      exact ⟨st.log, _, _, rfl, success_eq ack found, sprintf_prefix st.getPassidbuf value⟩
  | absent running atParse ack missing =>
    have wellFormed := regular running atParse
    simp [ack, wellFormedAck, missing] at wellFormed
  | @malformed _ getR code running atParse ack other stored =>
    have wellFormed := regular running atParse
    rw [ack] at wellFormed
    cases code with
    | number valueint valuedouble => exact absurd rfl (other valueint valuedouble)
    | _ => simp [wellFormedAck] at wellFormed
  | flash phase running atFlash stored => exact stored.audited (inv.pending phase atFlash) inv
  | compete running atCompete =>
    refine ⟨justified_append inv.earned (by simp [Earned]), ?_, fun phase atFlash => ?_⟩
    · rw [show (competeStep st).log = st.log ++ [.posted, .closed, .deleted] from rfl, replay_append]
      exact inv.cells
    · rw [show (competeStep st).step = st.step from rfl, atCompete] at atFlash
      cases phase <;> cases atFlash

theorem tcpClientThread_audited (env : Env) (chip : Chip) (ram : Mem) :
    Audited chip.cells (tcpClientThread env chip ram) := by
  unfold tcpClientThread
  dsimp only
  split
  · refine ⟨justified_nil, rfl, fun phase atFlash => ?_⟩
    cases phase <;> cases atFlash
  · refine ⟨?_, rfl, fun phase atFlash => ?_⟩
    · exact (justified_concat [] Event.posted).mpr ⟨justified_nil, trivial⟩
    · cases phase <;> cases atFlash

/-- While the replies are well formed, both areas are written only by what a successful
reply of their phase carries, the flash is what those stores make of it, and no missing
member is read. -/
theorem stores_earned (env : Env) (chip : Chip) (ram : Mem) (envs : List Env)
    (regular : Along tcpClientStep WellFormed envs (tcpClientThread env chip ram)) :
    Justified Earned (runThread env chip ram envs).log ∧
      (runThread env chip ram envs).chip.cells =
        replay (runThread env chip ram envs).log chip.cells := by
  have inv := run_invariant (fun env st => (tcpClientStep_pass env st).audited) regular
    (tcpClientThread_audited env chip ram)
  exact ⟨inv.earned, inv.cells⟩

def answer (text : List UInt8) : Env :=
  { connectErr := false
    recv := .ok [text]
    recvTail := []
    heapFull := false
    sn0 := 0
    longitude := []
    latitude := [] }

def blank : Chip := ⟨fun _ => 0xFF, false⟩

/-- `"code":0,"value":"a"`, in braces. -/
def codeZero : Env := answer (ascii "\x7b\"code\":0,\"value\":\"a\"\x7d")

theorem stores_earned_registration :
    Along tcpClientStep WellFormed (List.replicate 8 codeZero)
        (tcpClientThread codeZero blank (fun _ => 0)) ∧
      Justified Earned
        (runThread codeZero blank (fun _ => 0) (List.replicate 8 codeZero)).log := by
  have regular : Along tcpClientStep WellFormed (List.replicate 8 codeZero)
      (tcpClientThread codeZero blank (fun _ => 0)) := by decide +kernel
  exact ⟨regular, (stores_earned codeZero blank (fun _ => 0) _ regular).1⟩

/-- The missing `break`: a code that is not a number stores what is left in the buffer. -/
theorem malformed_stores (env : Env) (st : St) (running : st.status = .running)
    (atStep : st.step = .parse) (getR code : Item)
    (ack : readAck env (recvText env st) = some (getR, code))
    (other : ∀ valueint valuedouble, code ≠ .number valueint valuedouble) :
    (tcpClientStep env st).log = st.log ++
      [.reply st.finStep (recvText env st), .stored .reg (slice st.getPassidbuf 0 40)] := by
  have out : tcpClientStep env st =
      registerFlashStep env (st.emit [.reply st.finStep (recvText env st)]) := by
    rw [tcpClientStep, if_neg (by simp [running]), atStep]
    dsimp only
    rw [parseStep, ack]
    cases code with
    | number valueint valuedouble => exact absurd rfl (other valueint valuedouble)
    | _ => rfl
  have stored := registerFlashStep_stored env (st.emit [.reply st.finStep (recvText env st)])
  rw [out, stored.log]
  simp [St.emit]

theorem malformed_unearned (env : Env) (st : St) (running : st.status = .running)
    (atStep : st.step = .parse) (getR code : Item)
    (ack : readAck env (recvText env st) = some (getR, code))
    (other : ∀ valueint valuedouble, code ≠ .number valueint valuedouble) :
    ¬ Justified Earned (tcpClientStep env st).log := by
  rw [malformed_stores env st running atStep getR code ack other]
  intro earned
  obtain ⟨earlier, reply, value, past, _⟩ :=
    earned (st.log ++ [.reply st.finStep (recvText env st)])
      (.stored .reg (slice st.getPassidbuf 0 40)) [] (by simp)
  rw [show earlier ++ [Event.reply .reg reply, .issued .reg value] =
    (earlier ++ [.reply .reg reply]) ++ [.issued .reg value] by simp] at past
  have last := (List.append_inj' past rfl).2
  simp at last

theorem runThread_concat (env : Env) (chip : Chip) (ram : Mem) (envs : List Env) (e : Env) :
    runThread env chip ram (envs ++ [e]) = tcpClientStep e (runThread env chip ram envs) := by
  rw [runThread, run_append]
  rfl

def codeText : Env := answer (ascii "\x7b\"code\":\"x\"\x7d")

theorem codeText_code : ∃ getR text,
    readAck codeText (recvText codeText (runThread codeText blank (fun _ => 0) [codeText, codeText]))
      = some (getR, .string text) := by
  have shape : (readAck codeText (recvText codeText
      (runThread codeText blank (fun _ => 0) [codeText, codeText]))).any
        (fun ack => isString ack.2) = true := by decide +kernel
  obtain ⟨⟨getR, code⟩, ack, string⟩ := (Option.any_eq_true _ _).mp shape
  cases code with
  | string text => exact ⟨getR, text, ack⟩
  | _ => cases string

/-- In answer to the first request it writes the id area. -/
theorem stores_unearned :
    ¬ ∀ (env : Env) (chip : Chip) (ram : Mem) (envs : List Env),
      Justified Earned (runThread env chip ram envs).log ∧
        (runThread env chip ram envs).chip.cells =
          replay (runThread env chip ram envs).log chip.cells := by
  intro all
  obtain ⟨getR, text, ack⟩ := codeText_code
  have earned := (all codeText blank (fun _ => 0) ([codeText, codeText] ++ [codeText])).1
  rw [runThread_concat] at earned
  exact malformed_unearned codeText _ (by decide +kernel) (by decide +kernel) getR _ ack
    (by simp) earned

/-- A credential area holds a credential: a successful reply of its phase was stored in
this run, or `check_flash` found it in use at power-on. -/
def Holds (boot : Mem) (past : List Event) (phase : NextStep) : Prop :=
  (∃ earlier text value bytes later,
    past = earlier ++ [.reply phase text, .issued phase value, .stored phase bytes] ++ later ∧
    success text = some value ∧ (value ++ [0]).take 40 <+: bytes) ∨
  checkFlash (shift boot phase.addr) ≠ 0

/-- The semaphore is posted only with both credentials in place. -/
def Vouched (boot : Mem) (past : List Event) : Event → Prop
  | .posted => ∀ phase, Holds boot past phase
  | _ => True

theorem Holds.append {boot : Mem} {past : List Event} {phase : NextStep}
    (holds : Holds boot past phase) (more : List Event) : Holds boot (past ++ more) phase := by
  rcases holds with ⟨earlier, text, value, bytes, later, split, rest⟩ | inUse
  · exact Or.inl ⟨earlier, text, value, bytes, later ++ more, by simp [split], rest⟩
  · exact Or.inr inUse

structure Provided (boot : Mem) (st : St) : Prop where
  posts : Justified (Vouched boot) st.log
  que : st.finStep = .que → Holds boot st.log .reg
  flash : ∀ phase : NextStep, st.step = phase.flashStep →
    (phase = .que → st.finStep = .que) ∧ (Holds boot st.log phase ∨ Pending st phase)
  compete : st.step = .compete → ∀ phase, Holds boot st.log phase

theorem Pending.holds {boot : Mem} {st : St} {phase : NextStep} (pending : Pending st phase) :
    Holds boot (st.log ++ [.stored phase (slice st.getPassidbuf 0 40)]) phase := by
  obtain ⟨earlier, text, value, log, rest⟩ := pending
  exact Or.inl ⟨earlier, text, value, slice st.getPassidbuf 0 40, [], by simp [log], rest⟩

theorem Provided.stored {boot : Mem} {st : St} {phase : NextStep} (inv : Provided boot st)
    (atFlash : st.step = phase.flashStep) :
    Holds boot (st.log ++ [.stored phase (slice st.getPassidbuf 0 40)]) phase :=
  (inv.flash phase atFlash).2.elim (fun holds => holds.append _) Pending.holds

theorem checkFlash_read (chip : Chip) (p : Mem) (phase : NextStep) :
    checkFlash (w25qxxRead chip p phase.addr 40) = 0 ↔
      checkFlash (shift chip.cells phase.addr) = 0 := by
  have room : phase.addr + 40 ≤ 2^24 := by cases phase <;> decide
  have same : ∀ k < 40, w25qxxRead chip p phase.addr 40 k = shift chip.cells phase.addr k :=
    fun k hk => w25qxxRead_apply chip p phase.addr 40 k hk room
  rw [checkFlash_eq_zero, checkFlash_eq_zero, same 0 (by omega)]
  exact forall₂_congr (fun k hk => by rw [same k hk])

def Event.stores (phase : NextStep) : Event → Bool
  | .stored other _ => other = phase
  | _ => false

def Event.isPosted : Event → Bool
  | .posted => true
  | _ => false

theorem mem_posted {log : List Event} (posted : log.any Event.isPosted = true) : .posted ∈ log := by
  obtain ⟨e, member, isPosted⟩ := List.any_eq_true.mp posted
  have same : e = .posted := by
    revert isPosted
    cases e <;> simp [Event.isPosted]
  exact same ▸ member

theorem Holds.stored {boot : Mem} {log : List Event} {phase : NextStep}
    (holds : Holds boot log phase) (wasBlank : checkFlash (shift boot phase.addr) = 0) :
    log.any (Event.stores phase) = true := by
  rcases holds with ⟨earlier, text, value, bytes, later, split, _⟩ | inUse
  · simp [split, Event.stores]
  · exact absurd wasBlank inUse

end BoxFirmware.TcpClient
