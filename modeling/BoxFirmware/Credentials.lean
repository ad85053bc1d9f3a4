import BoxFirmware.MqttLogin
import BoxFirmware.TcpClient

/-! The two credentials of the box, from the replies that issue them to the CONNECT after a
restart. A record of forty bytes starts with the string and its terminator, and what a longer
value has left in the buffer only stands behind them. -/
namespace BoxFirmware.Credentials
open ByteMem CText GuardedRun TcpClient W25qxx

/-- A string that fits a record with its terminator. -/
structure Credential where
  text : List UInt8
  nonempty : text ≠ []
  short : text.length < 40
  chars : ∀ c ∈ text, c ≠ 0

def area (chip : Chip) (phase : NextStep) : List UInt8 := slice chip.cells phase.addr 40

def Carries (value bytes : List UInt8) : Prop := (value ++ [0]).take 40 <+: bytes

def issuedValue (phase : NextStep) : Event → Option (List UInt8)
  | .issued other value => if other = phase then some value else none
  | _ => none

/-- The value that the server has issued last. -/
def lastIssued (phase : NextStep) (log : List Event) : Option (List UInt8) :=
  log.reverse.findSome? (issuedValue phase)

/-- The thread finds both records in use, and the other thread logs in with these strings. -/
def Registered (chip : Chip) (username password : List UInt8) : Prop :=
  (∀ env ram envs, (runThread env chip ram envs).log = [.posted] ∧
    (runThread env chip ram envs).status = .suspended ∧ (runThread env chip ram envs).chip = chip) ∧
  ∀ (b : MqttThread.Board) (s : MqttThread.Start) (env : MqttThread.Env)
    (envs : List MqttThread.Env), b.chip = chip →
    (∃ len rc, .sent s.sock (MqttLogin.connectPacket b.clientId username password) len rc ∈
      MqttThread.trace s (MqttThread.rounds b s (env :: envs))) ∧
    ∀ e ∈ MqttThread.trace s (MqttThread.rounds b s (env :: envs)),
      MqttLogin.LogsIn b.clientId username password e

/-- A pass that stores one credential leaves the record of the other as it was, and one that
stores none leaves the flash. -/
def StoresOne (st st' : St) : Prop :=
  ∃ es, st'.log = st.log ++ es ∧
    (∀ phase bytes, .stored phase bytes ∈ es →
      area st'.chip phase = bytes ∧ ∀ other, other ≠ phase → area st'.chip other = area st.chip other) ∧
    ((∀ phase bytes, .stored phase bytes ∉ es) → st'.chip = st.chip)

section Records

variable (u : Credential)

theorem Credential.front {bytes : List UInt8} (carries : Carries u.text bytes) :
    ∃ rest, bytes = u.text ++ 0 :: rest := by
  obtain ⟨rest, whole⟩ := carries
  have short := u.short
  rw [List.take_of_length_le (by simp; omega)] at whole
  exact ⟨rest, by simp [← whole]⟩

theorem Credential.inUse {m : Mem} (carries : Carries u.text (slice m 0 40)) : checkFlash m ≠ 0 := by
  intro blank
  obtain ⟨rest, bytes⟩ := u.front carries
  have same : ∀ c ∈ slice m 0 40, c = m 0 := by
    intro c member
    obtain ⟨k, hk, rfl⟩ := List.mem_map.mp member
    rw [Nat.zero_add]
    exact (checkFlash_eq_zero m).mp blank k (List.mem_range.mp hk)
  have terminator : (0 : UInt8) = m 0 := same 0 (by simp [bytes])
  obtain ⟨c, text, head⟩ := List.exists_cons_of_ne_nil u.nonempty
  have first : c = m 0 := same c (by simp [bytes, head])
  exact u.chars c (by simp [head]) (first.trans terminator.symm)

theorem Credential.read {chip : Chip} {phase : NextStep} (carries : Carries u.text (area chip phase)) :
    MqttThread.readCredential chip phase.addr = u.text := by
  have room : phase.addr + 40 ≤ 2^24 := by cases phase <;> decide
  have record : slice (w25qxxRead chip (fun _ => 0) phase.addr 40) 0 40 = area chip phase := by
    refine slice_congr (fun k hk => ?_)
    rw [Nat.zero_add]
    exact w25qxxRead_apply chip _ phase.addr 40 k hk room
  obtain ⟨rest, bytes⟩ := u.front carries
  rw [MqttThread.readCredential, show 64 = 40 + 24 from rfl, slice_add, record,
    cstr_append_of_mem _ _ (by simp [bytes]), bytes]
  exact cstr_append_zero u.text rest u.chars

theorem area_store {chip chip' : Chip} {phase : NextStep} {buf : Mem}
    (cells : chip'.cells = store chip.cells phase.addr (ofList (slice buf 0 40)) 40)
    (other : NextStep) :
    area chip' other = if other = phase then slice buf 0 40 else area chip other := by
  rw [area, cells, store_slice]
  by_cases own : other = phase
  · rw [if_pos own, own, slice_store]
  · rw [if_neg own]
    refine slice_store_apart _ _ _ _ _ _ ?_
    cases phase <;> cases other <;> first | exact absurd rfl own | decide

end Records

section Log

variable {phase : NextStep} {log es : List Event}

theorem lastIssued_append : lastIssued phase (log ++ es) =
    (lastIssued phase es).or (lastIssued phase log) := by
  rw [lastIssued, List.reverse_append, List.findSome?_append]
  rfl

theorem lastIssued_same (same : ∀ e ∈ es, issuedValue phase e = none) :
    lastIssued phase (log ++ es) = lastIssued phase log := by
  have none : lastIssued phase es = none := by
    refine List.findSome?_eq_none_iff.mpr (fun e he => same e ?_)
    exact List.mem_reverse.mp he
  rw [lastIssued_append, none, Option.none_or]

theorem issuedValue_quiet {e : Event} (free : e.isQuiet) : issuedValue phase e = none := by
  cases e <;> first | rfl | cases free

end Log

/-- Where the values issued last are, by the step of the thread: in the buffer until their
flash step, in their record from then on. -/
structure Carried (st : St) : Prop where
  reg : ∀ u, lastIssued .reg st.log = some u →
    st.step = .registerFlash ∨ Carries u (area st.chip .reg)
  que : ∀ p, lastIssued .que st.log = some p →
    st.step = .queryFalsh ∧ Carries p (slice st.getPassidbuf 0 40) ∨
      st.step = .compete ∧ Carries p (area st.chip .que)
  buf : ∀ u, lastIssued .reg st.log = some u → lastIssued .que st.log = none →
    Carries u (slice st.getPassidbuf 0 40)
  posted : .posted ∈ st.log →
    st.status = .suspended ∧ (st.step = .compete ∨ ∀ phase, lastIssued phase st.log = none)

section Pass

variable {env : Env} {st st' : St}

theorem Carried.unposted (inv : Carried st) (running : st.status = .running) : .posted ∉ st.log := by
  intro posted
  have suspended := (inv.posted posted).1
  rw [running] at suspended
  cases suspended

/-- Once a passcode is issued, only its flash step and the end of the run follow. -/
theorem Carried.unissued (inv : Carried st) (flash : st.step ≠ .queryFalsh)
    (compete : st.step ≠ .compete) : lastIssued .que st.log = none := by
  cases que : lastIssued .que st.log with
  | none => rfl
  | some p =>
    rcases inv.que p que with ⟨atFlash, _⟩ | ⟨atCompete, _⟩
    · exact absurd atFlash flash
    · exact absurd atCompete compete

theorem Carried.extend {es : List Event} (inv : Carried st) (step : st'.step = st.step)
    (chip : st'.chip = st.chip) (buf : st'.getPassidbuf = st.getPassidbuf)
    (log : st'.log = st.log ++ es) (plain : ∀ e ∈ es, ∀ phase, issuedValue phase e = none)
    (posted : .posted ∈ st'.log → st'.status = .suspended ∧ st.step = .compete) : Carried st' := by
  have same : ∀ phase, lastIssued phase st'.log = lastIssued phase st.log := fun phase => by
    rw [log, lastIssued_same (fun e he => plain e he phase)]
  refine ⟨?_, ?_, ?_, fun member => ⟨(posted member).1, Or.inl (step.trans (posted member).2)⟩⟩
  · simpa only [same, step, chip] using inv.reg
  · simpa only [same, step, chip, buf] using inv.que
  · simpa only [same, buf] using inv.buf

theorem carried_quiet (quiet : Quiet st st') (running : st.status = .running)
    (step : st.step ∈ [Step.recv, .send, .parse, .suspend, .connect]) (inv : Carried st) :
    Carried st' := by
  have busy : st.step ≠ .registerFlash ∧ st.step ≠ .queryFalsh ∧ st.step ≠ .compete := by
    refine ⟨?_, ?_, ?_⟩ <;> intro same <;> rw [same] at step <;> simp at step
  obtain ⟨es, log, free⟩ := quiet.log
  have same : ∀ phase, lastIssued phase st'.log = lastIssued phase st.log := fun phase => by
    rw [log, lastIssued_same (fun e he => issuedValue_quiet (free e he))]
  have none := inv.unissued busy.2.1 busy.2.2
  refine ⟨fun u id => ?_, fun p passcode => ?_, fun u id _ => ?_, fun posted => ?_⟩
  · rw [same] at id
    rw [area, quiet.chip]
    exact Or.inr ((inv.reg u id).resolve_left busy.1)
  · rw [same, none] at passcode
    cases passcode
  · rw [same] at id
    rw [quiet.buf]
    exact inv.buf u id none
  · rw [log] at posted
    rcases List.mem_append.mp posted with before | now
    · exact absurd before (inv.unposted running)
    · cases free _ now

theorem stored_issues {phase : NextStep} (stored : Stored phase st st') (other : NextStep) :
    lastIssued other st'.log = lastIssued other st.log := by
  rw [stored.log, lastIssued_same (by simp [issuedValue])]

theorem register_carried (stored : Stored .reg st st') (running : st.status = .running)
    (flash : st.step ≠ .queryFalsh) (compete : st.step ≠ .compete) (inv : Carried st) :
    Carried st' := by
  have same := stored_issues stored
  have none := inv.unissued flash compete
  refine ⟨fun u id => Or.inr ?_, fun p passcode => ?_, fun u id _ => ?_, fun posted => ?_⟩
  · rw [same] at id
    rw [area_store stored.cells, if_pos rfl]
    exact inv.buf u id none
  · rw [same, none] at passcode
    cases passcode
  · rw [same] at id
    rw [stored.buf]
    exact inv.buf u id none
  · rw [stored.log] at posted
    exact absurd (by simpa using posted) (inv.unposted running)

theorem query_carried (stored : Stored .que st st') (running : st.status = .running)
    (atFlash : st.step = .queryFalsh) (inv : Carried st) : Carried st' := by
  have same := stored_issues stored
  refine ⟨fun u id => Or.inr ?_, fun p passcode => Or.inr ⟨stored.step, ?_⟩, fun u id none => ?_,
    fun posted => ?_⟩
  · rw [same] at id
    have before := (inv.reg u id).resolve_left (by simp [atFlash])
    rwa [area_store stored.cells, if_neg (by simp)]
  · rw [same] at passcode
    have pending := (inv.que p passcode).resolve_right (by simp [atFlash])
    rw [area_store stored.cells, if_pos rfl]
    exact pending.2
  · rw [same] at id none
    rw [stored.buf]
    exact inv.buf u id none
  · rw [stored.log] at posted
    exact absurd (by simpa using posted) (inv.unposted running)

theorem issue_carried (text value : List UInt8) (running : st.status = .running)
    (atStep : st.step = .parse) (inv : Carried st) :
    Carried { st.emit [.reply st.finStep text, .issued st.finStep (cstr value)] with
      getPassidbuf := sprintfString st.getPassidbuf value
      step := st.finStep.flashStep } := by
  have none := inv.unissued (by simp [atStep]) (by simp [atStep])
  have pending := sprintf_prefix st.getPassidbuf value
  have unposted : .posted ∉ st.log ++ [.reply st.finStep text, .issued st.finStep (cstr value)] := by
    simp [inv.unposted running]
  cases phase : st.finStep with
  | reg =>
    have id : lastIssued .reg (st.log ++ [.reply .reg text, .issued .reg (cstr value)]) =
        some (cstr value) := by
      rw [lastIssued_append]
      rfl
    have passcode : lastIssued .que (st.log ++ [.reply .reg text, .issued .reg (cstr value)]) =
        .none := by
      rw [lastIssued_same (by simp [issuedValue]), none]
    rw [phase] at unposted
    refine ⟨fun _ _ => Or.inl rfl, fun p eq => ?_, fun u eq _ => ?_, fun posted => absurd posted unposted⟩
    · rw [St.emit_log, passcode] at eq
      cases eq
    · rw [St.emit_log, id] at eq
      cases eq
      exact pending
  | que =>
    have id : lastIssued .reg (st.log ++ [.reply .que text, .issued .que (cstr value)]) =
        lastIssued .reg st.log := lastIssued_same (by simp [issuedValue])
    have passcode : lastIssued .que (st.log ++ [.reply .que text, .issued .que (cstr value)]) =
        some (cstr value) := by
      rw [lastIssued_append]
      rfl
    rw [phase] at unposted
    refine ⟨fun u eq => Or.inr ?_, fun p eq => Or.inl ⟨rfl, ?_⟩, fun u _ eq => ?_,
      fun posted => absurd posted unposted⟩
    · rw [St.emit_log, id] at eq
      exact (inv.reg u eq).resolve_left (by simp [atStep])
    · rw [St.emit_log, passcode] at eq
      cases eq
      exact pending
    · rw [St.emit_log, passcode] at eq
      cases eq

theorem pass_carried (pass : Pass env st st') (inv : Carried st) : Carried st' := by
  cases pass with
  | stopped => exact inv
  | quiet running waits quiet entered => exact carried_quiet quiet running waits inv
  | @issue getR valuedouble value running atParse ack found =>
    exact issue_carried _ value running atParse inv
  | absent running atParse ack missing =>
    refine inv.extend rfl rfl rfl rfl (by simp [issuedValue]) (fun posted => ?_)
    exact absurd (by simpa [St.emit] using posted) (inv.unposted running)
  | malformed running atParse ack other stored =>
    have waiting : Carried (st.emit [.reply st.finStep (recvText env st)]) := by
      refine inv.extend rfl rfl rfl rfl (by simp [issuedValue]) (fun posted => ?_)
      exact absurd (by simpa [St.emit] using posted) (inv.unposted running)
    exact register_carried stored running (by simp [St.emit, atParse]) (by simp [St.emit, atParse])
      waiting
  | flash phase running atFlash stored =>
    cases phase with
    | reg => exact register_carried stored running (by rw [atFlash]; decide) (by rw [atFlash]; decide) inv
    | que => exact query_carried stored running atFlash inv
  | compete running atCompete =>
    exact inv.extend rfl rfl rfl rfl (by simp [issuedValue]) (fun _ => ⟨rfl, atCompete⟩)

theorem tcpClientThread_carried (env : Env) (chip : Chip) (ram : Mem) :
    Carried (tcpClientThread env chip ram) := by
  unfold tcpClientThread
  dsimp only
  split
  · refine ⟨?_, ?_, ?_, ?_⟩ <;> simp [lastIssued]
  · refine ⟨?_, ?_, ?_, ?_⟩ <;> simp [lastIssued, St.emit, issuedValue]

end Pass

section Stores

variable {st st' : St}

theorem storesOne_quiet (quiet : Quiet st st') : StoresOne st st' := by
  obtain ⟨es, log, free⟩ := quiet.log
  refine ⟨es, log, fun phase bytes member => ?_, fun _ => quiet.chip⟩
  cases free _ member

theorem storesOne_flash {mid : St} {phase : NextStep} (es : List Event) (stored : Stored phase mid st')
    (log : mid.log = st.log ++ es) (chip : mid.chip = st.chip) (free : ∀ e ∈ es, e.isQuiet) :
    StoresOne st st' := by
  have cells := stored.cells
  refine ⟨es ++ [.stored phase (slice mid.getPassidbuf 0 40)],
    by rw [stored.log, log, List.append_assoc], fun next bytes member => ?_, fun none => ?_⟩
  · rcases List.mem_append.mp member with before | own
    · cases free _ before
    · cases List.mem_singleton.mp own
      refine ⟨by rw [area_store cells, if_pos rfl], fun other ne => ?_⟩
      rw [area_store cells, if_neg ne, chip]
  · exact absurd (by simp) (none phase (slice mid.getPassidbuf 0 40))

theorem pass_storesOne {env : Env} (pass : Pass env st st') : StoresOne st st' := by
  cases pass with
  | stopped => exact ⟨[], by simp, by simp, fun _ => rfl⟩
  | quiet running waits quiet entered => exact storesOne_quiet quiet
  | issue => exact ⟨_, rfl, by simp, fun _ => rfl⟩
  | absent => exact ⟨_, rfl, by simp, fun _ => rfl⟩
  | malformed running atParse ack other stored =>
    exact storesOne_flash [.reply st.finStep (recvText env st)] stored rfl rfl (by simp [Event.isQuiet])
  | flash phase running atFlash stored => exact storesOne_flash [] stored (by simp) rfl (by simp)
  | compete => exact ⟨[.posted, .closed, .deleted], rfl, by simp, fun _ => rfl⟩

end Stores

section Restart

variable {chip : Chip} {u p : Credential}

theorem tcpClientThread_registered (id : Carries u.text (area chip .reg))
    (passcode : Carries p.text (area chip .que)) (env : Env) (ram : Mem) :
    (tcpClientThread env chip ram).log = [.posted] ∧
      (tcpClientThread env chip ram).status = .suspended ∧
      (tcpClientThread env chip ram).chip = chip := by
  have inUse : ∀ (c : Credential) (phase : NextStep) (buf : Mem), Carries c.text (area chip phase) →
      checkFlash (w25qxxRead chip buf phase.addr 40) ≠ 0 := by
    intro c phase buf carries zero
    have record : slice (shift chip.cells phase.addr) 0 40 = area chip phase :=
      slice_congr (fun k _ => by simp)
    exact c.inUse (record ▸ carries) ((checkFlash_read chip buf phase).mp zero)
  have branch : ¬ (checkFlash (w25qxxRead chip (fun _ => 0) 100 40) = 0 ∨
      checkFlash (w25qxxRead chip (fun _ => 0) 200 40) = 0) :=
    not_or.mpr ⟨inUse u .reg _ id, inUse p .que _ passcode⟩
  unfold tcpClientThread
  dsimp only
  rw [if_neg branch]
  exact ⟨rfl, rfl, rfl⟩

theorem run_suspended (envs : List Env) {st : St} (stopped : st.status ≠ .running) :
    run tcpClientStep envs st = st := by
  induction envs with
  | nil => rfl
  | cons env envs ih => rw [run_cons, tcpClientStep, if_pos stopped, ih]

theorem registered_of_carries (id : Carries u.text (area chip .reg))
    (passcode : Carries p.text (area chip .que)) : Registered chip u.text p.text := by
  constructor
  · intro env ram envs
    have start := tcpClientThread_registered id passcode env ram
    rw [runThread, run_suspended envs (by simp [start.2.1])]
    exact start
  · intro b s env envs own
    have username : MqttThread.readCredential chip NextStep.reg.addr = u.text := u.read id
    have password : MqttThread.readCredential chip NextStep.que.addr = p.text := p.read passcode
    have first := MqttLogin.first_connect b env s envs
    have all := MqttLogin.trace_logsIn b s (env :: envs)
    rw [own, show 100 = NextStep.reg.addr from rfl, username, show 200 = NextStep.que.addr from rfl,
      password] at first all
    exact ⟨first, all⟩

end Restart

/-- Whatever the flash and the buffer held before, a completed run leaves the id and the
passcode that the server has issued last: the restarted box is registered and logs in with
them. No store of one touches the other. -/
theorem credentials_kept (env : Env) (chip : Chip) (ram : Mem) (envs : List Env) (u p : Credential)
    (posted : .posted ∈ (runThread env chip ram envs).log)
    (id : lastIssued .reg (runThread env chip ram envs).log = some u.text)
    (passcode : lastIssued .que (runThread env chip ram envs).log = some p.text) :
    Registered (runThread env chip ram envs).chip u.text p.text ∧
      ∀ env st, StoresOne st (tcpClientStep env st) := by
  refine ⟨?_, fun env st => pass_storesOne (tcpClientStep_pass env st)⟩
  have inv : Carried (runThread env chip ram envs) :=
    run_invariant (fun env st _ => pass_carried (tcpClientStep_pass env st)) (along_true tcpClientStep envs _)
      (tcpClientThread_carried env chip ram)
  rcases (inv.posted posted).2 with atStep | unissued
  · refine registered_of_carries ((inv.reg _ id).resolve_left (by simp [atStep])) ?_
    exact ((inv.que _ passcode).resolve_left (by simp [atStep])).2
  · rw [unissued] at id
    cases id

def boxId : Credential := ⟨ascii "box17", by decide, by decide, by decide +kernel⟩

def boxCode : Credential := ⟨ascii "k9", by decide, by decide, by decide +kernel⟩

def registration : List Env :=
  List.replicate 4 (answer (ascii "\x7b\"code\":0,\"value\":\"box17\"\x7d")) ++
    List.replicate 4 (answer (ascii "\x7b\"code\":0,\"value\":\"k9\"\x7d"))

theorem credentials_kept_box17 :
    Registered (runThread codeZero blank (fun _ => 0x7A) registration).chip (ascii "box17")
        (ascii "k9") ∧ ∀ env st, StoresOne st (tcpClientStep env st) :=
  credentials_kept codeZero blank (fun _ => 0x7A) registration boxId boxCode
    (mem_posted (by decide +kernel)) (by decide +kernel) (by decide +kernel)

end BoxFirmware.Credentials
