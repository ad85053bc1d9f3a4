import BoxFirmware.MqttTurn

/-! The sockets of `mqtt_thread`. A turn of the thread runs beside the calls that it makes to
`transport.c` and to the socket layer, which has a table of `NUM_SOCKETS` places. The descriptor
is kept twice: `transport.c` has a static one, from which the receive callback reads, and the
thread has the one that `transport_open` returned. No other task has a socket. -/
namespace BoxFirmware.MqttSocket
open GuardedRun MqttPacket MqttThread

def numSockets : Nat := 4

/-- `noHost`: the members of the `NULL` that `gethostbyname` returned are read. -/
inductive Call
  | socket (sock : Int)
  | noHost
  | connect (sock : Int)
  | setsockopt (sock : Int)
  | returned (sock mysock : Int)
  | write (sock : Int)
  | shutdown (sock : Int)
  | recv (sock : Int)
  | close (sock : Int)
  | getdata (mysock held : Int)
  deriving DecidableEq

structure Results where
  netconn : Bool
  host : Bool
  connected : Bool

/-- The descriptors that `socket` has given and nothing has closed. -/
def live (calls : List Call) : List Int :=
  calls.foldl (fun inUse call => match call with
    | .socket sock => if sock < 0 then inUse else sock :: inUse
    | .close sock => inUse.filter (· ≠ sock)
    | _ => inUse) []

def allocSocket (inUse : List Int) : Int :=
  match (List.range numSockets).find? (fun i : Nat => (i : Int) ∉ inUse) with
  | some i => i
  | none => -1

structure Transport where
  mysock : Int
  calls : List Call

def Transport.log (t : Transport) (calls : List Call) : Transport :=
  { t with calls := t.calls ++ calls }

/-- `transport_open`. Only the result of `connect` ends it. -/
def transportOpen (r : Results) (t : Transport) : Int × Transport :=
  let mysock := if r.netconn then allocSocket (live t.calls) else -1
  let t : Transport := { t.log [.socket mysock] with mysock := mysock }
  if r.host = false then (-1, t.log [.noHost])
  else if mysock < 0 ∨ r.connected = false then
    (-1, t.log [.connect mysock, .returned (-1) mysock])
  else (mysock, t.log [.connect mysock, .setsockopt mysock, .returned mysock mysock])

def transportClose (sock : Int) (t : Transport) : Transport :=
  t.log [.shutdown sock, .recv sock, .close sock]

/-- What an event of the thread is to the socket layer. -/
def follow (r : Results) (t : Transport) : Event → Transport
  | .sent sock _ _ _ => t.log [.write sock]
  | .closed sock => transportClose sock t
  | .opened _ _ => (transportOpen r t).2
  | _ => t

structure Input where
  env : Env
  results : Results

structure St where
  thread : MqttThread.St
  transport : Transport

/-- The turn's environment, with what `transport_open` returns behind `transport_close`. -/
def Input.turn (i : Input) (s : St) : Env :=
  { i.env with
    sock := (transportOpen i.results (transportClose s.thread.mysock s.transport)).1 }

/-- A turn; its read asks for the callback's descriptor. -/
def socketStep (b : Board) (i : Input) (s : St) : St :=
  let r := iteration b (i.turn s) s.thread
  let t := r.1.events.foldl (follow i.results) s.transport
  { thread := r.2
    transport := if r.2.halted then t else t.log [.getdata t.mysock r.2.mysock] }

def start (s : Start) (r : Results) : St :=
  let opened := transportOpen r ⟨-1, []⟩
  ⟨mqttThread { s with sock := opened.1 }, opened.2⟩

/-- A descriptor is only made when no other is open, and used only while it is; a failed open
leaves none, and what it returns is the callback's. -/
def Allowed (past : List Call) : Call → Prop
  | .socket _ => live past = []
  | .noHost => False
  | .connect sock => sock ∈ live past
  | .setsockopt sock => sock ∈ live past
  | .returned sock mysock => sock = mysock ∧ (sock < 0 → live past = [])
  | .getdata mysock held => mysock = held
  | _ => True

def Succeeds (r : Results) : Prop := r.netconn = true ∧ r.host = true ∧ r.connected = true

/-- A turn that opens a connection succeeds. -/
def Opens (i : Input) (s : St) : Prop :=
  s.thread.halted = false → reopens i.env s.thread → Succeeds i.results

instance (past : List Call) : (call : Call) → Decidable (Allowed past call)
  | .socket _ => inferInstanceAs (Decidable (_ = _))
  | .noHost => inferInstanceAs (Decidable False)
  | .connect _ | .setsockopt _ => inferInstanceAs (Decidable (_ ∈ _))
  | .returned _ _ => inferInstanceAs (Decidable (_ ∧ _))
  | .getdata _ _ => inferInstanceAs (Decidable (_ = _))
  | .write _ | .shutdown _ | .recv _ | .close _ => inferInstanceAs (Decidable True)

section Calls

theorem live_append (past calls : List Call) : live (past ++ calls) =
    calls.foldl (fun inUse call => match call with
      | .socket sock => if sock < 0 then inUse else sock :: inUse
      | .close sock => inUse.filter (· ≠ sock)
      | _ => inUse) (live past) := List.foldl_append

theorem live_writes (past : List Call) {writes : List Call}
    (plain : ∀ c ∈ writes, ∃ sock, c = .write sock) : live (past ++ writes) = live past := by
  induction writes generalizing past with
  | nil => rw [List.append_nil]
  | cons c writes ih =>
    obtain ⟨sock, rfl⟩ := plain c List.mem_cons_self
    have rest := ih (past ++ [.write sock]) (fun c later => plain c (List.mem_cons_of_mem _ later))
    rw [List.append_cons, rest, live_append]
    rfl

theorem live_close {past : List Call} {sock : Int} (one : live past = [sock]) :
    live (past ++ [.shutdown sock, .recv sock, .close sock]) = [] := by
  rw [live_append, one]
  simp

theorem allocSocket_nil : allocSocket [] = 0 := rfl

theorem transportOpen_allowed (r : Results) {t : Transport} (none : live t.calls = [])
    (before : Justified Allowed t.calls) :
    Justified Allowed (transportOpen r t).2.calls ↔ Succeeds r := by
  have place := allocSocket_nil
  unfold transportOpen Succeeds Transport.log
  rw [none, place]
  cases netconn : r.netconn with
  | false =>
    cases host : r.host with
    | false =>
      refine iff_of_false (fun all => ?_) (by simp)
      exact all (t.calls ++ [.socket (-1)]) .noHost [] (by simp)
    | true =>
      -- the connect gets no descriptor
      refine iff_of_false (fun all => ?_) (by simp)
      have used := all (t.calls ++ [.socket (-1)]) (.connect (-1)) [.returned (-1) (-1)] (by simp)
      simp [Allowed, live_append, none] at used
  | true =>
    cases host : r.host with
    | false =>
      refine iff_of_false (fun all => ?_) (by simp)
      exact all (t.calls ++ [.socket 0]) .noHost [] (by simp)
    | true =>
      cases connected : r.connected with
      | false =>
        refine iff_of_false (fun all => ?_) (by simp)
        have back := all (t.calls ++ [.socket 0] ++ [.connect 0]) (.returned (-1) 0) [] (by simp)
        exact absurd back.1 (by decide)
      | true =>
        refine iff_of_true ?_ ⟨rfl, rfl, rfl⟩
        simp only [if_true, Bool.true_eq_false, if_false, Int.lt_irrefl, or_self, List.append_assoc]
        rw [← justifiedFrom_iff _ _ before]
        simp [justifiedFrom, Allowed, live_append, none]

theorem transportOpen_kept {r : Results} {t : Transport} (none : live t.calls = [])
    (succeeds : Succeeds r) : (transportOpen r t).1 = 0 ∧ (transportOpen r t).2.mysock = 0 ∧
      live (transportOpen r t).2.calls = [0] := by
  unfold transportOpen Transport.log
  rw [none, allocSocket_nil, succeeds.1, succeeds.2.1, succeeds.2.2]
  simp [live_append, none]

end Calls

section Turns

variable (b : Board) (env : Env) {st : MqttThread.St}

def inner : Event → Bool
  | .opened _ _ => false
  | .closed _ => false
  | _ => true

theorem dispatch_inner {now : MqttThread.St} (type : now.msgtypes ≠ msgPingreq)
    (empty : now.log = []) (running : now.halted = false) :
    ∀ e ∈ (dispatch b env now).log, inner e = true := by
  have answers := @dispatch_answers b env now empty running
  generalize (dispatch b env now).log = es at answers ⊢
  cases answers with
  | publish type =>
    intro e he
    rcases publishEvents_cases he with rfl | command | rfl | puback
    · rfl
    · cases e <;> first | rfl | exact command.elim
    · rfl
    · obtain ⟨packet, len, rc, rfl, -⟩ := pubackEvents_kind puback
      rfl
  | pingreq ping => exact absurd ping type
  | info type => simp [inner, publishEvent]
  | _ => simp [inner]

theorem receive_mysock (env : Env) (st : MqttThread.St) :
    (receive env st).2.mysock = st.mysock ∧ (receive env st).2.halted = st.halted := by
  unfold receive
  dsimp only
  split <;> exact ⟨rfl, rfl⟩

theorem beforeSwitch_inner : ∀ e ∈ (beforeSwitch b env st).log, inner e = true := by
  intro e he
  have event := (beforeSwitch_events b env st).1 e he
  cases e <;> first | rfl | exact event.elim

theorem afterSwitch_stays (running : st.halted = false) (stays : ¬ reopens env st) :
    (∀ e ∈ (afterSwitch b env st).log, inner e = true) ∧
      (afterSwitch b env st).mysock = st.mysock := by
  have types := atSwitch_msgtypes b env st
  have same := atSwitch_mysock b env st
  have goes : (atSwitch b env st).halted = false := atSwitch_running b env running
  rw [afterSwitch_eq]
  by_cases ping : switchOn env st = msgPingreq
  · have sent : env.writeRc .answer = 2 := by
      by_contra failed
      exact stays ⟨ping, failed⟩
    rw [dispatch_pingreq (types.trans ping), ← same]
    constructor
    · intro e he
      rw [pingreqCase_log, if_pos sent, show (atSwitch b env st).log = [] from rfl,
        List.nil_append, List.mem_singleton] at he
      rw [he]
      rfl
    · rw [pingreqCase_eq, if_pos sent]
      simp only [sendPacket_mysock]
  · refine ⟨dispatch_inner b env (by rwa [types]) rfl goes, ?_⟩
    rw [← same]
    by_cases connack : switchOn env st = msgConnack
    · rw [dispatch_connack (types.trans connack)]
      exact (connackCase_inbox env _).2
    · by_cases subscribe : switchOn env st = msgSubscribe
      · rw [dispatch_subscribe (types.trans subscribe)]
        exact (subscribeCase_inbox b env _).2
      · rw [← types] at ping connack subscribe
        exact congrArg Link.mysock (dispatch_link b env _ connack subscribe ping)

theorem turn_stays (running : st.halted = false) (stays : ¬ reopens env st) :
    (∀ e ∈ (iteration b env st).1.events, inner e = true) ∧
      (iteration b env st).2.mysock = st.mysock := by
  obtain ⟨events, mysock⟩ := afterSwitch_stays b env running stays
  have timed : ∀ e ∈ (beforeSwitch b env st).log, inner e = true := beforeSwitch_inner b env
  cases goes : (afterSwitch b env st).halted with
  | true =>
    rw [iteration_halts running goes]
    refine ⟨fun e he => ?_, mysock⟩
    simp only [Round.events, List.append_nil] at he
    exact (List.mem_append.mp he).elim (timed e) (events e)
  | false =>
    rw [iteration_reads running goes]
    refine ⟨fun e he => ?_, (receive_mysock env _).1.trans mysock⟩
    rcases List.mem_append.mp he with own | read
    · exact (List.mem_append.mp own).elim (timed e) (events e)
    · split at read
      · rw [List.mem_singleton.mp read]
        rfl
      · cases read

theorem pingreqCase_reopens (env : Env) (now : MqttThread.St) (failed : env.writeRc .answer ≠ 2) :
    (∃ ping, inner ping = true ∧ (pingreqCase env now).log =
        now.log ++ [ping, .closed now.mysock, .opened env.sock env.stream]) ∧
      (pingreqCase env now).mysock = env.sock ∧ (pingreqCase env now).halted = now.halted := by
  have log := pingreqCase_log env now
  rw [if_neg failed] at log
  rw [log, pingreqCase_eq, if_neg failed]
  exact ⟨⟨.sent _ _ _ _, rfl, rfl⟩, rfl, rfl⟩

theorem turn_reopens (running : st.halted = false) (reopen : reopens env st) :
    ∃ front back, (iteration b env st).1.events =
        front ++ [.closed st.mysock, .opened env.sock env.stream] ++ back ∧
      (∀ e ∈ front, inner e = true) ∧ (∀ e ∈ back, inner e = true) ∧
      (iteration b env st).2.mysock = env.sock ∧ (iteration b env st).2.halted = false := by
  have types := atSwitch_msgtypes b env st
  have halted : (atSwitch b env st).halted = false := atSwitch_running b env running
  have case : afterSwitch b env st = pingreqCase env (atSwitch b env st) := by
    rw [afterSwitch_eq, dispatch_pingreq (types.trans reopen.1)]
  obtain ⟨⟨ping, own, log⟩, mysock, goes⟩ :=
    pingreqCase_reopens env (atSwitch b env st) reopen.2
  rw [← case] at log mysock goes
  rw [atSwitch_mysock, show (atSwitch b env st).log = [] from rfl, List.nil_append] at log
  have read := receive_mysock env (afterSwitch b env st)
  rw [iteration_reads running (goes.trans halted)]
  generalize receive env (afterSwitch b env st) = got at read ⊢
  refine ⟨(beforeSwitch b env st).log ++ [ping], got.1.toList.map Event.received, ?_, ?_, ?_,
    read.1.trans mysock, read.2.trans (goes.trans halted)⟩
  · rw [Round.events, log]
    cases got.1 <;> simp
  · intro e he
    rcases List.mem_append.mp he with timed | last
    · exact beforeSwitch_inner b env e timed
    · rw [List.mem_singleton.mp last]
      exact own
  · intro e he
    obtain ⟨buf, -, rfl⟩ := List.mem_map.mp he
    rfl

end Turns

section Steps

variable {b : Board} {i : Input} {s : St}

theorem follow_inner (r : Results) (t : Transport) {es : List Event}
    (plain : ∀ e ∈ es, inner e = true) : ∃ writes, es.foldl (follow r) t = t.log writes ∧
      ∀ c ∈ writes, ∃ sock, c = .write sock := by
  induction es generalizing t with
  | nil => exact ⟨[], by simp [Transport.log], by simp⟩
  | cons e es ih =>
    have rest := fun t => ih t (fun e later => plain e (List.mem_cons_of_mem _ later))
    have first := plain e List.mem_cons_self
    rw [List.foldl_cons]
    cases e with
    | opened _ _ => cases first
    | closed _ => cases first
    | sent sock packet len rc =>
      obtain ⟨writes, log, only⟩ := rest (t.log [.write sock])
      refine ⟨.write sock :: writes, ?_, ?_⟩
      · rw [follow, log]
        simp [Transport.log]
      · intro c member
        rcases List.mem_cons.mp member with rfl | later
        · exact ⟨sock, rfl⟩
        · exact only c later
    | _ => exact rest t

structure Kept (s : St) : Prop where
  one : live s.transport.calls = [s.thread.mysock]
  same : s.transport.mysock = s.thread.mysock

theorem writes_allowed {calls writes : List Call} (before : Justified Allowed calls)
    (only : ∀ c ∈ writes, ∃ sock, c = .write sock) : Justified Allowed (calls ++ writes) := by
  refine justified_append before (fun c member past => ?_)
  obtain ⟨sock, rfl⟩ := only c member
  trivial

theorem socketStep_halted (halted : s.thread.halted = true) : socketStep b i s = s := by
  rw [socketStep, iteration_stopped b _ halted]
  simp [Round.events, halted]

theorem socketStep_stays (kept : Kept s) (running : s.thread.halted = false)
    (stays : ¬ reopens i.env s.thread) : Kept (socketStep b i s) ∧
      (Justified Allowed s.transport.calls → Justified Allowed (socketStep b i s).transport.calls) := by
  obtain ⟨plain, mysock⟩ := turn_stays b (i.turn s) running stays
  obtain ⟨writes, log, only⟩ := follow_inner i.results s.transport plain
  have inUse : live (s.transport.log writes).calls = live s.transport.calls := live_writes _ only
  have keeps : Kept ⟨(iteration b (i.turn s) s.thread).2, s.transport.log writes⟩ :=
    ⟨inUse.trans (kept.one.trans (by rw [mysock])), kept.same.trans mysock.symm⟩
  unfold socketStep
  dsimp only
  rw [log]
  split
  · exact ⟨keeps, fun before => writes_allowed before only⟩
  · refine ⟨⟨?_, keeps.same⟩, fun before => ?_⟩
    · rw [Transport.log, live_append]
      exact keeps.one
    · exact (justified_concat _ _).mpr ⟨writes_allowed before only, keeps.same⟩

theorem socketStep_reopens (kept : Kept s) (running : s.thread.halted = false)
    (reopen : reopens i.env s.thread) (before : Justified Allowed s.transport.calls) :
    (Justified Allowed (socketStep b i s).transport.calls ↔ Succeeds i.results) ∧
      (Succeeds i.results → Kept (socketStep b i s)) := by
  obtain ⟨front, back, events, own, rest, mysock, goes⟩ :=
    turn_reopens b (i.turn s) running reopen
  obtain ⟨writes, log, only⟩ := follow_inner i.results s.transport own
  have one : live (s.transport.calls ++ writes) = [s.thread.mysock] :=
    (live_writes _ only).trans kept.one
  have closed : live (transportClose s.thread.mysock (s.transport.log writes)).calls = [] :=
    live_close one
  have order : Justified Allowed (transportClose s.thread.mysock (s.transport.log writes)).calls := by
    refine justified_append (writes_allowed before only) (fun c member past => ?_)
    simp only [List.mem_cons, List.not_mem_nil, or_false] at member
    rcases member with rfl | rfl | rfl <;> trivial
  have opened := transportOpen_allowed i.results closed order
  have held : Succeeds i.results → (i.turn s).sock = 0 :=
    fun succeeds => (transportOpen_kept (live_close kept.one) succeeds).1
  obtain ⟨more, logged, last⟩ := follow_inner i.results
    (transportOpen i.results (transportClose s.thread.mysock (s.transport.log writes))).2 rest
  have step : socketStep b i s = ⟨(iteration b (i.turn s) s.thread).2,
      ((transportOpen i.results (transportClose s.thread.mysock (s.transport.log writes))).2.log
        more).log [.getdata
          (transportOpen i.results (transportClose s.thread.mysock (s.transport.log writes))).2.mysock
          (iteration b (i.turn s) s.thread).2.mysock]⟩ := by
    rw [socketStep, events, List.foldl_append, List.foldl_append, log]
    simp only [List.foldl_cons, List.foldl_nil, follow]
    rw [logged, goes]
    rfl
  rw [step, mysock]
  have kept' := fun succeeds : Succeeds i.results => transportOpen_kept closed succeeds
  generalize (transportOpen i.results (transportClose s.thread.mysock (s.transport.log writes))).2 = t
    at opened kept' ⊢
  refine ⟨⟨fun all => ?_, fun succeeds => ?_⟩, fun succeeds => ⟨?_, ?_⟩⟩
  · apply opened.mp
    apply justified_shorter _ all
    rw [Transport.log, Transport.log, List.append_assoc]
    exact List.prefix_append _ _
  · have same : t.mysock = (i.turn s).sock := (kept' succeeds).2.1.trans (held succeeds).symm
    exact (justified_concat _ _).mpr ⟨writes_allowed (opened.mpr succeeds) last, same⟩
  · rw [Transport.log, live_append, Transport.log, List.foldl_cons, List.foldl_nil, mysock,
      live_writes _ last, (kept' succeeds).2.2, held succeeds]
  · exact (kept' succeeds).2.1.trans ((held succeeds).symm.trans mysock.symm)

theorem socketStep_kept (kept : Kept s) (before : Justified Allowed s.transport.calls)
    (opens : Opens i s) : Kept (socketStep b i s) := by
  cases running : s.thread.halted with
  | true =>
    rw [socketStep_halted running]
    exact kept
  | false =>
    by_cases reopen : reopens i.env s.thread
    · exact (socketStep_reopens kept running reopen before).2 (opens running reopen)
    · exact (socketStep_stays kept running reopen).1

theorem socketStep_allowed (kept : Kept s) (before : Justified Allowed s.transport.calls) :
    Justified Allowed (socketStep b i s).transport.calls ↔ Opens i s := by
  cases running : s.thread.halted with
  | true =>
    rw [socketStep_halted running]
    exact iff_of_true before (fun stopped => by simp [running] at stopped)
  | false =>
    by_cases reopen : reopens i.env s.thread
    · rw [(socketStep_reopens kept running reopen before).1]
      exact ⟨fun succeeds _ _ => succeeds, fun opens => opens running reopen⟩
    · refine iff_of_true ((socketStep_stays kept running reopen).2 before) ?_
      exact fun _ again => absurd again reopen

end Steps

section Runs

variable (b : Board)

theorem open_grows (r : Results) (t : Transport) : t.calls <+: (transportOpen r t).2.calls := by
  unfold transportOpen
  dsimp only
  split_ifs <;> simp [Transport.log]

theorem follow_grows (r : Results) (events : List Event) (t : Transport) :
    t.calls <+: (events.foldl (follow r) t).calls := by
  induction events generalizing t with
  | nil => exact List.prefix_refl _
  | cons e events ih =>
    refine List.IsPrefix.trans ?_ (ih (follow r t e))
    cases e with
    | sent _ _ _ _ => exact List.prefix_append _ _
    | closed _ => exact List.prefix_append _ _
    | opened _ _ => exact open_grows r t
    | _ => exact List.prefix_refl _

theorem socketCalls_grow (inputs : List Input) (s : St) :
    s.transport.calls <+: (run (socketStep b) inputs s).transport.calls := by
  induction inputs generalizing s with
  | nil => exact List.prefix_refl _
  | cons i inputs ih =>
    refine List.IsPrefix.trans ?_ (ih (socketStep b i s))
    have turn := follow_grows i.results (iteration b (i.turn s) s.thread).1.events s.transport
    unfold socketStep
    dsimp only
    split
    · exact turn
    · exact turn.trans (List.prefix_append _ _)

theorem run_allowed (inputs : List Input) {s : St} (kept : Kept s)
    (before : Justified Allowed s.transport.calls) :
    Justified Allowed (run (socketStep b) inputs s).transport.calls ↔
      Along (socketStep b) Opens inputs s := by
  induction inputs generalizing s with
  | nil => exact iff_of_true before trivial
  | cons i inputs ih =>
    rw [run_cons, Along]
    constructor
    · intro all
      have first := justified_shorter (socketCalls_grow b inputs (socketStep b i s)) all
      have opens := (socketStep_allowed kept before).mp first
      exact ⟨opens, (ih (socketStep_kept kept before opens) first).mp all⟩
    · rintro ⟨opens, rest⟩
      have first := (socketStep_allowed (b := b) kept before).mpr opens
      exact (ih (socketStep_kept kept before opens) first).mpr rest

theorem start_allowed (s : Start) (r : Results) :
    Justified Allowed (start s r).transport.calls ↔ Succeeds r := by
  have empty : live (⟨-1, []⟩ : Transport).calls = [] := rfl
  exact transportOpen_allowed r empty justified_nil

theorem start_kept (s : Start) {r : Results} (succeeds : Succeeds r) : Kept (start s r) := by
  have empty : live (⟨-1, []⟩ : Transport).calls = [] := rfl
  obtain ⟨sock, mysock, one⟩ := transportOpen_kept empty succeeds
  have held : (start s r).thread.mysock = 0 := sock
  exact ⟨by rw [held]; exact one, by rw [held]; exact mysock⟩

/-- In every run of the thread there is one descriptor at a time, the same on both sides, and
nothing is done with another, just when every open of the run succeeds. -/
theorem sockets_kept (s : Start) (first : Results) (inputs : List Input) :
    Justified Allowed (run (socketStep b) inputs (start s first)).transport.calls ↔
      Succeeds first ∧ Along (socketStep b) Opens inputs (start s first) := by
  rw [← start_allowed s first]
  have runs := fun before : Justified Allowed (start s first).transport.calls =>
    run_allowed b inputs (start_kept s ((start_allowed s first).mp before)) before
  constructor
  · intro all
    have before := justified_shorter (socketCalls_grow b inputs _) all
    exact ⟨before, (runs before).mp all⟩
  · rintro ⟨before, along⟩
    exact (runs before).mpr along

def unreachable (connected : Bool) : Input where
  env := { calm with pingNow := 12001, writeRc := fun _ => -1 }
  results := ⟨true, true, connected⟩

/-- The server refuses the first connection, and the next ping connects: the descriptor of the
first is still open. -/
theorem sockets_leaked :
    ¬ (∀ (b : Board) (s : Start) (first : Results) (inputs : List Input),
      Justified Allowed (run (socketStep b) inputs (start s first)).transport.calls) ∧
    live (run (socketStep blankBoard) [unreachable true, unreachable true]
      (start (startOn []) ⟨true, true, false⟩)).transport.calls = [1, 0] := by
  refine ⟨fun all => ?_, by decide +kernel⟩
  have succeeds := (start_allowed _ _).mp (all blankBoard (startOn []) ⟨true, true, false⟩ [])
  exact absurd succeeds.2.2 (by decide)

end Runs

end BoxFirmware.MqttSocket
