import BoxFirmware.TcpClient

/-! The connection that `tcp_client_thread` keeps in `tcp_clientconn`. A pass of
`BoxFirmware.TcpClient` runs beside the list of the netconn calls it makes, in their
order. A connection is known by the `netconn_new` that made it, counted from 0; `none`
is `NULL`, which every call of `api_lib.c` refuses. The result of `netconn_write` is
not looked at. -/
namespace BoxFirmware.TcpNetconn
open GuardedRun TcpClient

inductive Call
  | new (conn : Option Nat)
  | connect (conn : Option Nat)
  | getaddr (conn : Option Nat)
  | recv (conn : Option Nat)
  | write (conn : Option Nat)
  | close (conn : Option Nat)
  | delete (conn : Option Nat)
  deriving DecidableEq

def Call.passed : Call → Option Nat
  | .new _ => none
  | .connect conn => conn
  | .getaddr conn => conn
  | .recv conn => conn
  | .write conn => conn
  | .close conn => conn
  | .delete conn => conn

structure Net where
  env : Env
  created : Bool

def Net.results (net : Net) : Option Nat → Env
  | some _ => net.env
  | none => { net.env with connectErr := true, recv := .other }

structure St where
  thread : TcpClient.St
  tcpClientconn : Option Nat
  made : Nat
  calls : List Call

def recvCalls (conn : Option Nat) (recv : Received) : List Call :=
  .recv conn :: match recv with
    | .clsd => [.close conn, .delete conn]
    | _ => []

/-- A failed connect deletes the connection, and goes on into `RECV_STEP` with it. -/
def connectCalls (conn : Option Nat) (env : Env) (counter : Nat) : List Call :=
  .new conn :: .connect conn ::
    if env.connectErr then
      .delete conn :: if (counter + 255) % 256 = 0 then [] else recvCalls conn env.recv
    else [.getaddr conn]

def passCalls (conn : Option Nat) (env : Env) (st : TcpClient.St) : List Call :=
  match st.step with
  | .connect => connectCalls conn env st.counter
  | .recv => recvCalls conn env.recv
  | .send => [.write conn]
  | .suspend => [.close conn, .delete conn]
  | .compete => [.close conn, .delete conn]
  | _ => []

/-- `tcp_clientconn` in a pass: `CONNECT_STEP` sets it first. -/
def connOf (net : Net) (s : St) : Option Nat :=
  if s.thread.step = .connect then (if net.created then some s.made else none)
  else s.tcpClientconn

def netStep (net : Net) (s : St) : St :=
  if s.thread.status ≠ .running then s
  else
    let conn := connOf net s
    { thread := tcpClientStep (net.results conn) s.thread
      tcpClientconn := conn
      made := if s.thread.step = .connect ∧ net.created then s.made + 1 else s.made
      calls := s.calls ++ passCalls conn (net.results conn) s.thread }

def start (env : Env) (chip : W25qxx.Chip) (ram : ByteMem.Mem) : St :=
  ⟨tcpClientThread env chip ram, none, 0, []⟩

inductive Kind
  | connected | closed | deleted | sent
  deriving DecidableEq

/-- The calls that the thread's own log records, an address only being asked for behind a
connect. -/
def Call.kind : Call → Option Kind
  | .getaddr _ => some .connected
  | .close _ => some .closed
  | .delete _ => some .deleted
  | .write _ => some .sent
  | _ => none

def kindOf : TcpClient.Event → Option Kind
  | .connected => some .connected
  | .closed => some .closed
  | .deleted => some .deleted
  | .sent _ => some .sent
  | _ => none

/-- A call gets no connection that has been deleted, and a new one is only made when all
others have been. -/
def Allowed (past : List Call) : Call → Prop
  | .new _ => ∀ c, .new (some c) ∈ past → .delete (some c) ∈ past
  | call => ∀ c, call.passed = some c → .delete (some c) ∉ past

/-- A connection that was made fails to connect only at the last try. -/
def Connects (net : Net) (s : St) : Prop :=
  s.thread.status = .running → s.thread.step = .connect → net.created = true →
    net.env.connectErr = true → (s.thread.counter + 255) % 256 = 0

/-- What the calls so far have left: all other connections are deleted, and the one in
`tcp_clientconn` is not while a pass may use it. -/
structure Keeps (s : St) : Prop where
  below : ∀ c, .delete (some c) ∈ s.calls → c < s.made
  current : ∀ c, s.tcpClientconn = some c → c < s.made
  held : s.thread.status = .running → s.thread.step ≠ .connect →
    ∀ c, s.tcpClientconn = some c → .delete (some c) ∉ s.calls
  others : ∀ c, .new (some c) ∈ s.calls → .delete (some c) ∈ s.calls ∨
    s.tcpClientconn = some c ∧ ¬ (s.thread.status = .running ∧ s.thread.step = .connect)

section Threads

variable (env : Env) (st : TcpClient.St)

theorem codeSwitch_step (getR : Cjson.Item) (valueint : Int) (other : st.step ≠ .connect) :
    (codeSwitch env st getR valueint).step ≠ .connect := by
  unfold codeSwitch
  split_ifs
  · unfold storeValue
    split
    · exact other
    · cases fin : st.finStep <;> simp
    · exact other
  · simp
  · cases fin : st.finStep <;> simp
  · simp
  · simp
  · exact other

theorem registerFlashStep_step (other : st.step ≠ .connect) :
    (registerFlashStep env st).step ≠ .connect := by
  unfold registerFlashStep
  split
  · exact other
  · simp

theorem queryFalshStep_step (other : st.step ≠ .connect) :
    (queryFalshStep st).step ≠ .connect := by
  unfold queryFalshStep
  split
  · exact other
  · simp

theorem parseStep_step (other : st.step ≠ .connect) : (parseStep env st).step ≠ .connect := by
  unfold parseStep
  dsimp only
  split
  · simp
  · apply codeSwitch_step
    exact other
  · apply registerFlashStep_step
    exact other

/-- Only a failed connect and a closed connection lead to `CONNECT_STEP`. -/
theorem tcpClientStep_step (running : st.status = .running)
    (quiet : st.step ∈ [Step.parse, .registerFlash, .queryFalsh, .send, .suspend, .compete]) :
    (tcpClientStep env st).step ≠ .connect := by
  have active : ¬ st.status ≠ .running := not_not.mpr running
  rw [tcpClientStep, if_neg active]
  cases at_ : st.step with
  | parse => exact parseStep_step env st (by simp [at_])
  | registerFlash => exact registerFlashStep_step env st (by simp [at_])
  | queryFalsh => exact queryFalshStep_step st (by simp [at_])
  | send => simp [sendStep]
  | suspend =>
    change st.step ≠ .connect
    simp [at_]
  | compete =>
    change st.step ≠ .connect
    simp [at_]
  | connect => simp [at_] at quiet
  | recv => simp [at_] at quiet

end Threads

section Passes

variable {past : List Call} {conn : Option Nat}

def Held (conn : Option Nat) (past : List Call) : Prop :=
  ∀ c, conn = some c → .delete (some c) ∉ past

theorem recvCalls_allowed (recv : Received) (held : Held conn past) :
    justifiedFrom Allowed past (recvCalls conn recv) := by
  have next : ∀ calls, (∀ c, Call.delete (some c) ∉ calls) → Held conn (past ++ calls) := by
    intro calls none c same member
    apply (List.mem_append.mp member).elim
    · exact held c same
    · exact none c
  cases recv with
  | clsd =>
    refine ⟨held, ?_, ?_, trivial⟩
    · exact next [.recv conn] (by simp)
    · rw [List.append_assoc]
      exact next [.recv conn, .close conn] (by simp)
  | ok chain => exact ⟨held, trivial⟩
  | other => exact ⟨held, trivial⟩

theorem recvCalls_refused (recv : Received) {c : Nat} (deleted : .delete (some c) ∈ past) :
    ¬ justifiedFrom Allowed past (recvCalls (some c) recv) := by
  rintro ⟨first, -⟩
  exact first c rfl deleted

theorem deleteCalls_allowed (held : Held conn past) :
    justifiedFrom Allowed past [.close conn, .delete conn] := by
  refine ⟨held, fun c same member => ?_, trivial⟩
  apply held c same
  simpa using member

theorem connectCalls_allowed (env : Env) (counter : Nat)
    (deleted : ∀ c, .new (some c) ∈ past → .delete (some c) ∈ past) (held : Held conn past) :
    justifiedFrom Allowed past (connectCalls conn env counter) ↔
      (conn ≠ none → env.connectErr = true → (counter + 255) % 256 = 0) := by
  have fresh : Held conn (past ++ [.new conn]) := by
    intro c same member
    apply held c same
    simpa using member
  have used : Held conn (past ++ [.new conn] ++ [.connect conn]) := by
    intro c same member
    apply fresh c same
    simpa using member
  have begun : ∀ later, justifiedFrom Allowed past (.new conn :: .connect conn :: later) ↔
      justifiedFrom Allowed (past ++ [.new conn] ++ [.connect conn]) later := by
    intro later
    constructor
    · rintro ⟨-, -, rest⟩
      exact rest
    · intro rest
      exact ⟨deleted, fresh, rest⟩
  rw [connectCalls, begun]
  by_cases failed : env.connectErr = true
  · rw [if_pos failed]
    by_cases last : (counter + 255) % 256 = 0
    · rw [if_pos last]
      exact iff_of_true ⟨used, trivial⟩ (fun _ _ => last)
    · rw [if_neg last]
      cases conn with
      | none =>
        refine iff_of_true ⟨used, recvCalls_allowed _ ?_⟩ (fun none => absurd rfl none)
        exact nofun
      | some c =>
        refine iff_of_false (fun allowed => ?_) (fun right => last (right (by simp) failed))
        exact recvCalls_refused env.recv (by simp) allowed.2
  · rw [if_neg failed]
    exact iff_of_true ⟨used, trivial⟩ (fun _ failure => absurd failure failed)

end Passes

section Steps

variable {s : St} (net : Net)

theorem netStep_stopped (stopped : s.thread.status ≠ .running) : netStep net s = s := if_pos stopped

theorem netStep_running (running : s.thread.status = .running) : netStep net s =
    { thread := tcpClientStep (net.results (connOf net s)) s.thread
      tcpClientconn := connOf net s
      made := if s.thread.step = .connect ∧ net.created then s.made + 1 else s.made
      calls := s.calls ++ passCalls (connOf net s) (net.results (connOf net s)) s.thread } :=
  if_neg (not_not.mpr running)

theorem Keeps.deleted (keeps : Keeps s) (running : s.thread.status = .running)
    (step : s.thread.step = .connect) :
    ∀ c, .new (some c) ∈ s.calls → .delete (some c) ∈ s.calls :=
  fun c made => (keeps.others c made).resolve_right (fun both => both.2 ⟨running, step⟩)

theorem Keeps.connOf (keeps : Keeps s) (running : s.thread.status = .running) :
    Held (connOf net s) s.calls := by
  intro c same
  unfold TcpNetconn.connOf at same
  by_cases step : s.thread.step = .connect
  · rw [if_pos step] at same
    split at same
    · rw [← Option.some.inj same]
      exact fun member => Nat.lt_irrefl _ (keeps.below _ member)
    · cases same
  · rw [if_neg step] at same
    exact keeps.held running step c same

theorem connOf_ne_none (step : s.thread.step = .connect) :
    TcpNetconn.connOf net s ≠ none ↔ net.created = true := by
  rw [TcpNetconn.connOf, if_pos step]
  split
  · rename_i created
    simp [created]
  · rename_i none
    simp [none]

theorem results_connectErr {conn : Option Nat} (some : conn ≠ none) :
    (net.results conn).connectErr = net.env.connectErr := by
  cases conn with
  | none => exact absurd rfl some
  | some c => rfl

theorem netStep_allowed (keeps : Keeps s) (justified : Justified Allowed s.calls) :
    Justified Allowed (netStep net s).calls ↔ Connects net s := by
  by_cases running : s.thread.status = .running
  · have held := keeps.connOf net running
    rw [netStep_running net running, ← justifiedFrom_iff _ _ justified]
    by_cases step : s.thread.step = .connect
    · rw [passCalls, step]
      dsimp only
      rw [connectCalls_allowed _ _ (keeps.deleted running step) held, connOf_ne_none net step]
      have given := connOf_ne_none net step
      constructor
      · intro right _ _ created failed
        apply right created
        rwa [results_connectErr net (given.mpr created)]
      · intro connects created failed
        rw [results_connectErr net (given.mpr created)] at failed
        exact connects running step created failed
    · refine iff_of_true ?_ (fun _ connect => absurd connect step)
      unfold passCalls
      cases at_ : s.thread.step with
      | connect => exact absurd at_ step
      | recv => exact recvCalls_allowed _ held
      | send => exact ⟨held, trivial⟩
      | suspend => exact deleteCalls_allowed held
      | compete => exact deleteCalls_allowed held
      | _ => trivial
  · rw [netStep_stopped net running]
    exact iff_of_true justified (fun go => absurd go running)

theorem Keeps.use (keeps : Keeps s) (running : s.thread.status = .running)
    (step : s.thread.step ≠ .connect) {thread : TcpClient.St} {es : List Call}
    (plain : ∀ c, .new (some c) ∉ es)
    (own : ∀ c, .delete (some c) ∈ es → s.tcpClientconn = some c)
    (left : thread.status = .running → thread.step ≠ .connect → ∀ c, .delete (some c) ∉ es)
    (closed : thread.status = .running → thread.step = .connect →
      ∀ c, s.tcpClientconn = some c → .delete (some c) ∈ es) :
    Keeps ⟨thread, s.tcpClientconn, s.made, s.calls ++ es⟩ := by
  refine ⟨fun c member => ?_, keeps.current, fun go other c same member => ?_, fun c made => ?_⟩
  · apply (List.mem_append.mp member).elim
    · exact keeps.below c
    · exact fun deleted => keeps.current c (own c deleted)
  · apply (List.mem_append.mp member).elim
    · exact keeps.held running step c same
    · exact left go other c
  · have before := (List.mem_append.mp made).resolve_right (plain c)
    rcases keeps.others c before with deleted | ⟨same, -⟩
    · exact .inl (List.mem_append_left es deleted)
    · by_cases connect : thread.status = .running ∧ thread.step = .connect
      · exact .inl (List.mem_append_right _ (closed connect.1 connect.2 c same))
      · exact .inr ⟨same, connect⟩

theorem recvCalls_keeps (keeps : Keeps s) (running : s.thread.status = .running)
    (step : s.thread.step ≠ .connect) (env : Env) :
    Keeps ⟨recvStep env s.thread, s.tcpClientconn, s.made,
      s.calls ++ recvCalls s.tcpClientconn env.recv⟩ := by
  unfold recvStep
  cases recv : env.recv with
  | ok chain => apply keeps.use running step <;> simp [recvCalls]
  | clsd => apply keeps.use running step <;> simp [recvCalls, eq_comm]
  | other => apply keeps.use running step <;> simp [recvCalls]

theorem deleteCalls_keeps (keeps : Keeps s) (running : s.thread.status = .running)
    (step : s.thread.step ≠ .connect) {thread : TcpClient.St} (stopped : thread.status ≠ .running) :
    Keeps ⟨thread, s.tcpClientconn, s.made,
      s.calls ++ [.close s.tcpClientconn, .delete s.tcpClientconn]⟩ := by
  apply keeps.use running step
  · simp
  · simp [eq_comm]
  · exact fun go => absurd go stopped
  · exact fun go => absurd go stopped

theorem plainCalls_keeps (keeps : Keeps s) (running : s.thread.status = .running)
    (step : s.thread.step ≠ .connect) {thread : TcpClient.St} (other : thread.step ≠ .connect)
    {es : List Call} (plain : ∀ call ∈ es, ∃ conn, call = .write conn) :
    Keeps ⟨thread, s.tcpClientconn, s.made, s.calls ++ es⟩ := by
  have none : ∀ c, .delete (some c) ∉ es := by
    intro c member
    obtain ⟨conn, same⟩ := plain _ member
    cases same
  apply keeps.use running step
  · intro c member
    obtain ⟨conn, same⟩ := plain _ member
    cases same
  · exact fun c member => absurd member (none c)
  · exact fun _ _ => none
  · exact fun _ connect => absurd connect other

theorem netStep_connect (running : s.thread.status = .running) (step : s.thread.step = .connect) :
    netStep net s =
      { thread := connectStep (net.results (connOf net s)) s.thread
        tcpClientconn := connOf net s
        made := if net.created then s.made + 1 else s.made
        calls := s.calls ++
          connectCalls (connOf net s) (net.results (connOf net s)) s.thread.counter } := by
  have go : tcpClientStep (net.results (connOf net s)) s.thread =
      connectStep (net.results (connOf net s)) s.thread := by
    rw [tcpClientStep, if_neg (not_not.mpr running), step]
  rw [netStep_running net running, go, passCalls, step]
  simp only [true_and]

theorem nullCalls_keeps (keeps : Keeps s) (running : s.thread.status = .running)
    (step : s.thread.step = .connect) (created : net.created = false) : Keeps (netStep net s) := by
  have conn : connOf net s = none := by simp [connOf, step, created]
  have calls : connectCalls none (net.results none) s.thread.counter =
      .new none :: .connect none :: .delete none ::
        if (s.thread.counter + 255) % 256 = 0 then [] else [.recv none] := rfl
  rw [netStep_connect net running step, conn, calls, created]
  refine ⟨fun c member => ?_, fun c same => ?_, fun _ _ c same => ?_, fun c made => .inl ?_⟩
  · apply keeps.below c
    split at member <;> simpa using member
  · cases same
  · cases same
  · apply List.mem_append_left
    apply keeps.deleted running step
    split at made <;> simpa using made

theorem newCalls_keeps (keeps : Keeps s) (running : s.thread.status = .running)
    (step : s.thread.step = .connect) (connects : Connects net s) (created : net.created = true) :
    Keeps (netStep net s) := by
  have deleted := keeps.deleted running step
  have conn : connOf net s = some s.made := by simp [connOf, step, created]
  have env : net.results (some s.made) = net.env := rfl
  have fresh : .delete (some s.made) ∉ s.calls := fun member =>
    Nat.lt_irrefl _ (keeps.below _ member)
  rw [netStep_connect net running step, conn, env, created, connectCalls, connectStep]
  by_cases failed : net.env.connectErr = true
  · have last := connects running step created failed
    have some_left : s.thread.counter ≠ 0 := by omega
    simp only [failed, last, if_true, some_left, if_false]
    refine ⟨fun c member => ?_, fun c same => ?_, fun _ other => absurd rfl other,
      fun c made => .inl ?_⟩
    · have either : .delete (some c) ∈ s.calls ∨ c = s.made := by simpa using member
      rcases either with before | now
      · exact Nat.lt_succ_of_lt (keeps.below c before)
      · rw [now]
        exact Nat.lt_succ_self _
    · rw [← Option.some.inj same]
      exact Nat.lt_succ_self _
    · have either : .new (some c) ∈ s.calls ∨ c = s.made := by simpa using made
      have both := either.imp_left (deleted c)
      simpa using both
  · simp only [if_neg failed, if_true]
    refine ⟨fun c member => ?_, fun c same => ?_, fun _ _ c same member => ?_, fun c made => ?_⟩
    · apply Nat.lt_succ_of_lt
      apply keeps.below c
      simpa using member
    · rw [← Option.some.inj same]
      exact Nat.lt_succ_self _
    · rw [← Option.some.inj same] at member
      apply fresh
      simpa using member
    · have either : .new (some c) ∈ s.calls ∨ c = s.made := by simpa using made
      have both := either.imp_left (deleted c)
      simpa [eq_comm] using both

theorem connectCalls_keeps (keeps : Keeps s) (running : s.thread.status = .running)
    (step : s.thread.step = .connect) (connects : Connects net s) : Keeps (netStep net s) := by
  cases created : net.created with
  | false => exact nullCalls_keeps net keeps running step created
  | true => exact newCalls_keeps net keeps running step connects created

theorem netStep_keeps (keeps : Keeps s) (connects : Connects net s) : Keeps (netStep net s) := by
  by_cases running : s.thread.status = .running
  · by_cases step : s.thread.step = .connect
    · exact connectCalls_keeps net keeps running step connects
    · have conn : TcpNetconn.connOf net s = s.tcpClientconn := if_neg step
      have other := tcpClientStep_step (net.results s.tcpClientconn) s.thread running
      rw [netStep_running net running, conn, if_neg (fun both => step both.1), passCalls]
      cases at_ : s.thread.step with
      | connect => exact absurd at_ step
      | recv =>
        rw [tcpClientStep, if_neg (not_not.mpr running), at_]
        exact recvCalls_keeps keeps running step _
      | send =>
        apply plainCalls_keeps keeps running step (other (by simp [at_]))
        simp
      | suspend =>
        apply deleteCalls_keeps keeps running step
        simp [tcpClientStep, running, at_, suspendStep]
      | compete =>
        apply deleteCalls_keeps keeps running step
        simp [tcpClientStep, running, at_, competeStep]
      | _ =>
        apply plainCalls_keeps keeps running step (other (by simp [at_]))
        simp
  · rw [netStep_stopped net running]
    exact keeps

end Steps

section Logs

def Logs (kinds : List Kind) (st st' : TcpClient.St) : Prop :=
  st'.log.filterMap kindOf = st.log.filterMap kindOf ++ kinds

variable (env : Env) (st : TcpClient.St)

theorem logs_emit (es : List TcpClient.Event) : Logs (es.filterMap kindOf) st (st.emit es) := by
  simp [Logs]

theorem Logs.trans {kinds more : List Kind} {st st' st'' : TcpClient.St} (first : Logs kinds st st')
    (second : Logs more st' st'') : Logs (kinds ++ more) st st'' := by
  rw [Logs, second, first, List.append_assoc]

theorem recvStep_logs (conn : Option Nat) :
    Logs ((recvCalls conn env.recv).filterMap Call.kind) st (recvStep env st) := by
  unfold recvStep recvCalls
  cases env.recv with
  | ok chain => simp [Logs, Call.kind]
  | clsd => simp [Logs, Call.kind, kindOf, List.filterMap_cons]
  | other => simp [Logs, Call.kind]

theorem connectStep_logs (conn : Option Nat) :
    Logs ((connectCalls conn env st.counter).filterMap Call.kind) st (connectStep env st) := by
  unfold connectStep connectCalls
  by_cases failed : env.connectErr = true
  · simp only [if_pos failed]
    by_cases last : (st.counter + 255) % 256 = 0
    · rw [if_pos last, if_pos last]
      simp [Logs, Call.kind, kindOf, List.filterMap_cons]
    · rw [if_neg last, if_neg last]
      refine @Logs.trans [.deleted] _ _ _ _ ?_ (recvStep_logs env _ conn)
      simp [Logs, kindOf]
  · simp only [if_neg failed]
    simp [Logs, Call.kind, kindOf, List.filterMap_cons]

theorem registerFlashStep_logs : Logs [] st (registerFlashStep env st) := by
  unfold registerFlashStep
  split <;> simp [Logs, kindOf]

theorem queryFalshStep_logs : Logs [] st (queryFalshStep st) := by
  unfold queryFalshStep
  split <;> simp [Logs, kindOf]

theorem codeSwitch_logs (getR : Cjson.Item) (valueint : Int) :
    Logs [] st (codeSwitch env st getR valueint) := by
  unfold codeSwitch
  split_ifs
  · unfold storeValue
    split <;> simp [Logs, kindOf]
  · simp [Logs]
  · split <;> simp [Logs]
  · simp [Logs]
  · simp [Logs]
  · simp [Logs]

theorem parseStep_logs : Logs [] st (parseStep env st) := by
  have reply : Logs [] st (st.emit [.reply st.finStep (recvText env st)]) := logs_emit st _
  unfold parseStep
  dsimp only
  split
  · exact reply
  · exact reply.trans (codeSwitch_logs env _ _ _)
  · exact reply.trans (registerFlashStep_logs env _)

theorem tcpClientStep_logs (running : st.status = .running) (conn : Option Nat) :
    Logs ((passCalls conn env st).filterMap Call.kind) st (tcpClientStep env st) := by
  rw [tcpClientStep, if_neg (not_not.mpr running), passCalls]
  cases st.step with
  | connect => exact connectStep_logs env st conn
  | recv => exact recvStep_logs env st conn
  | parse => exact parseStep_logs env st
  | registerFlash => exact registerFlashStep_logs env st
  | queryFalsh => exact queryFalshStep_logs st
  | send => exact logs_emit st _
  | suspend => exact logs_emit st _
  | compete => exact logs_emit st _

theorem calls_logged (env : Env) (chip : W25qxx.Chip) (ram : ByteMem.Mem) (nets : List Net) :
    (run netStep nets (start env chip ram)).calls.filterMap Call.kind =
      (run netStep nets (start env chip ram)).thread.log.filterMap kindOf := by
  refine run_invariant (I := fun s => s.calls.filterMap Call.kind = s.thread.log.filterMap kindOf)
    (fun net s _ same => ?_) (along_true netStep nets _) ?_
  · by_cases running : s.thread.status = .running
    · have logs := tcpClientStep_logs (net.results (connOf net s)) s.thread running (connOf net s)
      rw [netStep_running net running]
      dsimp only
      rw [logs, List.filterMap_append, same]
    · rw [netStep_stopped net running]
      exact same
  · unfold start tcpClientThread
    dsimp only
    split <;> simp [kindOf]

end Logs

theorem keeps_start (env : Env) (chip : W25qxx.Chip) (ram : ByteMem.Mem) :
    Keeps (start env chip ram) := by
  constructor <;> simp [start]

theorem calls_grow (nets : List Net) (s : St) : s.calls <+: (run netStep nets s).calls := by
  induction nets generalizing s with
  | nil => exact List.prefix_refl _
  | cons net nets ih =>
    refine List.IsPrefix.trans ?_ (ih (netStep net s))
    by_cases running : s.thread.status = .running
    · rw [netStep_running net running]
      exact List.prefix_append _ _
    · simp [netStep_stopped net running]

theorem run_allowed (nets : List Net) {s : St} (keeps : Keeps s)
    (justified : Justified Allowed s.calls) :
    Justified Allowed (run netStep nets s).calls ↔ Along netStep Connects nets s := by
  induction nets generalizing s with
  | nil => exact iff_of_true justified trivial
  | cons net nets ih =>
    rw [run_cons, Along]
    constructor
    · intro all
      have first := justified_shorter (calls_grow nets (netStep net s)) all
      have connects := (netStep_allowed net keeps justified).mp first
      exact ⟨connects, (ih (netStep_keeps net keeps connects) first).mp all⟩
    · rintro ⟨connects, later⟩
      have first := (netStep_allowed net keeps justified).mpr connects
      exact (ih (netStep_keeps net keeps connects) first).mpr later

/-- In every run of the thread the netconn calls are in order, each connection used only
until it is deleted and deleted before the next is made, just when every connection that
fails to connect does so at the last try, where the pass ends behind the delete. -/
theorem netconn_ordered (env : Env) (chip : W25qxx.Chip) (ram : ByteMem.Mem) (nets : List Net) :
    Justified Allowed (run netStep nets (start env chip ram)).calls ↔
      Along netStep Connects nets (start env chip ram) := by
  apply run_allowed nets (keeps_start env chip ram)
  exact justified_nil

def unreached : Net := ⟨{ answer [] with connectErr := true, recv := .other }, true⟩

/-- The first connect fails, and the connection that was deleted for it goes to
`netconn_recv`. -/
theorem netconn_misused : ¬ ∀ (env : Env) (chip : W25qxx.Chip) (ram : ByteMem.Mem)
    (nets : List Net), Justified Allowed (run netStep nets (start env chip ram)).calls := by
  intro all
  have log := all unreached.env blank (fun _ => 0) [unreached]
  have calls : (run netStep [unreached] (start unreached.env blank (fun _ => 0))).calls =
      [.new (some 0), .connect (some 0), .delete (some 0), .recv (some 0)] := by decide +kernel
  rw [calls] at log
  have refused := log [.new (some 0), .connect (some 0), .delete (some 0)] (.recv (some 0)) [] rfl
  exact refused 0 rfl (by simp)

end BoxFirmware.TcpNetconn
