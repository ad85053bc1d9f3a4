import BoxFirmware.TcpNetconn

/-! How often `tcp_client_thread` tries to connect. `CONNECT_STEP` counts its failures down
from `REMAIN_CONNTIME` and should suspend the thread behind the last, but only a failure
that brings `counter` to 0 ends the case: every other one goes on into `RECV_STEP`. -/
namespace BoxFirmware.TcpNetconn
open GuardedRun TcpClient

def Fails (net : Net) (s : St) : Prop :=
  s.thread.status = .running ∧ s.thread.step = .connect ∧
    (net.results (connOf net s)).connectErr = true

instance (net : Net) (s : St) : Decidable (Fails net s) :=
  inferInstanceAs (Decidable (_ ∧ _))

structure Tries where
  s : St
  failed : Nat

def tried (net : Net) (t : Tries) : Tries where
  s := netStep net t.s
  failed := if Fails net t.s then t.failed + 1
    else if t.s.thread.status = .running ∧ t.s.thread.step = .connect then 0 else t.failed

/-- A failed connect: nothing is received, the step it sets stays, the counter does not wrap,
and behind the last try allowed comes `Suspend_STEP`. -/
structure Retried (net : Net) (t : Tries) : Prop where
  quiet : ∀ conn, .recv conn ∉ passCalls (connOf net t.s) (net.results (connOf net t.s)) t.s.thread
  step : (tried net t).s.thread.step = if t.s.thread.counter = 0 then .suspend else .connect
  counter : (tried net t).s.thread.counter ≤ t.s.thread.counter
  bound : (tried net t).failed ≤ remainConntime + 1
  last : (tried net t).failed = remainConntime + 1 → (tried net t).s.thread.step = .suspend

/-- At every failed connect of a run. -/
def RetriesBounded (nets : List Net) (s : St) : Prop :=
  Along tried (fun net t => Fails net t.s → Retried net t) nets ⟨s, 0⟩

def Refilled (s : St) : Prop :=
  s.thread.status = .running → s.thread.step = .connect → s.thread.counter = remainConntime

section Counter

variable (env : Env) {st : TcpClient.St}

theorem recvStep_refilled (next : (recvStep env st).step = .connect) :
    (recvStep env st).counter = remainConntime := by
  unfold recvStep at next ⊢
  cases recv : env.recv with
  | ok chain => simp [recv] at next
  | clsd => rfl
  | other => simp [recv] at next

theorem connectStep_fails (counter : st.counter = remainConntime) (failed : env.connectErr = true) :
    connectStep env st =
      recvStep env { st.emit [.deleted] with step := .connect, counter := 2 } := by
  rw [connectStep, if_pos failed]
  simp only [counter]
  rfl

theorem tcpClientStep_refilled (counter : st.step = .connect → st.counter = remainConntime)
    (running : st.status = .running) (next : (tcpClientStep env st).step = .connect) :
    (tcpClientStep env st).counter = remainConntime := by
  have other := tcpClientStep_step env st running
  have active : ¬ st.status ≠ .running := not_not.mpr running
  cases at_ : st.step with
  | connect =>
    have go : tcpClientStep env st = connectStep env st := by
      rw [tcpClientStep, if_neg active, at_]
    rw [go] at next ⊢
    by_cases failed : env.connectErr = true
    · rw [connectStep_fails env (counter at_) failed] at next ⊢
      exact recvStep_refilled env next
    · rw [connectStep, if_neg failed] at next
      cases next
  | recv =>
    have go : tcpClientStep env st = recvStep env st := by
      rw [tcpClientStep, if_neg active, at_]
    rw [go] at next ⊢
    exact recvStep_refilled env next
  | _ => exact absurd next (other (by simp [at_]))

end Counter

section Runs

variable {net : Net} {s : St}

theorem netStep_refilled (net : Net) (refilled : Refilled s) : Refilled (netStep net s) := by
  by_cases running : s.thread.status = .running
  · rw [netStep_running net running]
    intro _ next
    exact tcpClientStep_refilled _ (refilled running) running next
  · rw [netStep_stopped net running]
    exact refilled

theorem refilled_start (env : Env) (chip : W25qxx.Chip) (ram : ByteMem.Mem) :
    Refilled (start env chip ram) := by
  intro _ _
  unfold start tcpClientThread
  dsimp only
  split <;> rfl

theorem fails_receives (refilled : Refilled s) (fails : Fails net s) :
    .recv (connOf net s) ∈ passCalls (connOf net s) (net.results (connOf net s)) s.thread := by
  obtain ⟨running, step, failed⟩ := fails
  have some_left : ¬ (s.thread.counter + 255) % 256 = 0 := by
    rw [refilled running step]
    decide
  rw [passCalls, step]
  dsimp only
  rw [connectCalls, if_pos failed, if_neg some_left]
  simp [recvCalls]

theorem fails_unretried {failed : Nat} (refilled : Refilled s) (fails : Fails net s) :
    ¬ Retried net ⟨s, failed⟩ :=
  fun retried => retried.quiet _ (fails_receives refilled fails)

end Runs

/-- In every run of the thread its failed connects are counted and bounded as they should be
just when there is none. -/
theorem retries_bounded (env : Env) (chip : W25qxx.Chip) (ram : ByteMem.Mem) (nets : List Net) :
    RetriesBounded nets (start env chip ram) ↔
      Along netStep (fun net s => ¬ Fails net s) nets (start env chip ram) := by
  have part : Along tried (fun net t => ¬ Fails net t.s) nets ⟨start env chip ram, 0⟩ ↔
      Along netStep (fun net s => ¬ Fails net s) nets (start env chip ram) :=
    along_part (C := fun net s => ¬ Fails net s)
      (fun net (t : Tries) => show (tried net t).s = netStep net t.s from rfl)
  rw [← part]
  constructor
  · intro bounded
    have inv := along_invariant (I := fun t : Tries => Refilled t.s)
      (fun net t _ refilled => netStep_refilled net refilled) bounded (refilled_start env chip ram)
    refine along_mono (fun net t both fails => ?_) inv
    exact fails_unretried both.2 fails (both.1 fails)
  · intro none
    exact along_mono (fun net t never fails => absurd fails never) none

/-- The server cannot be reached: the thread does not try again, and waits for data. -/
theorem retries_unbounded :
    ¬ (∀ (env : Env) (chip : W25qxx.Chip) (ram : ByteMem.Mem) (nets : List Net),
        RetriesBounded nets (start env chip ram)) ∧
      (run netStep (List.replicate 5 unreached)
        (start unreached.env blank (fun _ => 0))).thread.step = .recv := by
  refine ⟨fun all => ?_, by decide +kernel⟩
  have first := (all unreached.env blank (fun _ => 0) [unreached]).1
  have fails : Fails unreached (start unreached.env blank (fun _ => 0)) := by decide +kernel
  exact fails_unretried (refilled_start _ _ _) fails (first fails)

end BoxFirmware.TcpNetconn
