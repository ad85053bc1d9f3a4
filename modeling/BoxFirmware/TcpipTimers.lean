import BoxFirmware.Timers
import Mathlib.Data.List.Perm.Subperm

/-! The timers that `tcpip_thread` keeps going. On the clock of the list they are called when
they have to be, and the pool is large enough; but that clock runs ahead with each message that
is there when it is asked for. -/
namespace BoxFirmware.TcpipTimers
open DueList GuardedRun SysArch Timers

inductive Handler where
  | ipReassTimer
  | arpTimer
  | dhcpTimerCoarse
  | dhcpTimerFine
  | dnsTimer
  | tcpipTcpTimer
  deriving DecidableEq

/-- `IP_TMR_INTERVAL`, `ARP_TMR_INTERVAL`, `DHCP_COARSE_TIMER_MSECS`, `DHCP_FINE_TIMER_MSECS`,
`DNS_TMR_INTERVAL` and `TCP_TMR_INTERVAL`. -/
def Handler.interval : Handler → UInt32
  | ipReassTimer => 1000
  | arpTimer => 5000
  | dhcpTimerCoarse => 60000
  | dhcpTimerFine => 500
  | dnsTimer => 1000
  | tcpipTcpTimer => 250

structure Thread where
  nextTimeout : List (SysTimeo Handler Unit)
  tcpipTcpTimerActive : Bool

def Thread.start (t : Thread) (h : Handler) : Thread :=
  { t with nextTimeout := sysTimeout h.interval h () t.nextTimeout }

def sysTimeoutsInit : Thread :=
  [Handler.ipReassTimer, .arpTimer, .dhcpTimerCoarse, .dhcpTimerFine, .dnsTimer].foldl Thread.start
    ⟨[], false⟩

/-- A handler is called. `needed` says that `tcp_active_pcbs` or `tcp_tw_pcbs` is not empty behind
`tcp_tmr`. -/
def Thread.call (t : Thread) (needed : Bool) : Handler → Thread
  | .tcpipTcpTimer =>
    if needed then t.start .tcpipTcpTimer else { t with tcpipTcpTimerActive := false }
  | h => t.start h

def tcpTimerNeeded (needed : Bool) (t : Thread) : Thread :=
  if t.tcpipTcpTimerActive = false ∧ needed then
    ({ t with tcpipTcpTimerActive := true }).start .tcpipTcpTimer
  else t

inductive Event where
  | fetch (timeNeeded : UInt32) (needed : Bool)
  | needed (needed : Bool)

def step : Event → Thread → Shown Handler Unit × Thread
  | .fetch timeNeeded needed, t =>
    let (shown, nextTimeout) := fetchRound timeNeeded t.nextTimeout
    let t := { t with nextTimeout }
    (shown, match shown.called with
      | none => t
      | some (h, _) => t.call needed h)
  | .needed needed, t => (⟨none, 0⟩, tcpTimerNeeded needed t)

section Calls

def note (h : Handler) (acc : Nat × List Nat) (shown : Shown Handler Unit) : Nat × List Nat :=
  (acc.1 + shown.passed,
    if shown.called = some (h, ()) then acc.2 ++ [acc.1 + shown.passed] else acc.2)

def callTimes (h : Handler) (past : List (Shown Handler Unit)) : List Nat :=
  (past.foldl (note h) (0, [])).2

def elapsed (past : List (Shown Handler Unit)) : Nat := past.foldl (fun c shown => c + shown.passed) 0

theorem elapsed_concat (past : List (Shown Handler Unit)) (shown : Shown Handler Unit) :
    elapsed (past ++ [shown]) = elapsed past + shown.passed := List.foldl_concat _ _ _ _

theorem note_clock (h : Handler) (past : List (Shown Handler Unit)) :
    (past.foldl (note h) (0, [])).1 = elapsed past := by
  induction past using List.reverseRecOn with
  | nil => rfl
  | append_singleton past shown ih => rw [List.foldl_concat, elapsed_concat, note, ih]

theorem callTimes_concat (h : Handler) (past : List (Shown Handler Unit))
    (shown : Shown Handler Unit) : callTimes h (past ++ [shown]) =
      if shown.called = some (h, ()) then callTimes h past ++ [elapsed past + shown.passed]
      else callTimes h past := by
  rw [callTimes, List.foldl_concat, note, note_clock]
  rfl

end Calls

section Invariant

def nextDue (h : Handler) (past : List (Shown Handler Unit)) : Nat :=
  ((callTimes h past).length + 1) * h.interval.toNat

structure Inv (past : List (Shown Handler Unit)) (t : Thread) (a : Agenda Handler Unit) : Prop where
  refines : Refines t.nextTimeout a
  clock : a.clock = elapsed past
  once : (a.pending.map (fun x => x.2.1)).Nodup
  started : ∀ h, (∃ x ∈ a.pending, x.2.1 = h) ↔ (h = .tcpipTcpTimer → t.tcpipTcpTimerActive = true)
  due : ∀ x ∈ a.pending, x.2.1 ≠ .tcpipTcpTimer → x.1 = nextDue x.2.1 past
  near : ∀ x ∈ a.pending, x.1 ≤ a.clock + x.2.1.interval.toNat
  regular : ∀ h ≠ Handler.tcpipTcpTimer, callTimes h past =
    (List.range (callTimes h past).length).map (fun i => (i + 1) * h.interval.toNat)

variable {past : List (Shown Handler Unit)} {t : Thread} {a : Agenda Handler Unit}

theorem room_of_once {pending : List (Nat × Handler × Unit)}
    (once : (pending.map (fun x => x.2.1)).Nodup) : ¬ pending.length ≥ numSysTimeout := by
  have all : pending.map (fun x => x.2.1) ⊆
      [.ipReassTimer, .arpTimer, .dhcpTimerCoarse, .dhcpTimerFine, .dnsTimer, .tcpipTcpTimer] := by
    intro h _
    cases h <;> simp
  have count := (List.subperm_of_subset once all).length_le
  rw [List.length_map] at count
  exact Nat.not_le.mpr (Nat.lt_of_le_of_lt count (by decide))

theorem mem_erase_key {pending : List (Nat × Handler × Unit)} {x y : Nat × Handler × Unit}
    (once : (pending.map (fun x => x.2.1)).Nodup) (member : x ∈ pending) :
    y ∈ pending.erase x ↔ y ∈ pending ∧ y.2.1 ≠ x.2.1 := by
  rw [(List.Nodup.of_map _ once).mem_erase_iff, and_comm]
  refine and_congr_right fun here => not_congr ⟨fun same => by rw [same], fun same => ?_⟩
  exact List.inj_on_of_nodup_map once here member same

theorem nextDue_other {h : Handler} {shown : Shown Handler Unit} (other : shown.called ≠ some (h, ())) :
    nextDue h (past ++ [shown]) = nextDue h past := by
  rw [nextDue, callTimes_concat, if_neg other, nextDue]

theorem Inv.wait (inv : Inv past t a) {nextTimeout : List (SysTimeo Handler Unit)} {passed : Nat}
    (refines : Refines nextTimeout { a with clock := a.clock + passed }) :
    Inv (past ++ [⟨none, passed⟩]) { t with nextTimeout } { a with clock := a.clock + passed } where
  refines := refines
  clock := by rw [elapsed_concat, inv.clock]
  once := inv.once
  started := inv.started
  due x member on := (inv.due x member on).trans (nextDue_other (by simp)).symm
  near x member := Nat.le_trans (inv.near x member) (by dsimp only; omega)
  regular h on := by
    rw [callTimes_concat, if_neg (by simp)]
    exact inv.regular h on

structure Without (h : Handler) (past : List (Shown Handler Unit)) (t : Thread)
    (a : Agenda Handler Unit) : Prop where
  refines : Refines t.nextTimeout a
  clock : a.clock = elapsed past
  once : (a.pending.map (fun x => x.2.1)).Nodup
  gone : ∀ x ∈ a.pending, x.2.1 ≠ h
  started : ∀ h' ≠ h, (∃ x ∈ a.pending, x.2.1 = h') ↔
    (h' = .tcpipTcpTimer → t.tcpipTcpTimerActive = true)
  due : ∀ x ∈ a.pending, x.2.1 ≠ .tcpipTcpTimer → x.1 = nextDue x.2.1 past
  near : ∀ x ∈ a.pending, x.1 ≤ a.clock + x.2.1.interval.toNat
  regular : ∀ h ≠ Handler.tcpipTcpTimer, callTimes h past =
    (List.range (callTimes h past).length).map (fun i => (i + 1) * h.interval.toNat)
  next : h ≠ .tcpipTcpTimer → nextDue h past = a.clock + h.interval.toNat

variable {h : Handler}

theorem Without.start (without : Without h past t a)
    (on : h = .tcpipTcpTimer → t.tcpipTcpTimerActive = true) : ∃ a, Inv past (t.start h) a := by
  have refines := timeout_refines without.refines h.interval h ()
  simp only [Agenda.step, if_neg (room_of_once without.once)] at refines
  refine ⟨_, refines, without.clock, ?_, fun h' => ?_, ?_, ?_, without.regular⟩
  · dsimp only
    rw [List.map_append, List.nodup_append]
    refine ⟨without.once, by simp, fun key member key' member' same => ?_⟩
    obtain ⟨x, old, rfl⟩ := List.mem_map.mp member
    obtain rfl : key' = h := by simpa using member'
    exact without.gone x old same
  · dsimp only [Thread.start]
    by_cases same : h' = h
    · subst same
      exact ⟨fun _ => on, fun _ => ⟨_, List.mem_append_right _ (List.mem_singleton_self _), rfl⟩⟩
    · rw [← without.started h' same]
      constructor
      · rintro ⟨x, member, key⟩
        rcases List.mem_append.mp member with old | new
        · exact ⟨x, old, key⟩
        · obtain rfl := List.mem_singleton.mp new
          exact absurd key.symm same
      · rintro ⟨x, old, key⟩
        exact ⟨x, List.mem_append_left _ old, key⟩
  · intro x member periodic
    rcases List.mem_append.mp member with old | new
    · exact without.due x old periodic
    · obtain rfl := List.mem_singleton.mp new
      exact (without.next periodic).symm
  · intro x member
    rcases List.mem_append.mp member with old | new
    · exact without.near x old
    · obtain rfl := List.mem_singleton.mp new
      exact Nat.le_refl _

theorem Without.stop (without : Without .tcpipTcpTimer past t a) :
    Inv past { t with tcpipTcpTimerActive := false } a where
  refines := without.refines
  clock := without.clock
  once := without.once
  started h' := by
    by_cases same : h' = .tcpipTcpTimer
    · subst same
      exact iff_of_false (fun ⟨x, member, key⟩ => without.gone x member key) (by simp)
    · rw [without.started h' same]
      simp [same]
  due := without.due
  near := without.near
  regular := without.regular

theorem Inv.called (inv : Inv past t a) {x : Nat × Handler × Unit}
    (first : a.pending.argmin Prod.fst = some x) {nextTimeout : List (SysTimeo Handler Unit)}
    (refines : Refines nextTimeout ⟨x.1, a.pending.erase x⟩) :
    Without x.2.1 (past ++ [⟨some x.2, x.1 - a.clock⟩]) { t with nextTimeout }
      ⟨x.1, a.pending.erase x⟩ := by
  have member : x ∈ a.pending := List.argmin_mem first
  have later := inv.refines.le member
  have time : elapsed past + (x.1 - a.clock) = x.1 := by
    have same := inv.clock
    omega
  have keys {y : Nat × Handler × Unit} := mem_erase_key (y := y) inv.once member
  have other : ∀ h ≠ x.2.1, callTimes h (past ++ [⟨some x.2, x.1 - a.clock⟩]) = callTimes h past := by
    intro h different
    rw [callTimes_concat, if_neg]
    exact fun same => different (congrArg Prod.fst (Option.some.inj same)).symm
  have here : callTimes x.2.1 (past ++ [⟨some x.2, x.1 - a.clock⟩]) = callTimes x.2.1 past ++ [x.1] := by
    rw [callTimes_concat, if_pos rfl, time]
  refine ⟨refines, ?_, ?_, ?_, ?_, ?_, ?_, ?_, ?_⟩
  · rw [elapsed_concat, time]
  · exact inv.once.sublist (List.erase_sublist.map _)
  · exact fun y left => (keys.mp left).2
  · intro h different
    rw [← inv.started h]
    constructor
    · rintro ⟨y, left, key⟩
      exact ⟨y, (keys.mp left).1, key⟩
    · rintro ⟨y, old, key⟩
      exact ⟨y, keys.mpr ⟨old, key ▸ different⟩, key⟩
  · intro y left periodic
    obtain ⟨old, different⟩ := keys.mp left
    rw [inv.due y old periodic, nextDue, nextDue, other _ different]
  · intro y left
    have bound := inv.near y (keys.mp left).1
    dsimp only
    omega
  · intro h periodic
    by_cases same : h = x.2.1
    · subst same
      have on := inv.due x member periodic
      rw [here, List.length_append, List.length_singleton, List.range_succ, List.map_append,
        ← inv.regular _ periodic, on]
      rfl
    · rw [other h same]
      exact inv.regular h periodic
  · intro periodic
    have on := inv.due x member periodic
    rw [nextDue] at on ⊢
    rw [here, List.length_append, List.length_singleton, on]
    exact Nat.succ_mul _ _

theorem Without.call (without : Without h past t a)
    (on : h = .tcpipTcpTimer → t.tcpipTcpTimerActive = true) (needed : Bool) :
    ∃ a, Inv past (t.call needed h) a := by
  cases h with
  | tcpipTcpTimer =>
    simp only [Thread.call]
    split
    · exact without.start on
    · exact ⟨a, without.stop⟩
  | ipReassTimer => exact without.start on
  | arpTimer => exact without.start on
  | dhcpTimerCoarse => exact without.start on
  | dhcpTimerFine => exact without.start on
  | dnsTimer => exact without.start on

theorem fetch_inv (inv : Inv past t a) (timeNeeded : UInt32) (needed : Bool) :
    ∃ a, Inv (past ++ [(step (.fetch timeNeeded needed) t).1])
      (step (.fetch timeNeeded needed) t).2 a := by
  obtain ⟨same, refines⟩ := fetch_refines inv.refines timeNeeded
  simp only [step]
  generalize fetchRound timeNeeded t.nextTimeout = result at same refines
  obtain ⟨shown, nextTimeout⟩ := result
  obtain rfl : shown = _ := same
  cases first : a.pending.argmin Prod.fst with
  | none =>
    simp only [Agenda.step, first] at refines ⊢
    exact ⟨_, inv.wait refines⟩
  | some x =>
    have member : x ∈ a.pending := List.argmin_mem first
    have later := inv.refines.le member
    simp only [Agenda.step, first] at refines ⊢
    by_cases waits : a.clock < x.1 ∧ timeNeeded ≠ sysArchTimeout
    · simp only [if_pos waits] at refines ⊢
      rw [show min (a.clock + timeNeeded.toNat) x.1 =
        a.clock + min timeNeeded.toNat (x.1 - a.clock) by omega] at refines
      exact ⟨_, inv.wait refines⟩
    · simp only [if_neg waits] at refines ⊢
      exact (inv.called first refines).call ((inv.started x.2.1).mp ⟨x, member, rfl⟩) needed

theorem needed_inv (inv : Inv past t a) (needed : Bool) :
    ∃ a, Inv (past ++ [(step (.needed needed) t).1]) (step (.needed needed) t).2 a := by
  have still := inv.wait (show Refines t.nextTimeout { a with clock := a.clock + 0 } from inv.refines)
  simp only [step, tcpTimerNeeded]
  split
  case isFalse _ => exact ⟨_, still⟩
  case isTrue off =>
    refine Without.start (a := a) ⟨still.refines, still.clock, still.once, ?_, ?_, still.due,
      still.near, still.regular, by simp⟩ (fun _ => rfl)
    · intro x member same
      have on := (inv.started .tcpipTcpTimer).mp ⟨x, member, same⟩ rfl
      exact absurd (on.symm.trans off.1) (by decide)
    · intro h' other
      rw [inv.started h']
      simp [other]

theorem step_inv (event : Event) (inv : ∃ a, Inv past t a) :
    ∃ a, Inv (past ++ [(step event t).1]) (step event t).2 a := by
  obtain ⟨a, inv⟩ := inv
  cases event with
  | fetch timeNeeded needed => exact fetch_inv inv timeNeeded needed
  | needed needed => exact needed_inv inv needed

end Invariant

theorem init_inv : Inv [] sysTimeoutsInit ⟨0, [(1000, .ipReassTimer, ()), (5000, .arpTimer, ()),
    (60000, .dhcpTimerCoarse, ()), (500, .dhcpTimerFine, ()), (1000, .dnsTimer, ())]⟩ where
  refines := ⟨by decide, by decide⟩
  clock := rfl
  once := by decide
  started h := by cases h <;> simp [sysTimeoutsInit, Thread.start]
  due := by decide
  near := by decide
  regular := fun _ _ => rfl

section Runs
variable {past : List (Shown Handler Unit)} {t : Thread} {a : Agenda Handler Unit}

theorem run_inv (events : List Event) (inv : ∃ a, Inv past t a) :
    ∃ a, Inv (past ++ outputs step events t) (final step events t) a := by
  induction events generalizing past t with
  | nil => simpa using inv
  | cons event events ih =>
    have next := ih (step_inv event inv)
    rwa [List.append_assoc, List.singleton_append] at next

theorem reached (events : List Event) : ∃ a,
    Inv (outputs step events sysTimeoutsInit) (final step events sysTimeoutsInit) a :=
  run_inv events ⟨_, init_inv⟩

theorem Inv.handlers (inv : Inv past t a) :
    (t.nextTimeout.map SysTimeo.h).Perm (a.pending.map (fun x => x.2.1)) := by
  have things := inv.refines.things.map Prod.fst
  rwa [List.map_map, List.map_map] at things

/-- On the clock of the list the timers that are always on are called at the multiples of their
intervals. Each timer is in the list once, that of TCP while it is active, and none was refused by
the pool. -/
theorem timers_keep_time (events : List Event) :
    let shown := outputs step events sysTimeoutsInit
    let t := final step events sysTimeoutsInit
    (∀ h ≠ Handler.tcpipTcpTimer, ∃ n,
        callTimes h shown = (List.range n).map (fun i => (i + 1) * h.interval.toNat) ∧
          n * h.interval.toNat ≤ elapsed shown ∧ elapsed shown ≤ (n + 1) * h.interval.toNat) ∧
      (t.nextTimeout.map SysTimeo.h).Nodup ∧
      (∀ h, h ∈ t.nextTimeout.map SysTimeo.h ↔
        (h = .tcpipTcpTimer → t.tcpipTcpTimerActive = true)) ∧
      t.nextTimeout.length < numSysTimeout := by
  obtain ⟨a, inv⟩ := reached events
  refine ⟨fun h periodic => ⟨_, inv.regular h periodic, ?_⟩, inv.handlers.nodup_iff.mpr inv.once,
    fun h => ?_, ?_⟩
  · obtain ⟨x, member, rfl⟩ := (inv.started h).mpr (fun same => absurd same periodic)
    have due := inv.due x member periodic
    have near := inv.near x member
    have later := inv.refines.le member
    have clock := inv.clock
    rw [nextDue] at due
    have next := Nat.add_one_mul (callTimes x.2.1 (outputs step events sysTimeoutsInit)).length
      x.2.1.interval.toNat
    constructor
    · omega
    · omega
  · rw [inv.handlers.mem_iff, ← inv.started h]
    exact List.mem_map
  · rw [inv.refines.length]
    exact Nat.not_le.mp (room_of_once inv.once)

/-- A message that is there when it is asked for: the tick counter stands at `now` before the pend
and behind it. -/
def readyRound (pvNullPointer now timeout temp : UInt32) (needed : Bool) : Event :=
  .fetch (sysArchMboxFetch pvNullPointer true timeout ⟨now, temp, osErrNone, now⟩).ret needed

theorem ready_reported (pvNullPointer now timeout temp : UInt32) :
    (sysArchMboxFetch pvNullPointer true timeout ⟨now, temp, osErrNone, now⟩).ret.toNat =
      21474832 := by
  have success : ¬ osErrNone = osErrTimeout := by decide
  simp only [sysArchMboxFetch, success, if_false, gt_iff_lt, UInt32.lt_irrefl]
  rw [elapsedMs_toNat, wrapped_toNat (UInt32.le_refl now), if_pos rfl]
  decide

def Due (t : Thread) : Prop := ∃ next rest, t.nextTimeout = next :: rest ∧ next.time = 0

theorem ready_step (inv : Inv past t a) (pvNullPointer now timeout temp : UInt32) (needed : Bool) :
    let r := step (readyRound pvNullPointer now timeout temp needed) t
    (Due t → r.1.called.isSome = true) ∧ (r.1.called.isSome = false → Due r.2) := by
  have reported := ready_reported pvNullPointer now timeout temp
  simp only [readyRound, step]
  generalize (sysArchMboxFetch pvNullPointer true timeout ⟨now, temp, osErrNone, now⟩).ret = ret
    at reported
  have other : ret ≠ sysArchTimeout := by
    rintro rfl
    exact absurd reported (by decide)
  cases timeouts : t.nextTimeout with
  | nil =>
    obtain ⟨x, member, -⟩ := (inv.started .ipReassTimer).mpr (by simp)
    have length := inv.refines.length
    rw [timeouts] at length
    exact absurd (List.length_pos_of_mem member) (by simp [← length])
  | cons next rest =>
    have times := inv.refines.times
    rw [timeouts, entries_cons, absolute] at times
    have member : (a.clock + next.time, next.h, next.arg) ∈ a.pending := by
      rw [← (inOrder_perm a.pending).mem_iff, ← times]
      exact List.mem_cons_self
    have near := inv.near _ member
    have interval : next.h.interval.toNat ≤ 60000 := by cases next.h <;> decide
    simp only [fetchRound]
    by_cases waits : next.time > 0
    · rw [if_pos waits, if_neg other, if_neg (by dsimp only at near; omega)]
      refine ⟨fun due => ?_, fun _ => ⟨_, _, rfl, rfl⟩⟩
      obtain ⟨next', rest', same, zero⟩ := due
      rw [timeouts] at same
      obtain ⟨rfl, -⟩ := List.cons.inj same
      omega
    · rw [if_neg waits, if_pos rfl]
      exact ⟨fun _ => rfl, fun none => absurd none (by simp)⟩

/-- While the tick counter stands still, every second round calls a timer. -/
theorem ready_messages_call_timers (events : List Event) (pvNullPointer now : UInt32)
    (rounds : List (UInt32 × UInt32 × Bool)) :
    let shown := outputs step (rounds.map fun r => readyRound pvNullPointer now r.1 r.2.1 r.2.2)
      (final step events sysTimeoutsInit)
    rounds.length ≤ 2 * shown.countP (fun s => s.called.isSome) + 1 := by
  have start := reached events
  generalize final step events sysTimeoutsInit = t at start
  generalize outputs step events sysTimeoutsInit = past at start
  -- a timer that is due already saves one round
  suffices bound : ∀ due, (due = 1 ∧ Due t ∨ due = 0) → rounds.length + due ≤
      2 * (outputs step (rounds.map fun r => readyRound pvNullPointer now r.1 r.2.1 r.2.2)
        t).countP (fun s => s.called.isSome) + 1 from bound 0 (Or.inr rfl)
  induction rounds generalizing past t with
  | nil =>
    intro due which
    simp only [List.length_nil]
    omega
  | cons r rounds ih =>
    intro due which
    obtain ⟨a, inv⟩ := start
    have next := ih _ _ (step_inv (readyRound pvNullPointer now r.1 r.2.1 r.2.2) ⟨a, inv⟩)
    obtain ⟨first, second⟩ := ready_step inv pvNullPointer now r.1 r.2.1 r.2.2
    rw [List.map_cons, outputs_cons, List.length_cons]
    cases called : (step (readyRound pvNullPointer now r.1 r.2.1 r.2.2) t).1.called.isSome with
    | true =>
      rw [List.countP_cons, if_pos called]
      have rest := next 0 (Or.inr rfl)
      omega
    | false =>
      rw [List.countP_cons, if_neg (by simp [called])]
      have rest := next 1 (Or.inl ⟨rfl, second called⟩)
      rcases which with ⟨rfl, now⟩ | rfl
      · exact absurd ((first now).symm.trans called) (by decide)
      · omega

end Runs

end BoxFirmware.TcpipTimers
