import BoxFirmware.DueList
import BoxFirmware.GuardedRun
import BoxFirmware.SysArch

/-! The timeouts of `timers.c`: a list in which each one has the time that is left after the one
before it. The handlers a run calls, and the waiting before each, are those of a plain agenda
with the times at which things are due. -/
namespace BoxFirmware.Timers
open DueList GuardedRun SysArch

structure SysTimeo (η α : Type) where
  time : Nat
  h : η
  arg : α

def numSysTimeout : Nat := 8

section Source
variable {η α : Type}

/-- The `for` loop of `sys_timeout`, for a new one that comes behind `t`. -/
def linkBehind (timeout t : SysTimeo η α) : List (SysTimeo η α) → List (SysTimeo η α)
  | [] => [t, { timeout with time := timeout.time - t.time }]
  | next :: rest =>
    let timeout := { timeout with time := timeout.time - t.time }
    if next.time > timeout.time then
      t :: timeout :: { next with time := next.time - timeout.time } :: rest
    else t :: linkBehind timeout next rest

/-- The pool is empty where all its elements are in the list. -/
def sysTimeout (msecs : UInt32) (h : η) (arg : α) (timeouts : List (SysTimeo η α)) :
    List (SysTimeo η α) :=
  if timeouts.length ≥ numSysTimeout then timeouts
  else
    let timeout : SysTimeo η α := ⟨msecs.toNat, h, arg⟩
    match timeouts with
    | [] => [timeout]
    | next :: rest =>
      if next.time > msecs.toNat then
        timeout :: { next with time := next.time - msecs.toNat } :: rest
      else linkBehind timeout next rest

/-- `t->next->time += t->time` in a `u32_t`. -/
def addToNext (time : Nat) : List (SysTimeo η α) → List (SysTimeo η α)
  | [] => []
  | next :: rest => { next with time := (next.time + time) % 2^32 } :: rest

def sysUntimeout [DecidableEq η] [DecidableEq α] (h : η) (arg : α) :
    List (SysTimeo η α) → List (SysTimeo η α)
  | [] => []
  | t :: rest => if t.h = h ∧ t.arg = arg then addToNext t.time rest else t :: sysUntimeout h arg rest

/-- What a round shows: the handler that is called, and the time that the list takes to have
passed. -/
structure Shown (η α : Type) where
  called : Option (η × α)
  passed : Nat

/-- One round of `sys_timeouts_mbox_fetch`, from `again` on. `timeNeeded` is what
`sys_arch_mbox_fetch` returns if it is called. -/
def fetchRound (timeNeeded : UInt32) :
    List (SysTimeo η α) → Shown η α × List (SysTimeo η α)
  | [] => (⟨none, timeNeeded.toNat⟩, [])
  | next :: rest =>
    let timeNeeded := if next.time > 0 then timeNeeded else sysArchTimeout
    if timeNeeded = sysArchTimeout then (⟨some (next.h, next.arg), next.time⟩, rest)
    else if timeNeeded.toNat < next.time then
      (⟨none, timeNeeded.toNat⟩, { next with time := next.time - timeNeeded.toNat } :: rest)
    else (⟨none, next.time⟩, { next with time := 0 } :: rest)

inductive Event (η α : Type) where
  | timeout (msecs : UInt32) (h : η) (arg : α)
  | untimeout (h : η) (arg : α)
  | fetch (timeNeeded : UInt32)

variable [DecidableEq η] [DecidableEq α]

def step : Event η α → List (SysTimeo η α) → Shown η α × List (SysTimeo η α)
  | .timeout msecs h arg, timeouts => (⟨none, 0⟩, sysTimeout msecs h arg timeouts)
  | .untimeout h arg, timeouts => (⟨none, 0⟩, sysUntimeout h arg timeouts)
  | .fetch timeNeeded, timeouts => fetchRound timeNeeded timeouts

end Source

section Agenda

/-- What the timeouts are for: things in the order in which they came, with the times at which
they are due. -/
structure Agenda (η α : Type) where
  clock : Nat
  pending : List (Nat × η × α)

variable {η α : Type} [DecidableEq η] [DecidableEq α]

/-- The first to come of those due first is called when it is due. A message is waited for no
longer than to that time. -/
def Agenda.step : Event η α → Agenda η α → Shown η α × Agenda η α
  | .timeout msecs h arg, a => (⟨none, 0⟩,
      if a.pending.length ≥ numSysTimeout then a
      else { a with pending := a.pending ++ [(a.clock + msecs.toNat, h, arg)] })
  | .untimeout h arg, a => (⟨none, 0⟩,
      match (a.pending.filter (fun x => x.2 = (h, arg))).argmin Prod.fst with
      | none => a
      | some x => { a with pending := a.pending.erase x })
  | .fetch timeNeeded, a =>
    match a.pending.argmin Prod.fst with
    | none => (⟨none, timeNeeded.toNat⟩, { a with clock := a.clock + timeNeeded.toNat })
    | some x =>
      if a.clock < x.1 ∧ timeNeeded ≠ sysArchTimeout then
        (⟨none, min timeNeeded.toNat (x.1 - a.clock)⟩,
          { a with clock := min (a.clock + timeNeeded.toNat) x.1 })
      else (⟨some x.2, x.1 - a.clock⟩, ⟨x.1, a.pending.erase x⟩)

end Agenda

section Refine
variable {η α : Type}

def entries (timeouts : List (SysTimeo η α)) : List (Nat × η × α) :=
  timeouts.map (fun t => (t.time, t.h, t.arg))

@[simp] theorem entries_cons (t : SysTimeo η α) (rest : List (SysTimeo η α)) :
    entries (t :: rest) = (t.time, t.h, t.arg) :: entries rest := rfl

@[simp] theorem entries_length (timeouts : List (SysTimeo η α)) :
    (entries timeouts).length = timeouts.length := List.length_map _

theorem linkBehind_entries (timeout t : SysTimeo η α) (rest : List (SysTimeo η α))
    (behind : t.time ≤ timeout.time) : entries (linkBehind timeout t rest) =
      insertDelta timeout.time (timeout.h, timeout.arg) (entries (t :: rest)) := by
  induction rest generalizing timeout t with
  | nil =>
    rw [linkBehind, entries_cons t [], insertDelta, if_neg (Nat.not_lt.mpr behind)]
    rfl
  | cons next rest ih =>
    rw [linkBehind, entries_cons t (next :: rest), insertDelta, if_neg (Nat.not_lt.mpr behind)]
    dsimp only
    by_cases before : next.time > timeout.time - t.time
    · rw [if_pos before, entries_cons next, insertDelta, if_pos before]
      rfl
    · rw [if_neg before, entries_cons]
      exact congrArg (_ :: ·) (ih _ next (Nat.le_of_not_lt before))

theorem sysTimeout_entries (msecs : UInt32) (h : η) (arg : α) (timeouts : List (SysTimeo η α)) :
    entries (sysTimeout msecs h arg timeouts) =
      if timeouts.length ≥ numSysTimeout then entries timeouts
      else insertDelta msecs.toNat (h, arg) (entries timeouts) := by
  unfold sysTimeout
  split
  · rfl
  cases timeouts with
  | nil => rfl
  | cons next rest =>
    dsimp only
    by_cases before : next.time > msecs.toNat
    · rw [if_pos before, entries_cons next, insertDelta, if_pos before]
      rfl
    · rw [if_neg before]
      exact linkBehind_entries _ next rest (Nat.le_of_not_lt before)

/-- The addition does not wrap where all is due within the range of a `u32_t`. -/
theorem sysUntimeout_entries [DecidableEq η] [DecidableEq α] (h : η) (arg : α)
    {timeouts : List (SysTimeo η α)} {base : Nat}
    (near : ∀ x ∈ absolute base (entries timeouts), x.1 < base + 2^32) :
    entries (sysUntimeout h arg timeouts) =
      removeDelta (fun b => b = (h, arg)) (entries timeouts) := by
  induction timeouts generalizing base with
  | nil => rfl
  | cons t rest ih =>
    obtain ⟨-, near'⟩ := List.forall_mem_cons.mp near
    rw [sysUntimeout, entries_cons, removeDelta]
    by_cases here : t.h = h ∧ t.arg = arg
    · rw [if_pos here, if_pos (by simp [here])]
      cases rest with
      | nil => rfl
      | cons next rest =>
        have first := near' _ List.mem_cons_self
        have small : (next.time + t.time) % 2^32 = next.time + t.time := by
          dsimp only at first
          exact Nat.mod_eq_of_lt (by omega)
        rw [addToNext, small]
        rfl
    · rw [if_neg here, if_neg (by simpa using here), entries_cons]
      have later : ∀ x ∈ absolute (base + t.time) (entries rest), x.1 < base + t.time + 2^32 :=
        fun x member => Nat.lt_of_lt_of_le (near' x member) (by omega)
      exact congrArg (_ :: ·) (ih later)

structure Refines (timeouts : List (SysTimeo η α)) (a : Agenda η α) : Prop where
  times : absolute a.clock (entries timeouts) = inOrder a.pending
  near : ∀ x ∈ a.pending, x.1 < a.clock + 2^32

theorem Refines.length {timeouts : List (SysTimeo η α)} {a : Agenda η α}
    (refines : Refines timeouts a) : timeouts.length = a.pending.length := by
  have same := congrArg List.length refines.times
  rwa [absolute_length, entries_length, (inOrder_perm a.pending).length_eq] at same

theorem empty_refines : Refines ([] : List (SysTimeo η α)) ⟨0, []⟩ := ⟨rfl, by simp⟩

theorem Refines.le {timeouts : List (SysTimeo η α)} {a : Agenda η α} (refines : Refines timeouts a)
    {x : Nat × η × α} (member : x ∈ a.pending) : a.clock ≤ x.1 := by
  refine absolute_le (l := entries timeouts) ?_
  rw [refines.times]
  exact (inOrder_perm a.pending).mem_iff.mpr member

theorem Refines.things {timeouts : List (SysTimeo η α)} {a : Agenda η α}
    (refines : Refines timeouts a) :
    (timeouts.map (fun t => (t.h, t.arg))).Perm (a.pending.map Prod.snd) := by
  have same := congrArg (List.map Prod.snd) refines.times
  rw [absolute_things, entries, List.map_map] at same
  rw [show timeouts.map (fun t => (t.h, t.arg)) = _ from same]
  exact (inOrder_perm a.pending).map Prod.snd

variable [DecidableEq η] [DecidableEq α] {timeouts : List (SysTimeo η α)} {a : Agenda η α}

theorem timeout_refines (refines : Refines timeouts a) (msecs : UInt32) (h : η) (arg : α) :
    Refines (sysTimeout msecs h arg timeouts) (a.step (.timeout msecs h arg)).2 := by
  have same := sysTimeout_entries msecs h arg timeouts
  rw [refines.length] at same
  simp only [Agenda.step]
  by_cases full : a.pending.length ≥ numSysTimeout
  · rw [if_pos full] at same ⊢
    exact ⟨same ▸ refines.times, refines.near⟩
  · rw [if_neg full] at same ⊢
    refine ⟨?_, fun x member => ?_⟩
    · rw [same, absolute_insert, refines.times]
      exact (inOrder_concat _ _).symm
    · rcases List.mem_append.mp member with old | new
      · exact refines.near x old
      · obtain rfl := List.mem_singleton.mp new
        have bound := msecs.toNat_lt
        exact Nat.add_lt_add_left bound a.clock

theorem untimeout_refines (refines : Refines timeouts a) (h : η) (arg : α) :
    Refines (sysUntimeout h arg timeouts) (a.step (.untimeout h arg)).2 := by
  have near : ∀ x ∈ absolute a.clock (entries timeouts), x.1 < a.clock + 2^32 := by
    intro x member
    rw [refines.times] at member
    exact refines.near x ((inOrder_perm a.pending).mem_iff.mp member)
  have times : absolute a.clock (entries (sysUntimeout h arg timeouts)) =
      match (a.pending.filter (fun x => x.2 = (h, arg))).argmin Prod.fst with
      | none => inOrder a.pending
      | some x => inOrder (a.pending.erase x) := by
    rw [sysUntimeout_entries h arg near, absolute_remove, eraseP_eq_erase, refines.times,
      inOrder_find]
    cases (a.pending.filter (fun x => x.2 = (h, arg))).argmin Prod.fst with
    | none => rfl
    | some x => exact inOrder_erase a.pending x
  simp only [Agenda.step]
  cases found : (a.pending.filter (fun x => x.2 = (h, arg))).argmin Prod.fst with
  | none =>
    rw [found] at times
    exact ⟨times, refines.near⟩
  | some x =>
    rw [found] at times
    exact ⟨times, fun y member => refines.near y (List.mem_of_mem_erase member)⟩

theorem fetch_refines (refines : Refines timeouts a) (timeNeeded : UInt32) :
    (fetchRound timeNeeded timeouts).1 = (a.step (.fetch timeNeeded)).1 ∧
      Refines (fetchRound timeNeeded timeouts).2 (a.step (.fetch timeNeeded)).2 := by
  have times := refines.times
  have head := inOrder_head a.pending
  rw [← times] at head
  cases timeouts with
  | nil =>
    have none : a.pending.argmin Prod.fst = none := head.symm
    have empty : a.pending = [] := List.argmin_eq_none.mp none
    simp only [fetchRound, Agenda.step, none]
    refine ⟨trivial, ?_, by simp [empty]⟩
    rw [empty]
    rfl
  | cons next rest =>
    have first : a.pending.argmin Prod.fst = some (a.clock + next.time, next.h, next.arg) :=
      head.symm
    have gone : absolute (a.clock + next.time) (entries rest) =
        inOrder (a.pending.erase (a.clock + next.time, next.h, next.arg)) := by
      rw [← inOrder_erase, ← times, entries_cons, absolute]
      exact (List.erase_cons_head _ _).symm
    have advance : ∀ w ≤ next.time,
        Refines ({ next with time := next.time - w } :: rest) { a with clock := a.clock + w } := by
      refine fun w within => ⟨?_, fun x member => ?_⟩
      · rw [entries_cons, absolute_advance _ _ _ within]
        exact times
      · exact Nat.lt_of_lt_of_le (refines.near x member) (by dsimp only; omega)
    simp only [fetchRound, Agenda.step, first]
    by_cases waits : next.time > 0 ∧ timeNeeded ≠ sysArchTimeout
    · have ahead : a.clock < a.clock + next.time ∧ timeNeeded ≠ sysArchTimeout :=
        ⟨Nat.lt_add_of_pos_right waits.1, waits.2⟩
      rw [if_pos waits.1, if_neg waits.2, if_pos ahead]
      by_cases short : timeNeeded.toNat < next.time
      · rw [if_pos short, show a.clock + next.time - a.clock = next.time by omega,
          Nat.min_eq_left (Nat.le_of_lt short), Nat.min_eq_left (by omega)]
        exact ⟨rfl, advance _ (Nat.le_of_lt short)⟩
      · rw [if_neg short, show a.clock + next.time - a.clock = next.time by omega,
          Nat.min_eq_right (Nat.le_of_not_lt short), Nat.min_eq_right (by omega)]
        have whole := advance next.time (Nat.le_refl _)
        rw [Nat.sub_self] at whole
        exact ⟨rfl, whole⟩
    · have due : (if next.time > 0 then timeNeeded else sysArchTimeout) = sysArchTimeout := by
        split
        case isTrue more => exact by_contra fun other => waits ⟨more, other⟩
        case isFalse _ => rfl
      rw [if_pos due, if_neg (fun both => waits ⟨by omega, both.2⟩),
        show a.clock + next.time - a.clock = next.time by omega]
      refine ⟨rfl, gone, fun x member => ?_⟩
      exact Nat.lt_of_lt_of_le (refines.near x (List.mem_of_mem_erase member))
        (by dsimp only; omega)

theorem step_refines (event : Event η α) (refines : Refines timeouts a) :
    (step event timeouts).1 = (a.step event).1 ∧ Refines (step event timeouts).2 (a.step event).2 :=
  match event with
  | .timeout msecs h arg => ⟨rfl, timeout_refines refines msecs h arg⟩
  | .untimeout h arg => ⟨rfl, untimeout_refines refines h arg⟩
  | .fetch timeNeeded => fetch_refines refines timeNeeded

/-- The list with its differences calls what the agenda calls, and takes the same time to have
passed. -/
theorem timeouts_are_agenda (events : List (Event η α)) :
    outputs step events [] = outputs Agenda.step events ⟨0, []⟩ :=
  (outputs_simulated (fun event _ _ refines => step_refines event refines) events empty_refines).1

end Refine

end BoxFirmware.Timers
