import BoxFirmware.RingQueue
import BoxFirmware.UcosFlow

/-! The store of a queue in `os_q.c`: a ring of pointers with one pointer to its next free
entry, one to its oldest, and a count. For calls that find no task waiting it is a list
that is bounded, and the queue of the kernel's tasks is this list. -/
namespace BoxFirmware.Ucos
open GuardedRun RingQueue

/-- An `OS_Q`; the pointers count from `OSQStart`. -/
structure OsQ (α : Type) where
  entry : Nat → α
  osqEnd : Nat
  osqIn : Nat
  osqOut : Nat
  osqSize : Nat
  osqEntries : Nat

inductive Answer (α : Type)
  | err (err : Nat)
  | msg (pmsg : Option α)
  | data (osMsg : Option α) (osNMsgs osqSize : Nat)

inductive QCall (α : Type)
  | post (pmsg : α)
  | postFront (pmsg : α)
  | accept
  | flush
  | query

namespace OsQ

variable {α : Type}

def osqCreate (start : Nat → α) (size : Nat) : OsQ α := ⟨start, size, 0, 0, size, 0⟩

def osqPost (pmsg : α) (pq : OsQ α) : Answer α × OsQ α :=
  if pq.osqEntries ≥ pq.osqSize then (.err osErrQFull, pq)
  else
    let osqIn := pq.osqIn + 1
    (.err osErrNone, { pq with
      entry := Function.update pq.entry pq.osqIn pmsg
      osqIn := if osqIn = pq.osqEnd then 0 else osqIn
      osqEntries := pq.osqEntries + 1 })

def osqPostFront (pmsg : α) (pq : OsQ α) : Answer α × OsQ α :=
  if pq.osqEntries ≥ pq.osqSize then (.err osErrQFull, pq)
  else
    let osqOut := (if pq.osqOut = 0 then pq.osqEnd else pq.osqOut) - 1
    (.err osErrNone, { pq with
      entry := Function.update pq.entry osqOut pmsg
      osqOut := osqOut
      osqEntries := pq.osqEntries + 1 })

def osqAccept (pq : OsQ α) : Answer α × OsQ α :=
  if pq.osqEntries > 0 then
    let osqOut := pq.osqOut + 1
    (.msg (some (pq.entry pq.osqOut)), { pq with
      osqOut := if osqOut = pq.osqEnd then 0 else osqOut
      osqEntries := pq.osqEntries - 1 })
  else (.msg none, pq)

def osqFlush (pq : OsQ α) : Answer α × OsQ α :=
  (.err osErrNone, { pq with osqIn := 0, osqOut := 0, osqEntries := 0 })

def osqQuery (pq : OsQ α) : Answer α × OsQ α :=
  (.data (if pq.osqEntries > 0 then some (pq.entry pq.osqOut) else none) pq.osqEntries pq.osqSize, pq)

def call : QCall α → OsQ α → Answer α × OsQ α
  | .post pmsg => osqPost pmsg
  | .postFront pmsg => osqPostFront pmsg
  | .accept => osqAccept
  | .flush => osqFlush
  | .query => osqQuery

end OsQ

section Lists

variable {α : Type}

def listCall (size : Nat) : QCall α → List α → Answer α × List α
  | .post pmsg, msgs =>
    if msgs.length < size then (.err osErrNone, msgs ++ [pmsg]) else (.err osErrQFull, msgs)
  | .postFront pmsg, msgs =>
    if msgs.length < size then (.err osErrNone, pmsg :: msgs) else (.err osErrQFull, msgs)
  | .accept, msgs => (.msg msgs.head?, msgs.tail)
  | .flush, _ => (.err osErrNone, [])
  | .query, msgs => (.data msgs.head? msgs.length size, msgs)

/-- The messages of the list are in the ring; a ring of no entry holds nothing. -/
structure OsQ.Holds (size : Nat) (pq : OsQ α) (msgs : List α) : Prop where
  bound : pq.osqEnd = size
  sized : pq.osqSize = size
  count : pq.osqEntries = msgs.length
  room : msgs.length ≤ size
  ring : 0 < size → ∃ full, Queued size full (fun i pmsg => pq.entry i = pmsg) pq.osqOut pq.osqIn msgs

variable {size : Nat} {pq : OsQ α} {msgs : List α}

theorem wrap {i : Nat} (inside : i < size) : (if i + 1 = size then 0 else i + 1) = (i + 1) % size := by
  split_ifs with last
  · rw [last, Nat.mod_self]
  · exact (Nat.mod_eq_of_lt (by omega)).symm

theorem OsQ.osqCreate_holds (start : Nat → α) (size : Nat) : (osqCreate start size).Holds size [] where
  bound := rfl
  sized := rfl
  count := rfl
  room := Nat.zero_le _
  ring positive := ⟨fun _ => false, queued_nil positive (fun _ _ => rfl)⟩

theorem OsQ.Holds.post (holds : pq.Holds size msgs) (pmsg : α) :
    (pq.osqPost pmsg).1 = (listCall size (.post pmsg) msgs).1 ∧
      (pq.osqPost pmsg).2.Holds size (listCall size (.post pmsg) msgs).2 := by
  rw [OsQ.osqPost, listCall, holds.count, holds.sized]
  by_cases room : msgs.length < size
  · rw [if_neg (not_le.mpr room), if_pos room]
    refine ⟨rfl, holds.bound, rfl, by simp, by simpa using Nat.succ_le_of_lt room, fun positive => ?_⟩
    obtain ⟨full, queued⟩ := holds.ring positive
    have inside : pq.osqIn < size := by
      rw [queued.tail]
      exact Nat.mod_lt _ positive
    have free : full pq.osqIn = false := by
      rw [queued.full_tail]
      exact decide_eq_false (Nat.ne_of_lt room)
    refine ⟨Function.update full pq.osqIn true, ?_⟩
    dsimp only
    rw [holds.bound, wrap inside]
    refine (queued.imp (fun k a member before => ?_)).push free (Function.update_self _ _ _)
    have other : (pq.osqOut + k) % size ≠ pq.osqIn := by
      intro same
      have set := queued.full_slot member
      rw [same, free] at set
      cases set
    rw [Function.update_of_ne other]
    exact before
  · rw [if_pos (not_lt.mp room), if_neg room]
    exact ⟨rfl, holds⟩

theorem OsQ.Holds.postFront (holds : pq.Holds size msgs) (pmsg : α) :
    (pq.osqPostFront pmsg).1 = (listCall size (.postFront pmsg) msgs).1 ∧
      (pq.osqPostFront pmsg).2.Holds size (listCall size (.postFront pmsg) msgs).2 := by
  rw [OsQ.osqPostFront, listCall, holds.count, holds.sized]
  by_cases room : msgs.length < size
  · rw [if_neg (not_le.mpr room), if_pos room]
    refine ⟨rfl, holds.bound, rfl, by simp, by simpa using Nat.succ_le_of_lt room, fun positive => ?_⟩
    obtain ⟨full, queued⟩ := holds.ring positive
    have free : full pq.osqIn = false := by
      rw [queued.full_tail]
      exact decide_eq_false (Nat.ne_of_lt room)
    dsimp only
    rw [holds.bound]
    generalize before : (if pq.osqOut = 0 then size else pq.osqOut) - 1 = out
    have inside : out < size ∧ (out + 1) % size = pq.osqOut := by
      have head := queued.inside
      split_ifs at before with first
      · rw [show out + 1 = size by omega, Nat.mod_self]
        exact ⟨by omega, first.symm⟩
      · rw [show out + 1 = pq.osqOut by omega, Nat.mod_eq_of_lt head]
        exact ⟨by omega, rfl⟩
    -- the entry before the oldest one is free, as the ring has room
    have last : full out = false := by
      have flag := queued.flags (size - 1) (by omega)
      have slot : (pq.osqOut + (size - 1)) % size = out := by
        rw [← inside.2, Nat.mod_add_mod, show out + 1 + (size - 1) = out + size by omega,
          Nat.add_mod_right, Nat.mod_eq_of_lt inside.1]
      rw [slot] at flag
      rw [flag]
      exact decide_eq_false (by omega)
    refine ⟨Function.update full out true, ?_⟩
    refine (queued.imp (fun k a member kept => ?_)).pushFront free inside.1 inside.2 (Function.update_self _ _ _)
    have other : (pq.osqOut + k) % size ≠ out := by
      intro same
      have set := queued.full_slot member
      rw [same, last] at set
      cases set
    rw [Function.update_of_ne other]
    exact kept
  · rw [if_pos (not_lt.mp room), if_neg room]
    exact ⟨rfl, holds⟩

theorem OsQ.Holds.first (holds : pq.Holds size msgs) :
    (if pq.osqEntries > 0 then some (pq.entry pq.osqOut) else none) = msgs.head? := by
  rw [holds.count]
  cases msgs with
  | nil => rfl
  | cons pmsg rest =>
    obtain ⟨full, queued⟩ := holds.ring (Nat.lt_of_lt_of_le (Nat.succ_pos _) holds.room)
    rw [List.length_cons, if_pos (Nat.succ_pos _), queued.pop.1]
    rfl

theorem OsQ.Holds.accept (holds : pq.Holds size msgs) :
    pq.osqAccept.1 = (listCall size .accept msgs).1 ∧
      pq.osqAccept.2.Holds size (listCall size .accept msgs).2 := by
  have first := holds.first
  rw [OsQ.osqAccept, listCall]
  cases msgs with
  | nil =>
    rw [holds.count] at first ⊢
    exact ⟨rfl, holds⟩
  | cons pmsg rest =>
    have positive : 0 < size := Nat.lt_of_lt_of_le (Nat.succ_pos _) holds.room
    obtain ⟨full, queued⟩ := holds.ring positive
    have some : pq.osqEntries > 0 := by
      rw [holds.count]
      exact Nat.succ_pos _
    rw [if_pos some] at first ⊢
    refine ⟨congrArg Answer.msg first, holds.bound, holds.sized, ?_, Nat.le_of_succ_le holds.room, fun _ => ?_⟩
    · show pq.osqEntries - 1 = rest.length
      rw [holds.count]
      rfl
    · refine ⟨Function.update full pq.osqOut false, ?_⟩
      dsimp only
      rw [holds.bound, wrap queued.inside]
      exact queued.pop.2

theorem OsQ.Holds.call (holds : pq.Holds size msgs) (call : QCall α) :
    (pq.call call).1 = (listCall size call msgs).1 ∧
      (pq.call call).2.Holds size (listCall size call msgs).2 := by
  cases call with
  | post pmsg => exact holds.post pmsg
  | postFront pmsg => exact holds.postFront pmsg
  | accept => exact holds.accept
  | flush =>
    refine ⟨rfl, holds.bound, holds.sized, rfl, Nat.zero_le _, fun positive => ?_⟩
    exact ⟨fun _ => false, queued_nil positive (fun _ _ => rfl)⟩
  | query =>
    refine ⟨?_, holds⟩
    show Answer.data _ _ _ = Answer.data _ _ _
    rw [holds.first, holds.count, holds.sized]

end Lists

section Store

variable {α : Type} {pq : OsQ α}

def OsQ.Backs (pq : OsQ α) (body : Body α) : Prop := ∃ size msgs, body = .q size msgs ∧ pq.Holds size msgs

theorem OsQ.backs_kernel {body : Body α} (backs : pq.Backs body) :
    (∀ pmsg, match body.put (some pmsg) with
      | some body' => (pq.osqPost pmsg).1 = .err osErrNone ∧ (pq.osqPost pmsg).2.Backs body'
      | none => pq.osqPost pmsg = (.err osErrQFull, pq)) ∧
    (match body.take with
      | some (pmsg, body') => pq.osqAccept.1 = .msg pmsg ∧ pq.osqAccept.2.Backs body'
      | none => pq.osqAccept = (.msg none, pq)) := by
  obtain ⟨size, msgs, rfl, holds⟩ := backs
  refine ⟨fun pmsg => ?_, ?_⟩
  · have post := holds.post pmsg
    by_cases room : msgs.length < size
    · rw [Body.put, if_neg (not_le.mpr room)]
      rw [listCall, if_pos room] at post
      exact ⟨post.1, size, _, rfl, post.2⟩
    · rw [Body.put, if_pos (not_lt.mp room)]
      show pq.osqPost pmsg = _
      rw [OsQ.osqPost, holds.count, holds.sized, if_pos (not_lt.mp room)]
  · have accept := holds.accept
    cases msgs with
    | nil =>
      show pq.osqAccept = _
      rw [OsQ.osqAccept, holds.count]
      rfl
    | cons pmsg rest => exact ⟨accept.1, size, rest, rfl, accept.2⟩

end Store

section Runs

variable {α : Type} (start : Nat → α) (size : Nat)

/-- The ring answers every sequence of calls as the bounded list does. -/
theorem ring_is_list (calls : List (QCall α)) :
    outputs OsQ.call calls (OsQ.osqCreate start size) = outputs (listCall size) calls [] ∧
      (final OsQ.call calls (OsQ.osqCreate start size)).Holds size (final (listCall size) calls []) :=
  outputs_simulated (fun call _ _ holds => holds.call call) calls (OsQ.osqCreate_holds start size)

end Runs

end BoxFirmware.Ucos
