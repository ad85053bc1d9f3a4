import Mathlib.Data.List.Basic
import Mathlib.Data.Nat.ModEq
import Mathlib.Logic.Function.Basic

/-! A queue in a ring of `n` slots, each with a flag that says whose it is. The producer
fills the slot at its pointer and sets the flag, the consumer takes the slot at its own
pointer and clears it. Nobody counts: that the flag of the tail tells a full ring, and
that of the head an empty one, follows from the order of the slots. What a slot holds of
an item is a parameter. -/
namespace BoxFirmware.RingQueue

variable {α : Type} {n : Nat}

theorem slot_inj {head k j : Nat} (hk : k < n) (hj : j < n)
    (same : (head + k) % n = (head + j) % n) : k = j :=
  Nat.ModEq.eq_of_lt_of_lt (Nat.ModEq.add_left_cancel' head same) hk hj

theorem slot_next (head k : Nat) : ((head + 1) % n + k) % n = (head + (k + 1)) % n := by
  rw [Nat.mod_add_mod, Nat.add_assoc, Nat.add_comm 1 k]

theorem slot_head {head : Nat} (inside : head < n) : (head + 0) % n = head :=
  Nat.mod_eq_of_lt inside

/-- The queue lies in the slots from `head` on, and just these have their flag set. -/
structure Queued (n : Nat) (full : Nat → Bool) (Holds : Nat → α → Prop) (head tail : Nat)
    (queue : List α) : Prop where
  room : queue.length ≤ n
  inside : head < n
  tail : tail = (head + queue.length) % n
  flags : ∀ k < n, full ((head + k) % n) = decide (k < queue.length)
  holds : ∀ k a, queue[k]? = some a → Holds ((head + k) % n) a

variable {full : Nat → Bool} {Holds Holds' : Nat → α → Prop} {head tail : Nat} {queue : List α}

theorem queued_nil (inside : head < n) (empty : ∀ i < n, full i = false) :
    Queued n full Holds head head [] where
  room := Nat.zero_le n
  inside := inside
  tail := (slot_head inside).symm
  flags k hk := empty _ (Nat.mod_lt _ (Nat.zero_lt_of_lt hk))
  holds k a member := by simp at member

section Lookup

variable (queued : Queued n full Holds head tail queue)
include queued

theorem Queued.full_head : full head = decide (0 < queue.length) := by
  have flag := queued.flags 0 (Nat.zero_lt_of_lt queued.inside)
  rwa [slot_head queued.inside] at flag

theorem Queued.full_tail : full tail = decide (queue.length = n) := by
  rcases Nat.eq_or_lt_of_le queued.room with all | room
  · rw [queued.tail, all, Nat.add_mod_right, Nat.mod_eq_of_lt queued.inside, queued.full_head, all]
    simpa using Nat.zero_lt_of_lt queued.inside
  · rw [queued.tail, queued.flags _ room]
    simpa using Nat.ne_of_lt room

theorem Queued.full_slot {k : Nat} {a : α} (member : queue[k]? = some a) :
    full ((head + k) % n) = true := by
  have inside := (List.getElem?_eq_some_iff.mp member).1
  rw [queued.flags k (Nat.lt_of_lt_of_le inside queued.room)]
  exact decide_eq_true inside

/-- With the tail at a set flag the ring is full, and the tail is the head. -/
theorem Queued.full_wraps (set : full tail = true) : tail = head := by
  rw [queued.full_tail, decide_eq_true_eq] at set
  rw [queued.tail, set, Nat.add_mod_right, Nat.mod_eq_of_lt queued.inside]

theorem Queued.imp (weaker : ∀ k a, queue[k]? = some a → Holds ((head + k) % n) a →
    Holds' ((head + k) % n) a) : Queued n full Holds' head tail queue :=
  ⟨queued.room, queued.inside, queued.tail, queued.flags,
    fun k a member => weaker k a member (queued.holds k a member)⟩

theorem Queued.push {a : α} (free : full tail = false) (holds : Holds tail a) :
    Queued n (Function.update full tail true) Holds head ((tail + 1) % n) (queue ++ [a]) := by
  rw [queued.full_tail, decide_eq_false_iff_not] at free
  have room := Nat.lt_of_le_of_ne queued.room free
  refine ⟨?_, queued.inside, ?_, fun k hk => ?_, fun k b member => ?_⟩
  · rw [List.length_append]
    exact room
  · rw [queued.tail, Nat.mod_add_mod, List.length_append, List.length_singleton, Nat.add_assoc]
  · rw [List.length_append, List.length_singleton]
    by_cases last : k = queue.length
    · rw [last, ← queued.tail, Function.update_self]
      simp
    · have other : (head + k) % n ≠ tail := by
        rw [queued.tail]
        exact fun same => last (slot_inj hk room same)
      rw [Function.update_of_ne other, queued.flags k hk]
      exact decide_eq_decide.mpr (by omega)
  · rcases Nat.lt_or_ge k queue.length with before | behind
    · rw [List.getElem?_append_left before] at member
      exact queued.holds k b member
    · rw [List.getElem?_append_right behind, List.getElem?_singleton] at member
      split at member
      · have last : k = queue.length := by omega
        rw [last, ← queued.tail]
        obtain rfl := Option.some.inj member
        exact holds
      · cases member

end Lookup

theorem Queued.empty (queued : Queued n full Holds head tail []) {i : Nat} (hi : i < n) :
    full i = false := by
  have inside := queued.inside
  have whole : head + (i + (n - head)) = i + n := by omega
  have slot : (head + (i + (n - head)) % n) % n = i := by
    rw [Nat.add_mod_mod, whole, Nat.add_mod_right, Nat.mod_eq_of_lt hi]
  have flag := queued.flags _ (Nat.mod_lt (i + (n - head)) (Nat.zero_lt_of_lt hi))
  rw [slot] at flag
  exact flag

theorem Queued.pop {a : α} (queued : Queued n full Holds head tail (a :: queue)) :
    Holds head a ∧ Queued n (Function.update full head false) Holds ((head + 1) % n) tail queue := by
  have positive := Nat.zero_lt_of_lt queued.inside
  have room : queue.length < n := queued.room
  have first := queued.holds 0 a rfl
  rw [slot_head queued.inside] at first
  refine ⟨first, Nat.le_of_lt room, Nat.mod_lt _ positive, ?_, fun k hk => ?_, fun k b member => ?_⟩
  · rw [slot_next]
    exact queued.tail
  · rw [slot_next]
    rcases Nat.lt_or_ge (k + 1) n with before | last
    · have other : (head + (k + 1)) % n ≠ head := by
        intro same
        exact Nat.succ_ne_zero k (slot_inj before positive (same.trans (slot_head queued.inside).symm))
      rw [Function.update_of_ne other, queued.flags _ before]
      exact decide_eq_decide.mpr Nat.succ_lt_succ_iff
    · have whole : k + 1 = n := Nat.le_antisymm hk last
      rw [whole, Nat.add_mod_right, Nat.mod_eq_of_lt queued.inside, Function.update_self]
      exact (decide_eq_false (by omega)).symm
  · rw [slot_next]
    exact queued.holds (k + 1) b member

theorem Queued.pushFront {a : α} {head' : Nat} (queued : Queued n full Holds head tail queue)
    (free : full tail = false) (inside : head' < n) (before : (head' + 1) % n = head)
    (holds : Holds head' a) :
    Queued n (Function.update full head' true) Holds head' tail (a :: queue) := by
  rw [queued.full_tail, decide_eq_false_iff_not] at free
  have room := Nat.lt_of_le_of_ne queued.room free
  have slot : ∀ k, (head' + (k + 1)) % n = (head + k) % n := by
    intro k
    rw [← slot_next, before]
  refine ⟨room, inside, ?_, fun k hk => ?_, fun k b member => ?_⟩
  · rw [List.length_cons, slot]
    exact queued.tail
  · cases k with
    | zero =>
      rw [slot_head inside, Function.update_self]
      simp
    | succ k =>
      have other : (head' + (k + 1)) % n ≠ head' := by
        intro same
        have zero : k + 1 = 0 := slot_inj hk (Nat.zero_lt_of_lt hk) (same.trans (slot_head inside).symm)
        cases zero
      rw [Function.update_of_ne other, slot, queued.flags k (Nat.lt_of_succ_lt hk)]
      exact decide_eq_decide.mpr Nat.succ_lt_succ_iff.symm
  · cases k with
    | zero =>
      obtain rfl := Option.some.inj member
      rw [slot_head inside]
      exact holds
    | succ k =>
      rw [slot]
      exact queued.holds k b member

theorem Queued.listed {content : Nat → α}
    (queued : Queued n full (fun i a => content i = a) head tail queue) :
    ((List.range n).filter (fun k => full ((head + k) % n))).map
      (fun k => content ((head + k) % n)) = queue := by
  have flags : (List.range n).filter (fun k => full ((head + k) % n)) =
      List.range queue.length := by
    have same : (List.range n).filter (fun k => full ((head + k) % n)) =
        (List.range n).filter (fun k => k < queue.length) :=
      List.filter_congr (fun k hk => queued.flags k (List.mem_range.mp hk))
    obtain ⟨more, size⟩ := Nat.exists_eq_add_of_le queued.room
    rw [same, size, List.range_add, List.filter_append, List.filter_eq_self.mpr (by simp),
      List.filter_eq_nil_iff.mpr (by simp), List.append_nil]
  rw [flags]
  refine List.ext_getElem? (fun k => ?_)
  rcases Nat.lt_or_ge k queue.length with before | behind
  · rw [List.getElem?_map, List.getElem?_range before, List.getElem?_eq_getElem before]
    exact congrArg some (queued.holds k _ (List.getElem?_eq_getElem before))
  · rw [List.getElem?_eq_none (by simpa using behind), List.getElem?_eq_none behind]

end BoxFirmware.RingQueue
