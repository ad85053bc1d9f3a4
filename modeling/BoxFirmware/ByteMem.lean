import Mathlib.Algebra.Group.Nat.Defs
import Mathlib.Logic.Function.Basic
import Mathlib.Tactic.SplitIfs

/-! Byte memories addressed by naturals, and the cells of a NOR array on them.
A memory is a total function; an array of length `n` is the part below `n`.
Programming only clears bits and wraps inside its page; erasing sets a whole
sector. The two range operations below are the closed forms of byte loops. -/
namespace BoxFirmware.ByteMem

abbrev Mem := Nat → UInt8

theorem forall_uint8 {P : UInt8 → Prop} (all : ∀ n : Fin 256, P (.ofFin n)) (b : UInt8) : P b :=
  all b.toFin

/-- The pointer `p + k`. -/
def shift (p : Mem) (k : Nat) : Mem := fun i => p (k + i)

@[simp] theorem shift_apply (p : Mem) (k i : Nat) : shift p k i = p (k + i) := rfl

@[simp] theorem shift_zero (p : Mem) : shift p 0 = p := by
  funext i
  simp

/-- Copy `n` bytes of `p` to address `a`. -/
def store (m : Mem) (a : Nat) (p : Mem) (n : Nat) : Mem :=
  fun j => if a ≤ j ∧ j < a + n then p (j - a) else m j

theorem store_inside (m : Mem) (a : Nat) (p : Mem) (n : Nat) {i : Nat} (hi : i < n) :
    store m a p n (a + i) = p i := by
  have h : a ≤ a + i ∧ a + i < a + n := by omega
  simp only [store, h, and_self, if_true, Nat.add_sub_cancel_left]

theorem store_outside (m : Mem) (a : Nat) (p : Mem) (n : Nat) {j : Nat}
    (hj : j < a ∨ a + n ≤ j) : store m a p n j = m j := by
  have h : ¬ (a ≤ j ∧ j < a + n) := by omega
  simp only [store, h, if_false]

@[simp] theorem store_zero (m : Mem) (a : Nat) (p : Mem) : store m a p 0 = m := by
  funext j
  exact store_outside m a p 0 (by omega)

theorem store_append (m : Mem) (a : Nat) (p : Mem) (n k : Nat) :
    store (store m a p n) (a + n) (shift p n) k = store m a p (n + k) := by
  funext j
  by_cases low : j < a + n
  · rw [store_outside _ _ _ _ (Or.inl low)]
    simp only [store]
    have h : (a ≤ j ∧ j < a + n) ↔ (a ≤ j ∧ j < a + (n + k)) := by omega
    simp only [h]
  · simp only [store]
    have inner : ¬ (a ≤ j ∧ j < a + n) := by omega
    have outer : (a + n ≤ j ∧ j < a + n + k) ↔ (a ≤ j ∧ j < a + (n + k)) := by omega
    simp only [inner, outer, if_false, shift_apply]
    split_ifs with h
    · congr 1
      omega
    · rfl

theorem store_congr (m : Mem) (a : Nat) (p q : Mem) (n : Nat) (h : ∀ i < n, p i = q i) :
    store m a p n = store m a q n := by
  funext j
  simp only [store]
  split_ifs with inside
  · exact h _ (by omega)
  · rfl

theorem store_frame (m : Mem) (a : Nat) (p : Mem) (n b k : Nat)
    (apart : a + n ≤ b ∨ b + k ≤ a) : ∀ i < k, store m a p n (b + i) = m (b + i) := by
  intro i hi
  exact store_outside m a p n (by omega)

/-- The `n` bytes from `a`. -/
def slice (m : Mem) (a n : Nat) : List UInt8 := (List.range n).map (fun i => m (a + i))

def ofList (l : List UInt8) : Mem := fun i => l.getD i 0

@[simp] theorem ofList_cons_zero (b : UInt8) (l : List UInt8) : ofList (b :: l) 0 = b := rfl

theorem shift_ofList {xs : List UInt8} {k : Nat} (size : xs.length = k) (ys : List UInt8) :
    shift (ofList (xs ++ ys)) k = ofList ys := by
  funext i
  subst size
  simp [ofList, shift, List.getD_eq_getElem?_getD, List.getElem?_append_right]

@[simp] theorem slice_length (m : Mem) (a n : Nat) : (slice m a n).length = n := by simp [slice]

theorem slice_getElem? (m : Mem) (a n i : Nat) (hi : i < n) :
    (slice m a n)[i]? = some (m (a + i)) := by
  simp [slice, List.getElem?_range hi]

theorem slice_congr {m m' : Mem} {a b n : Nat} (h : ∀ i < n, m (a + i) = m' (b + i)) :
    slice m a n = slice m' b n :=
  List.map_congr_left (fun i hi => h i (List.mem_range.mp hi))

theorem slice_add (m : Mem) (a n k : Nat) :
    slice m a (n + k) = slice m a n ++ slice m (a + n) k := by
  simp only [slice, List.range_add, List.map_append, List.map_map]
  congr 1
  exact List.map_congr_left (fun i _ => by simp [Nat.add_assoc])

theorem slice_drop (m : Mem) (a n k : Nat) : (slice m a n).drop k = slice m (a + k) (n - k) := by
  by_cases inside : k ≤ n
  · obtain ⟨r, rfl⟩ := Nat.exists_eq_add_of_le inside
    rw [slice_add, List.drop_left' (slice_length m a k), Nat.add_sub_cancel_left]
  · rw [List.drop_eq_nil_of_le (by rw [slice_length]; omega), Nat.sub_eq_zero_of_le (by omega)]
    rfl

theorem slice_take (m : Mem) (a : Nat) {n k : Nat} (inside : k ≤ n) :
    (slice m a n).take k = slice m a k := by
  obtain ⟨r, rfl⟩ := Nat.exists_eq_add_of_le inside
  rw [slice_add, List.take_left' (slice_length m a k)]

theorem slice_ofList (l : List UInt8) : slice (ofList l) 0 l.length = l := by
  refine List.ext_getElem? (fun i => ?_)
  by_cases hi : i < l.length
  · rw [slice_getElem? _ _ _ _ hi]
    simp [ofList, List.getElem?_eq_getElem hi]
  · rw [List.getElem?_eq_none (by simpa using hi), List.getElem?_eq_none (by simpa using hi)]

theorem slice_update_last (m : Mem) (a n : Nat) (b : UInt8) :
    slice (Function.update m (a + n) b) a (n + 1) = slice m a n ++ [b] := by
  have front : slice (Function.update m (a + n) b) a n = slice m a n :=
    slice_congr (fun i hi => Function.update_of_ne (by omega) _ _)
  have back : slice (Function.update m (a + n) b) (a + n) 1 = [b] := by
    simp [slice]
  rw [slice_add, front, back]

theorem slice_forward (m : Mem) (a : Nat) (bytes : List UInt8) {n : Nat} (more : bytes.length < n) :
    bytes ++ [m (a + bytes.length)] ++ slice m (a + (bytes ++ [m (a + bytes.length)]).length)
        (n - (bytes ++ [m (a + bytes.length)]).length) =
      bytes ++ slice m (a + bytes.length) (n - bytes.length) := by
  have rest : n - bytes.length = 1 + (n - (bytes.length + 1)) := by omega
  have first : slice m (a + bytes.length) 1 = [m (a + bytes.length)] := by simp [slice]
  rw [List.length_append, List.length_singleton, rest, slice_add, first, List.append_assoc,
    Nat.add_assoc]

theorem blocks_apart {size i k j l : Nat} (other : i ≠ k) (hj : j < size) (hl : l < size) :
    i * size + j ≠ k * size + l := by
  intro same
  have before : ∀ {a b c d : Nat}, a < b → c < size → a * size + c < b * size + d := by
    intro a b c d less small
    have next : (a + 1) * size ≤ b * size := Nat.mul_le_mul_right size less
    rw [Nat.succ_mul] at next
    omega
  rcases Nat.lt_or_gt_of_ne other with less | more
  · exact absurd same (Nat.ne_of_lt (before less hj))
  · exact absurd same (Nat.ne_of_gt (before more hl))

theorem slice_block_apart (m : Mem) {size i k l n : Nat} (other : i ≠ k) (room : n ≤ size)
    (inside : l < size) (b : UInt8) :
    slice (Function.update m (k * size + l) b) (i * size) n = slice m (i * size) n :=
  slice_congr (fun _ hj =>
    Function.update_of_ne (blocks_apart other (Nat.lt_of_lt_of_le hj room) inside) _ _)

theorem slice_store (m : Mem) (a : Nat) (p : Mem) (n : Nat) :
    slice (store m a p n) a n = slice p 0 n :=
  slice_congr (fun i hi => by rw [store_inside m a p n hi, Nat.zero_add])

theorem slice_store_apart (m : Mem) (a : Nat) (p : Mem) (n b k : Nat)
    (apart : a + n ≤ b ∨ b + k ≤ a) : slice (store m a p n) b k = slice m b k :=
  slice_congr (store_frame m a p n b k apart)

theorem store_slice (m : Mem) (a : Nat) (p : Mem) (n : Nat) :
    store m a (ofList (slice p 0 n)) n = store m a p n :=
  store_congr m a _ _ n (fun i hi => by simp [ofList, slice_getElem? p 0 n i hi])

theorem take_prefix_slice (m : Mem) (l : List UInt8) (n : Nat) :
    l.take n <+: slice (store m 0 (ofList l) l.length) 0 n := by
  by_cases short : l.length ≤ n
  · obtain ⟨k, rfl⟩ := Nat.exists_eq_add_of_le short
    rw [List.take_of_length_le short, slice_add, slice_store, slice_ofList]
    exact List.prefix_append _ _
  · obtain ⟨k, long⟩ := Nat.exists_eq_add_of_le (Nat.le_of_not_le short)
    have whole : slice (store m 0 (ofList l) l.length) 0 l.length = l := by
      rw [slice_store, slice_ofList]
    rw [long, slice_add] at whole
    rw [long]
    refine ⟨[], ?_⟩
    rw [List.append_nil]
    exact (congrArg (List.take n) whole).symm.trans (by simp)

/-- Clear, in the `n` cells from `a`, the bits that `p` has at 0. -/
def andRange (m : Mem) (a : Nat) (p : Mem) (n : Nat) : Mem :=
  fun j => if a ≤ j ∧ j < a + n then m j &&& p (j - a) else m j

@[simp] theorem andRange_zero (m : Mem) (a : Nat) (p : Mem) : andRange m a p 0 = m := by
  funext j
  have h : ¬ (a ≤ j ∧ j < a + 0) := by omega
  simp only [andRange, h, if_false]

theorem andRange_append (m : Mem) (a : Nat) (p : Mem) (n k : Nat) :
    andRange (andRange m a p n) (a + n) (shift p n) k = andRange m a p (n + k) := by
  funext j
  by_cases low : j < a + n
  · have hi : ¬ (a + n ≤ j ∧ j < a + n + k) := by omega
    have h : (a ≤ j ∧ j < a + n) ↔ (a ≤ j ∧ j < a + (n + k)) := by omega
    simp only [andRange, hi, if_false, h]
  · have inner : ¬ (a ≤ j ∧ j < a + n) := by omega
    have outer : (a + n ≤ j ∧ j < a + n + k) ↔ (a ≤ j ∧ j < a + (n + k)) := by omega
    simp only [andRange, inner, outer, if_false, shift_apply]
    split_ifs with h
    · congr 2
      omega
    · rfl

theorem allOnes_and (b : UInt8) : 0xFF &&& b = b := UInt8.neg_one_and

theorem andRange_erased (m : Mem) (a : Nat) (p : Mem) (n : Nat)
    (erased : ∀ i < n, m (a + i) = 0xFF) : andRange m a p n = store m a p n := by
  funext j
  simp only [andRange, store]
  split_ifs with h
  · have cell := erased (j - a) (by omega)
    rw [Nat.add_sub_cancel' h.1] at cell
    rw [cell, allOnes_and]
  · rfl

/-- The address after `a`, wrapping at the end of its page. -/
def nextInPage (page a : Nat) : Nat := a / page * page + (a + 1) % page

theorem nextInPage_inside {page a : Nat} (h : a % page + 1 < page) :
    nextInPage page a = a + 1 := by
  have split := Nat.div_add_mod a page
  have rest : (a + 1) % page = a % page + 1 := by
    rw [Nat.add_mod, Nat.mod_eq_of_lt (show 1 < page by omega), Nat.mod_eq_of_lt h]
  rw [nextInPage, rest, Nat.mul_comm]
  omega

def program (page : Nat) : (n : Nat) → Mem → Nat → Mem → Mem
  | 0, m, _, _ => m
  | n + 1, m, a, p =>
    program page n (Function.update m a (m a &&& p 0)) (nextInPage page a) (shift p 1)

theorem andRange_one (m : Mem) (a : Nat) (p : Mem) :
    Function.update m a (m a &&& p 0) = andRange m a p 1 := by
  funext j
  by_cases h : j = a
  · subst h
    simp [andRange]
  · have out : ¬ (a ≤ j ∧ j < a + 1) := by omega
    simp only [Function.update_of_ne h, andRange, out, if_false]

/-- A program that fits the rest of its page never wraps. -/
theorem program_eq_andRange (page n : Nat) (m : Mem) (a : Nat) (p : Mem)
    (fit : a % page + n ≤ page) : program page n m a p = andRange m a p n := by
  induction n generalizing m a p with
  | zero => simp [program]
  | succ n ih =>
    cases n with
    | zero => simp only [program, andRange_one]
    | succ n =>
      have next : nextInPage page a = a + 1 := nextInPage_inside (by omega)
      have rest : (a + 1) % page = a % page + 1 := by
        rw [Nat.add_mod, Nat.mod_eq_of_lt (show 1 < page by omega),
          Nat.mod_eq_of_lt (show a % page + 1 < page by omega)]
      rw [program, andRange_one, next, ih _ _ _ (by omega), andRange_append,
        Nat.add_comm 1 (n + 1)]

def eraseSector (sector : Nat) (m : Mem) (k : Nat) : Mem :=
  fun j => if j / sector = k then 0xFF else m j

end BoxFirmware.ByteMem
