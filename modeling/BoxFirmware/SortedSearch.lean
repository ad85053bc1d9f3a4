import Mathlib.Order.Defs.PartialOrder

/-! Searches that narrow a window of a sorted list. As long as every entry with the
key stands in the window, a look at one entry of it tells which part is left, and
an empty window shows that no entry has the key. -/
namespace BoxFirmware.SortedSearch

variable {α κ : Type} {keyOf : α → κ} {table : List α} {key : κ} {first last : Int}

/-- Every entry with the key stands between `first` and `last`. -/
def Between (keyOf : α → κ) (table : List α) (key : κ) (first last : Int) : Prop :=
  ∀ k (h : k < table.length), keyOf table[k] = key → first ≤ k ∧ k ≤ last

theorem between_all : Between keyOf table key 0 (table.length - 1) := by
  intro k h _
  omega

theorem Between.none (between : Between keyOf table key first last) (empty : last < first) :
    ∀ a ∈ table, keyOf a ≠ key := by
  intro a member same
  obtain ⟨k, h, rfl⟩ := List.mem_iff_getElem.mp member
  have inside := between k h same
  omega

variable [Preorder κ]

def Sorted (keyOf : α → κ) (table : List α) : Prop :=
  table.Pairwise (fun a b => keyOf a ≤ keyOf b)

theorem Sorted.le (sorted : Sorted keyOf table) {k m : Nat} (h : m < table.length) (le : k ≤ m) :
    keyOf table[k] ≤ keyOf table[m] := by
  rcases Nat.lt_or_eq_of_le le with less | same
  · exact List.pairwise_iff_getElem.mp sorted k m (by omega) h less
  · subst same
    exact le_refl _

theorem Between.below (between : Between keyOf table key first last)
    (sorted : Sorted keyOf table) {m : Nat} (hm : m < table.length)
    (high : key < keyOf table[m]) : Between keyOf table key first (m - 1) := by
  intro k h same
  have inside := between k h same
  rcases Nat.lt_or_ge k m with less | notLess
  · omega
  · have order := sorted.le h notLess
    rw [same] at order
    exact absurd high (not_lt_of_ge order)

theorem Between.above (between : Between keyOf table key first last)
    (sorted : Sorted keyOf table) {m : Nat} (hm : m < table.length)
    (low : keyOf table[m] < key) : Between keyOf table key (m + 1) last := by
  intro k h same
  have inside := between k h same
  rcases Nat.lt_or_ge m k with more | notMore
  · omega
  · have order := sorted.le hm notMore
    rw [same] at order
    exact absurd low (not_lt_of_ge order)

end BoxFirmware.SortedSearch
