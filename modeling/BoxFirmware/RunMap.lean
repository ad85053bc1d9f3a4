import Mathlib.Algebra.Group.Nat.Defs
import Mathlib.Data.List.Basic
import Mathlib.Tactic.SplitIfs

/-! Maps that record runs by their length only. A map over `size` entries is
tiled by a list of runs when the runs are disjoint, every entry of a run holds
its length and every other entry is 0. No entry marks where a run starts, so
this is a property of the whole map: two adjacent runs of one length look like
any other stretch of equal entries. -/
namespace BoxFirmware.RunMap

structure Run where
  start : Nat
  len : Nat
deriving DecidableEq, Repr

def Run.Apart (r s : Run) : Prop := r.start + r.len ≤ s.start ∨ s.start + s.len ≤ r.start

theorem Run.Apart.symm {r s : Run} (h : r.Apart s) : s.Apart r := Or.symm h

/-- Set the `len` entries from `start` to `v`. -/
def fill (map : Nat → Nat) (start len v : Nat) : Nat → Nat :=
  fun i => if start ≤ i ∧ i < start + len then v else map i

theorem fill_inside (map : Nat → Nat) (start len v : Nat) {i : Nat} (lower : start ≤ i)
    (upper : i < start + len) : fill map start len v i = v := by
  simp only [fill, lower, upper, and_self, if_true]

theorem fill_outside (map : Nat → Nat) (start len v : Nat) {i : Nat}
    (out : i < start ∨ start + len ≤ i) : fill map start len v i = map i := by
  have h : ¬ (start ≤ i ∧ i < start + len) := by omega
  simp only [fill, h, if_false]

theorem update_fill {map filled : Nat → Nat} {start len v i j : Nat} (last : i + 1 = len)
    (earlier : ∀ k, start ≤ k → k < start + i → filled k = v)
    (rest : j < start ∨ start + len ≤ j → filled j = map j) :
    Function.update filled (start + i) v j = fill map start len v j := by
  by_cases mine : start ≤ j ∧ j < start + len
  · rw [fill_inside _ _ _ _ mine.1 mine.2]
    by_cases final : j = start + i
    · rw [final, Function.update_self]
    · rw [Function.update_of_ne final]
      exact earlier j mine.1 (by omega)
  · rw [fill_outside _ _ _ _ (by omega), Function.update_of_ne (by omega)]
    exact rest (by omega)

theorem fill_fill_zero (map : Nat → Nat) (start len v : Nat)
    (zero : ∀ i, start ≤ i → i < start + len → map i = 0) :
    fill (fill map start len v) start len 0 = map := by
  funext i
  by_cases h : start ≤ i ∧ i < start + len
  · rw [fill_inside _ _ _ _ h.1 h.2, zero i h.1 h.2]
  · rw [fill_outside _ _ _ _ (by omega), fill_outside _ _ _ _ (by omega)]

structure Tiles (size : Nat) (map : Nat → Nat) (runs : List Run) : Prop where
  inside : ∀ r ∈ runs, 0 < r.len ∧ r.start + r.len ≤ size
  apart : runs.Pairwise Run.Apart
  filled : ∀ r ∈ runs, ∀ i, r.start ≤ i → i < r.start + r.len → map i = r.len
  clear : ∀ i < size, (∀ r ∈ runs, i < r.start ∨ r.start + r.len ≤ i) → map i = 0

theorem Tiles.nil (size : Nat) (map : Nat → Nat) (zero : ∀ i < size, map i = 0) :
    Tiles size map [] :=
  ⟨by simp, List.Pairwise.nil, by simp, fun i hi _ => zero i hi⟩

theorem Tiles.apart_of_zero {size : Nat} {map : Nat → Nat} {runs : List Run}
    (t : Tiles size map runs) {a n : Nat} (pos : 0 < n)
    (zero : ∀ i, a ≤ i → i < a + n → map i = 0) :
    ∀ r ∈ runs, Run.Apart ⟨a, n⟩ r := by
  intro r hr
  obtain ⟨len, -⟩ := t.inside r hr
  by_contra meet
  simp only [Run.Apart, not_or, Nat.not_le] at meet
  have inRun := t.filled r hr (max a r.start) (by omega) (by omega)
  have inGap := zero (max a r.start) (by omega) (by omega)
  omega

theorem Tiles.insert {size : Nat} {map : Nat → Nat} {runs : List Run}
    (t : Tiles size map runs) {a n : Nat} (pos : 0 < n) (fit : a + n ≤ size)
    (zero : ∀ i, a ≤ i → i < a + n → map i = 0) :
    Tiles size (fill map a n n) (⟨a, n⟩ :: runs) := by
  have away := t.apart_of_zero pos zero
  refine ⟨?_, List.pairwise_cons.mpr ⟨away, t.apart⟩, ?_, ?_⟩
  · intro r hr
    rcases List.mem_cons.mp hr with rfl | hr
    · exact ⟨pos, fit⟩
    · exact t.inside r hr
  · intro r hr i lower upper
    rcases List.mem_cons.mp hr with rfl | hr
    · exact fill_inside _ _ _ _ lower upper
    · have apart := away r hr
      simp only [Run.Apart] at apart
      rw [fill_outside _ _ _ _ (by omega)]
      exact t.filled r hr i lower upper
  · intro i hi out
    rw [fill_outside _ _ _ _ (out ⟨a, n⟩ (by simp))]
    exact t.clear i hi (fun r hr => out r (by simp [hr]))

theorem Tiles.remove {size : Nat} {map : Nat → Nat} {before after : List Run} {r : Run}
    (t : Tiles size map (before ++ r :: after)) :
    Tiles size (fill map r.start r.len 0) (before ++ after) := by
  have sub : ∀ s ∈ before ++ after, s ∈ before ++ r :: after := by
    intro s hs
    simp only [List.mem_append, List.mem_cons] at hs ⊢
    tauto
  have away : ∀ s ∈ before ++ after, Run.Apart r s := by
    intro s hs
    obtain ⟨-, right, cross⟩ := List.pairwise_append.mp t.apart
    rcases List.mem_append.mp hs with hb | ha
    · exact (cross s hb r (by simp)).symm
    · exact (List.pairwise_cons.mp right).1 s ha
  refine ⟨fun s hs => t.inside s (sub s hs), ?_, ?_, ?_⟩
  · exact t.apart.sublist (List.Sublist.append_left (List.sublist_cons_self r after) before)
  · intro s hs i lower upper
    have apart := away s hs
    simp only [Run.Apart] at apart
    rw [fill_outside _ _ _ _ (by omega)]
    exact t.filled s (sub s hs) i lower upper
  · intro i hi out
    by_cases own : r.start ≤ i ∧ i < r.start + r.len
    · exact fill_inside _ _ _ _ own.1 own.2
    · rw [fill_outside _ _ _ _ (by omega)]
      refine t.clear i hi (fun s hs => ?_)
      simp only [List.mem_append, List.mem_cons] at hs
      rcases hs with hb | rfl | ha
      · exact out s (by simp [hb])
      · omega
      · exact out s (by simp [ha])

/-- The runs determine the map. -/
theorem Tiles.map_eq {size : Nat} {map map' : Nat → Nat} {runs : List Run}
    (t : Tiles size map runs) (t' : Tiles size map' runs) {i : Nat} (hi : i < size) :
    map' i = map i := by
  by_cases out : ∀ r ∈ runs, i < r.start ∨ r.start + r.len ≤ i
  · rw [t.clear i hi out, t'.clear i hi out]
  · simp only [not_forall, not_or, Nat.not_lt, Nat.not_le] at out
    obtain ⟨r, hr, lower, upper⟩ := out
    rw [t.filled r hr i lower upper, t'.filled r hr i lower upper]

theorem Tiles.map_ne {size : Nat} {map map' : Nat → Nat} {runs more : List Run} {r : Run}
    (t : Tiles size map runs) (t' : Tiles size map' (r :: more ++ runs)) :
    r.start < size ∧ map' r.start ≠ map r.start := by
  obtain ⟨pos, fit⟩ := t'.inside r (by simp)
  have filled := t'.filled r (by simp) r.start (Nat.le_refl _) (by omega)
  have clear := t.clear r.start (by omega) (fun s hs => by
    have apart := (List.pairwise_cons.mp t'.apart).1 s (List.mem_append_right more hs)
    have len := (t.inside s hs).1
    simp only [Run.Apart] at apart
    omega)
  constructor
  · omega
  · omega

end BoxFirmware.RunMap
