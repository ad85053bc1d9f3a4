import Mathlib.Data.List.Basic
import Mathlib.Data.List.Chain

/-! Rows of tiles: intervals of naturals, used or free, each starting where the one before it
stops. Where no two free tiles lie side by side, a place that no used tile touches lies in a
free tile. -/
namespace BoxFirmware.Tiling

structure Tile where
  start : Nat
  stop : Nat
  used : Bool

def Fills : Nat → List Tile → Nat → Prop
  | a, [], b => a = b
  | a, t :: ts, b => t.start = a ∧ a < t.stop ∧ Fills t.stop ts b

def Separated (ts : List Tile) : Prop := ts.IsChain (fun t u => t.used = true ∨ u.used = true)

variable {a b c : Nat} {t u : Tile} {ts us front back : List Tile}

@[simp] theorem fills_nil : Fills a [] b ↔ a = b := Iff.rfl

theorem fills_cons : Fills a (t :: ts) b ↔ t.start = a ∧ a < t.stop ∧ Fills t.stop ts b := Iff.rfl

theorem fills_append : Fills a (front ++ back) c ↔ ∃ b, Fills a front b ∧ Fills b back c := by
  induction front generalizing a with
  | nil => simp
  | cons t front ih =>
    rw [List.cons_append, fills_cons, ih]
    constructor
    · rintro ⟨start, positive, b, left, right⟩
      exact ⟨b, ⟨start, positive, left⟩, right⟩
    · rintro ⟨b, ⟨start, positive, left⟩, right⟩
      exact ⟨start, positive, b, left, right⟩

theorem Fills.le (fills : Fills a ts b) : a ≤ b := by
  induction ts generalizing a with
  | nil => exact Nat.le_of_eq fills
  | cons t ts ih =>
    obtain ⟨-, positive, rest⟩ := fills
    exact Nat.le_trans (Nat.le_of_lt positive) (ih rest)

theorem Fills.length_le (fills : Fills a ts b) : a + ts.length ≤ b := by
  induction ts generalizing a with
  | nil => exact Nat.le_of_eq fills
  | cons t ts ih =>
    obtain ⟨-, positive, rest⟩ := fills
    have count := ih rest
    rw [List.length_cons]
    omega

theorem Fills.end_unique (fills : Fills a ts b) (fills' : Fills a ts c) : b = c := by
  induction ts generalizing a with
  | nil => exact (Eq.symm fills).trans fills'
  | cons t ts ih => exact ih fills.2.2 fills'.2.2

theorem Fills.inside (fills : Fills a ts b) (member : t ∈ ts) :
    a ≤ t.start ∧ t.start < t.stop ∧ t.stop ≤ b := by
  induction ts generalizing a with
  | nil => cases member
  | cons u ts ih =>
    obtain ⟨start, positive, rest⟩ := fills
    rcases List.mem_cons.mp member with rfl | later
    · exact ⟨Nat.le_of_eq start.symm, by omega, rest.le⟩
    · have here := ih rest later
      omega

theorem Fills.apart (fills : Fills a ts b) (first : t ∈ ts) (second : u ∈ ts) :
    t = u ∨ t.stop ≤ u.start ∨ u.stop ≤ t.start := by
  induction ts generalizing a with
  | nil => cases first
  | cons v ts ih =>
    obtain ⟨start, positive, rest⟩ := fills
    rcases List.mem_cons.mp first with rfl | first'
    · rcases List.mem_cons.mp second with rfl | second'
      · exact Or.inl rfl
      · exact Or.inr (Or.inl (rest.inside second').1)
    · rcases List.mem_cons.mp second with rfl | second'
      · exact Or.inr (Or.inr (rest.inside first').1)
      · exact ih rest first' second'

theorem Fills.covers (fills : Fills a ts b) {x : Nat} (low : a ≤ x) (high : x < b) :
    ∃ t ∈ ts, t.start ≤ x ∧ x < t.stop := by
  induction ts generalizing a with
  | nil =>
    rw [fills_nil] at fills
    omega
  | cons t ts ih =>
    obtain ⟨start, positive, rest⟩ := fills
    by_cases here : x < t.stop
    · exact ⟨t, List.mem_cons_self, by omega, here⟩
    · obtain ⟨u, member, inside⟩ := ih rest (Nat.le_of_not_lt here)
      exact ⟨u, List.mem_cons_of_mem t member, inside⟩

theorem Fills.next_used (fills : Fills a ts b) (separated : Separated ts) (member : t ∈ ts)
    (free : t.used = false) (more : t.stop < b) : ∃ u ∈ ts, u.used = true ∧ u.start = t.stop := by
  induction ts generalizing a with
  | nil => cases member
  | cons v ts ih =>
    obtain ⟨start, positive, rest⟩ := fills
    have tail : Separated ts := List.IsChain.tail separated
    rcases List.mem_cons.mp member with rfl | later
    · cases ts with
      | nil =>
        rw [fills_nil] at rest
        omega
      | cons u ts =>
        have side := (List.isChain_cons_cons.mp separated).1
        exact ⟨u, by simp, side.resolve_left (by simp [free]), rest.1⟩
    · obtain ⟨u, next, used, place⟩ := ih rest tail later
      exact ⟨u, List.mem_cons_of_mem v next, used, place⟩

theorem separated_parts (separated : Separated (front ++ t :: back)) :
    Separated front ∧ Separated back := by
  obtain ⟨left, right, -⟩ := List.isChain_append.mp separated
  exact ⟨left, List.IsChain.tail right⟩

theorem separated_concat (separated : Separated (front ++ [t])) (free : t.used = false) :
    ∀ u ∈ front.getLast?, u.used = true := by
  obtain ⟨-, -, side⟩ := List.isChain_append.mp separated
  exact fun u last => (side u last t rfl).resolve_right (by simp [free])

theorem separated_head (separated : Separated (t :: back)) (free : t.used = false) :
    ∀ u ∈ back.head?, u.used = true := by
  cases back with
  | nil => simp
  | cons v back =>
    intro u first
    obtain rfl : v = u := by simpa using first
    exact ((List.isChain_cons_cons.mp separated).1).resolve_left (by simp [free])

theorem separated_cons (right : Separated back) (next : ∀ u ∈ back.head?, u.used = true) :
    Separated (t :: back) := by
  cases back with
  | nil => exact List.isChain_singleton t
  | cons v back => exact List.isChain_cons_cons.mpr ⟨Or.inr (next v rfl), right⟩

theorem separated_mid (left : Separated front) (right : Separated back)
    (side : t.used = true ∨
      (∀ u ∈ front.getLast?, u.used = true) ∧ ∀ u ∈ back.head?, u.used = true) :
    Separated (front ++ t :: back) := by
  refine List.isChain_append.mpr ⟨left, ?_, fun u last v first => ?_⟩
  · cases back with
    | nil => exact List.isChain_singleton t
    | cons v back =>
      refine List.isChain_cons_cons.mpr ⟨?_, right⟩
      exact side.imp id (fun both => both.2 v rfl)
  · obtain rfl : t = v := by simpa using first
    exact (side.imp id (fun both => both.1 u last)).symm

theorem Fills.free_place (fills : Fills a ts b) (separated : Separated ts) {x y : Nat}
    (low : a ≤ x) (some : x < y) (high : y ≤ b)
    (clear : ∀ t ∈ ts, t.used = true → t.stop ≤ x ∨ y ≤ t.start) :
    ∃ t ∈ ts, t.used = false ∧ t.start ≤ x ∧ y ≤ t.stop := by
  obtain ⟨t, member, below, above⟩ := fills.covers low (Nat.lt_of_lt_of_le some high)
  have free : t.used = false := by
    by_contra used
    have touched := clear t member (by simpa using used)
    omega
  refine ⟨t, member, free, below, ?_⟩
  by_contra long
  obtain ⟨u, next, used, place⟩ := fills.next_used separated member free (by omega)
  have behind := (fills.inside next).2.1
  have touched := clear u next used
  omega

end BoxFirmware.Tiling
