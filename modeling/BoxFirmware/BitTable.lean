import Mathlib.Data.Fintype.Basic
import Mathlib.Order.Bounds.Basic
import Mathlib.Order.Fin.Basic

/-! Sets of numbers below 64 as eight bytes under a group byte that tells which of
the eight are not zero. Adding and dropping a number touches one byte and keeps the
group byte right, which the structure carries. The least number is found with two
looks into a table of lowest bits. -/
namespace BoxFirmware.BitTable

def bit (b : UInt8) (i : Fin 8) : Bool := b.toBitVec.getLsbD i

def mask (i : Fin 8) : UInt8 := UInt8.ofNat (1 <<< i.val)

theorem bit_mask : ∀ i j : Fin 8, bit (mask i) j = decide (i = j) := by decide

@[simp] theorem bit_or (b : UInt8) (i j : Fin 8) : bit (b ||| mask i) j = (bit b j || decide (i = j)) := by
  rw [← bit_mask]
  simp [bit]

@[simp] theorem bit_clear (b : UInt8) (i j : Fin 8) :
    bit (b &&& ~~~mask i) j = (bit b j && !decide (i = j)) := by
  rw [← bit_mask]
  simp [bit, j.isLt]

theorem bit_ext {a b : UInt8} (same : ∀ i, bit a i = bit b i) : a = b := by
  apply UInt8.toBitVec_inj.mp
  exact BitVec.eq_of_getLsbD_eq (fun i small => same ⟨i, small⟩)

@[simp] theorem bit_zero (i : Fin 8) : bit 0 i = false := by simp [bit]

theorem ne_zero_iff {b : UInt8} : b ≠ 0 ↔ ∃ i, bit b i = true := by
  constructor
  · intro some
    by_contra none
    push Not at none
    exact some (bit_ext (fun i => by simpa using none i))
  · rintro ⟨i, set⟩ rfl
    rw [bit_zero] at set
    cases set

structure Lowest (unmap : UInt8 → Fin 8) : Prop where
  set : ∀ b, b ≠ 0 → bit b (unmap b) = true
  least : ∀ b i, bit b i = true → unmap b ≤ i

def row (p : Fin 64) : Fin 8 := ⟨p / 8, by omega⟩
def col (p : Fin 64) : Fin 8 := ⟨p % 8, by omega⟩
def cell (y x : Fin 8) : Fin 64 := ⟨8 * y + x, by omega⟩

@[simp] theorem row_cell (y x : Fin 8) : row (cell y x) = y := by
  apply Fin.ext
  simp only [row, cell]
  omega

@[simp] theorem col_cell (y x : Fin 8) : col (cell y x) = x := by
  apply Fin.ext
  simp only [col, cell]
  omega

theorem cell_row_col (p : Fin 64) : cell (row p) (col p) = p := by
  apply Fin.ext
  simp only [row, col, cell]
  omega

theorem row_col_inj {p q : Fin 64} : row p = row q ∧ col p = col q ↔ p = q := by
  constructor
  · rintro ⟨rows, cols⟩
    rw [← cell_row_col p, rows, cols, cell_row_col]
  · rintro rfl
    exact ⟨rfl, rfl⟩

@[ext] structure Table where
  grp : UInt8
  tbl : Fin 8 → UInt8
  grouped : ∀ y, bit grp y = true ↔ tbl y ≠ 0

namespace Table

def empty : Table := ⟨0, fun _ => 0, by simp⟩

def has (t : Table) (p : Fin 64) : Bool := bit (t.tbl (row p)) (col p)

def add (t : Table) (p : Fin 64) : Table where
  grp := t.grp ||| mask (row p)
  tbl := Function.update t.tbl (row p) (t.tbl (row p) ||| mask (col p))
  grouped y := by
    by_cases here : row p = y
    · subst here
      rw [Function.update_self, ne_zero_iff, bit_or]
      exact iff_of_true (by simp) ⟨col p, by simp⟩
    · rw [Function.update_of_ne (Ne.symm here), ← t.grouped y, bit_or]
      simp [here]

def drop (t : Table) (p : Fin 64) : Table where
  grp := if t.tbl (row p) &&& ~~~mask (col p) = 0 then t.grp &&& ~~~mask (row p) else t.grp
  tbl := Function.update t.tbl (row p) (t.tbl (row p) &&& ~~~mask (col p))
  grouped y := by
    by_cases here : row p = y
    · subst here
      rw [Function.update_self]
      split_ifs with last
      · simp [last]
      · refine iff_of_true ((t.grouped _).mpr ?_) last
        rintro none
        exact last (by rw [none, UInt8.zero_and])
    · rw [Function.update_of_ne (Ne.symm here), ← t.grouped y]
      split_ifs
      · simp [here]
      · rfl

def lowest (unmap : UInt8 → Fin 8) (t : Table) : Fin 64 :=
  cell (unmap t.grp) (unmap (t.tbl (unmap t.grp)))

@[simp] theorem has_empty (p : Fin 64) : empty.has p = false := bit_zero _

@[simp] theorem has_add (t : Table) (p q : Fin 64) :
    (t.add p).has q = (decide (q = p) || t.has q) := by
  by_cases here : row q = row p
  · have same : col p = col q ↔ q = p := by
      rw [← row_col_inj]
      simp [here, eq_comm]
    simp only [has, add, here, Function.update_self, bit_or, same]
    exact Bool.or_comm _ _
  · have other : q ≠ p := fun same => here (by rw [same])
    simp [has, add, Function.update_of_ne here, other]

@[simp] theorem has_drop (t : Table) (p q : Fin 64) :
    (t.drop p).has q = (!decide (q = p) && t.has q) := by
  by_cases here : row q = row p
  · have same : col p = col q ↔ q = p := by
      rw [← row_col_inj]
      simp [here, eq_comm]
    simp only [has, drop, here, Function.update_self, bit_clear, same]
    exact Bool.and_comm _ _
  · have other : q ≠ p := fun same => here (by rw [same])
    simp [has, drop, Function.update_of_ne here, other]

theorem grp_ne_zero_iff (t : Table) : t.grp ≠ 0 ↔ ∃ p, t.has p = true := by
  rw [ne_zero_iff]
  constructor
  · rintro ⟨y, set⟩
    obtain ⟨x, inside⟩ := ne_zero_iff.mp ((t.grouped y).mp set)
    exact ⟨cell y x, by simpa [has] using inside⟩
  · rintro ⟨p, inside⟩
    exact ⟨row p, (t.grouped _).mpr (ne_zero_iff.mpr ⟨col p, inside⟩)⟩

theorem grp_eq_zero_iff (t : Table) : t.grp = 0 ↔ ∀ p, t.has p = false := by
  rw [← not_iff_not, ← ne_eq, grp_ne_zero_iff]
  simp

variable {unmap : UInt8 → Fin 8} (lowestBit : Lowest unmap)
include lowestBit

theorem lowest_has {t : Table} (some : t.grp ≠ 0) : t.has (t.lowest unmap) = true := by
  have first : t.tbl (unmap t.grp) ≠ 0 := (t.grouped _).mp (lowestBit.set _ some)
  simpa [has, lowest] using lowestBit.set _ first

theorem lowest_le {t : Table} {p : Fin 64} (inside : t.has p = true) : t.lowest unmap ≤ p := by
  have rows : unmap t.grp ≤ row p :=
    lowestBit.least _ _ ((t.grouped _).mpr (ne_zero_iff.mpr ⟨col p, inside⟩))
  rw [← cell_row_col p, Fin.le_def]
  simp only [lowest, cell]
  rcases Fin.lt_or_eq_of_le rows with above | same
  · rw [Fin.lt_def] at above
    omega
  · rw [same]
    have cols := Fin.le_def.mp (lowestBit.least _ _ inside)
    omega

theorem lowest_isLeast {t : Table} (some : t.grp ≠ 0) :
    IsLeast {p | t.has p = true} (t.lowest unmap) :=
  ⟨lowest_has lowestBit some, fun _ inside => lowest_le lowestBit inside⟩

theorem lowest_eq {t : Table} {p : Fin 64} (least : IsLeast {p | t.has p = true} p) :
    t.lowest unmap = p :=
  (lowest_isLeast lowestBit (t.grp_ne_zero_iff.mpr ⟨p, least.1⟩)).unique least

end Table

end BoxFirmware.BitTable
