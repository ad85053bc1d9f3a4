import Mathlib.Algebra.Group.Nat.Defs
import Mathlib.Data.List.Basic

/-! C strings. A string is the bytes before the first zero of the memory it is
read from; `strstr` and `%s` never see anything behind that zero. -/
namespace BoxFirmware.CText

def ascii (s : String) : List UInt8 := s.toList.map (fun c => c.toNat.toUInt8)

def cstr : List UInt8 → List UInt8
  | [] => []
  | b :: mem => if b = 0 then [] else b :: cstr mem

theorem cstr_length_le (mem : List UInt8) : (cstr mem).length ≤ mem.length := by
  induction mem with
  | nil => simp [cstr]
  | cons b mem ih =>
    simp only [cstr]
    split
    · simp
    · simpa using ih

theorem cstr_append_zero (s rest : List UInt8) (text : ∀ b ∈ s, b ≠ 0) :
    cstr (s ++ 0 :: rest) = s := by
  induction s with
  | nil => rfl
  | cons b s ih =>
    have head := text b (by simp)
    simp [cstr, head, ih (fun c hc => text c (by simp [hc]))]

theorem zero_not_mem_cstr (mem : List UInt8) : 0 ∉ cstr mem := by
  induction mem with
  | nil => simp [cstr]
  | cons b mem ih =>
    simp only [cstr]
    split
    · simp
    · rename_i head
      simp [Ne.symm head, ih]

theorem cstr_split {mem : List UInt8} (zero : 0 ∈ mem) : ∃ rest, mem = cstr mem ++ 0 :: rest := by
  induction mem with
  | nil => simp at zero
  | cons b mem ih =>
    by_cases head : b = 0
    · exact ⟨mem, by simp [cstr, head]⟩
    · obtain ⟨rest, split⟩ := ih (by simpa [Ne.symm head] using zero)
      refine ⟨rest, ?_⟩
      rw [cstr, if_neg head, List.cons_append, ← split]

/-- Bytes behind a zero are never read. -/
theorem cstr_append_of_mem (s rest : List UInt8) (zero : (0 : UInt8) ∈ s) :
    cstr (s ++ rest) = cstr s := by
  induction s with
  | nil => simp at zero
  | cons b s ih =>
    by_cases head : b = 0
    · simp [cstr, head]
    · simp [cstr, head, ih (by simpa [Ne.symm head] using zero)]

theorem cstr_append {s : List UInt8} (rest : List UInt8) (text : 0 ∉ s) :
    cstr (s ++ rest) = s ++ cstr rest := by
  induction s with
  | nil => rfl
  | cons b s ih =>
    rw [List.mem_cons, not_or] at text
    rw [List.cons_append, cstr, if_neg (Ne.symm text.1), ih text.2, List.cons_append]

theorem cstr_clean {s : List UInt8} (text : 0 ∉ s) : cstr s = s := by
  have whole := cstr_append [] text
  rwa [cstr, List.append_nil] at whole

theorem cstr_front (s : List UInt8) : cstr s <+: s := by
  by_cases zero : 0 ∈ s
  · obtain ⟨rest, split⟩ := cstr_split zero
    exact ⟨0 :: rest, split.symm⟩
  · simp [cstr_clean zero]

theorem cstr_eq_nil {s : List UInt8} : cstr s = [] ↔ s = [] ∨ s.head? = some 0 := by
  cases s with
  | nil => simp [cstr]
  | cons b s =>
    by_cases head : b = 0 <;> simp [cstr, head]

theorem cstr_zero (s rest : List UInt8) : cstr (s ++ 0 :: rest) = cstr s := by
  induction s with
  | nil => rfl
  | cons b s ih => simp [cstr, ih]

/-- `strstr(s, pattern) != NULL` on the bytes of two strings. -/
def strstr (s pattern : List UInt8) : Bool :=
  match s with
  | [] => pattern.isPrefixOf []
  | b :: rest => pattern.isPrefixOf (b :: rest) || strstr rest pattern

def digitChar (d : Nat) : UInt8 := UInt8.ofNat (48 + d)

/-- Decimal digits of `n`, for numbers of at most `fuel` digits. -/
def digits : (fuel : Nat) → Nat → List UInt8
  | 0, _ => []
  | fuel + 1, n => if n < 10 then [digitChar n] else digits fuel (n / 10) ++ [digitChar (n % 10)]

/-- `%d` of a 32-bit word: its bits read as an `int`. -/
def formatInt (w : Nat) : List UInt8 :=
  if w < 2^31 then digits 10 w else ascii "-" ++ digits 10 (2^32 - w)

theorem digits_length_le (fuel n : Nat) : (digits fuel n).length ≤ fuel := by
  induction fuel generalizing n with
  | zero => simp [digits]
  | succ fuel ih =>
    simp only [digits]
    split
    · simp
    · have := ih (n / 10)
      simp only [List.length_append, List.length_singleton]
      omega

theorem formatInt_length_le (w : Nat) : (formatInt w).length ≤ 11 := by
  have short := digits_length_le 10
  simp only [formatInt]
  split
  · have := short w
    omega
  · have := short (2^32 - w)
    simp only [List.length_append]
    have sign : (ascii "-").length = 1 := by decide
    omega

theorem zero_not_mem_digits (fuel n : Nat) : 0 ∉ digits fuel n := by
  have char : ∀ d < 10, digitChar d ≠ 0 := by decide
  induction fuel generalizing n with
  | zero => simp [digits]
  | succ fuel ih =>
    simp only [digits]
    split
    · rename_i small
      simpa using Ne.symm (char n small)
    · simpa using ⟨ih (n / 10), Ne.symm (char (n % 10) (Nat.mod_lt n (by decide)))⟩

theorem zero_not_mem_formatInt (w : Nat) : 0 ∉ formatInt w := by
  have sign : 0 ∉ ascii "-" := by decide
  simp only [formatInt]
  split
  · exact zero_not_mem_digits 10 w
  · simpa using ⟨sign, zero_not_mem_digits 10 (2^32 - w)⟩

def isSpace (b : UInt8) : Bool := b = 32 || (9 ≤ b && b ≤ 13)

/-- The number of the digits at the head, behind those that gave `n`. -/
def digitRun (n : Nat) : List UInt8 → Nat
  | [] => n
  | b :: bytes => if 48 ≤ b ∧ b ≤ 57 then digitRun (10 * n + (b.toNat - 48)) bytes else n

/-- `atoi`; where the number is no `int`, C leaves the result undefined. -/
def atoi (bytes : List UInt8) : Int :=
  match bytes.dropWhile isSpace with
  | [] => 0
  | b :: rest =>
    if b = 45 then -(digitRun 0 rest : Int)
    else if b = 43 then digitRun 0 rest
    else digitRun 0 (b :: rest)

end BoxFirmware.CText
