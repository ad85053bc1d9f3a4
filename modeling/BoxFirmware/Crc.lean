import Mathlib.Algebra.Field.ZMod
import Mathlib.RingTheory.AdjoinRoot

/-! Cyclic redundancy checks over the field of two elements. Bits are the coefficients of a
polynomial, the first sent highest. A register of `w` bits takes in a word and is shifted `w`
times; what it then holds is a remainder by the generator, and so a frame with its check word
behind it is a multiple of the generator up to the initial value. -/
namespace BoxFirmware.Crc
open Polynomial

def bit : Bool → ZMod 2
  | true => 1
  | false => 0

theorem bit_xor (a b : Bool) : bit (a ^^ b) = bit a + bit b := by
  cases a <;> cases b <;> rfl

@[simp] theorem bit_eq_zero (b : Bool) : bit b = 0 ↔ b = false := by
  cases b <;> simp [bit]

section Stream

variable {bits bits' : Nat → Bool}

/-- The polynomial of the first `m` bits. -/
noncomputable def stream (bits : Nat → Bool) : Nat → (ZMod 2)[X]
  | 0 => 0
  | m + 1 => stream bits m * X + C (bit (bits m))

theorem coeff_stream (bits : Nat → Bool) (m k : Nat) :
    (stream bits m).coeff k = if k < m then bit (bits (m - 1 - k)) else 0 := by
  induction m generalizing k with
  | zero => simp [stream]
  | succ m ih =>
    cases k with
    | zero => simp [stream]
    | succ k =>
      have shifted : m - (k + 1) = m - 1 - k := by omega
      simp [stream, coeff_C_succ, ih, shifted]

theorem degree_stream (bits : Nat → Bool) (m : Nat) : (stream bits m).degree < m := by
  rw [degree_lt_iff_coeff_zero]
  intro k high
  rw [coeff_stream, if_neg (Nat.not_lt.mpr high)]

theorem stream_congr {m : Nat} (same : ∀ i < m, bits i = bits' i) :
    stream bits m = stream bits' m := by
  ext k
  rw [coeff_stream, coeff_stream]
  split_ifs with low
  · rw [same _ (by omega)]
  · rfl

theorem stream_xor (bits bits' : Nat → Bool) (m : Nat) :
    stream (fun i => bits i ^^ bits' i) m = stream bits m + stream bits' m := by
  induction m with
  | zero => simp [stream]
  | succ m ih =>
    simp only [stream, ih, bit_xor, C_add]
    ring

theorem stream_add (bits : Nat → Bool) (m n : Nat) :
    stream bits (m + n) = stream bits m * X ^ n + stream (fun i => bits (m + i)) n := by
  induction n with
  | zero => simp [stream]
  | succ n ih =>
    rw [← Nat.add_assoc, stream, ih, stream]
    ring

theorem stream_eq_zero {m : Nat} : stream bits m = 0 ↔ ∀ i < m, bits i = false := by
  constructor
  · intro zero i low
    have coeff := coeff_stream bits m (m - 1 - i)
    have back : m - 1 - (m - 1 - i) = i := by omega
    rw [zero, if_pos (by omega), back, coeff_zero] at coeff
    exact (bit_eq_zero _).mp coeff.symm
  · intro clear
    ext k
    rw [coeff_stream, coeff_zero]
    split_ifs with low
    · rw [clear _ (by omega), bit]
    · rfl

end Stream

section Word

variable {w : Nat}

noncomputable def ofWord (c : BitVec w) : (ZMod 2)[X] := stream c.getMsbD w

theorem ofWord_xor (b c : BitVec w) : ofWord (b ^^^ c) = ofWord b + ofWord c := by
  rw [ofWord, ofWord, ofWord, ← stream_xor]
  exact stream_congr fun i _ => BitVec.getMsbD_xor

theorem ofWord_inj {b c : BitVec w} : ofWord b = ofWord c ↔ b = c := by
  constructor
  · intro same
    have zero : ofWord (b ^^^ c) = 0 := by rw [ofWord_xor, same, CharTwo.add_self_eq_zero]
    apply BitVec.eq_of_getMsbD_eq
    intro i low
    have clear := stream_eq_zero.mp zero i low
    simpa using clear
  · exact congrArg ofWord

theorem ofWord_mul_X (c : BitVec w) :
    ofWord c * X = C (bit c.msb) * X ^ w + ofWord (c <<< 1) := by
  have last := stream_add c.getMsbD w 1
  have first := stream_add c.getMsbD 1 w
  have behind : stream (fun i => c.getMsbD (w + i)) 1 = 0 := by
    rw [stream_eq_zero]
    intro i _
    exact BitVec.getMsbD_of_ge c _ (Nat.le_add_right w i)
  have shifted : stream (fun i => c.getMsbD (1 + i)) w = ofWord (c <<< 1) := by
    apply stream_congr
    intro i _
    rw [BitVec.getMsbD_shiftLeft, Nat.add_comm]
  have top : stream c.getMsbD 1 = C (bit c.msb) := by simp [stream, BitVec.msb]
  rw [behind, add_zero, pow_one, Nat.add_comm, first, shifted, top] at last
  exact last.symm

end Word

section Register

variable {w : Nat}

/-- `X ^ w` and the lower terms `poly`. -/
noncomputable def generator (poly : BitVec w) : (ZMod 2)[X] := X ^ w + ofWord poly

theorem generator_monic (poly : BitVec w) : (generator poly).Monic :=
  monic_X_pow_add (degree_stream _ _)

theorem generator_degree (poly : BitVec w) : (generator poly).degree = w := by
  rw [generator, degree_add_eq_left_of_degree_lt, degree_X_pow]
  rw [degree_X_pow]
  exact degree_stream _ _

def shiftStep (poly c : BitVec w) : BitVec w :=
  if c.msb then (c <<< 1) ^^^ poly else c <<< 1

def feed (poly c b : BitVec w) : BitVec w := (shiftStep poly)^[w] (c ^^^ b)

def register (poly init : BitVec w) (word : Nat → BitVec w) : Nat → BitVec w
  | 0 => init
  | n + 1 => feed poly (register poly init word n) (word n)

def bitsOf (word : Nat → BitVec w) (p : Nat) : Bool := (word (p / w)).getMsbD (p % w)

theorem bitsOf_word (word : Nat → BitVec w) (n : Nat) {i : Nat} (low : i < w) :
    bitsOf word (w * n + i) = (word n).getMsbD i := by
  have room : 0 < w := Nat.zero_lt_of_lt low
  rw [bitsOf, Nat.mul_add_div room, Nat.mul_add_mod, Nat.div_eq_of_lt low, Nat.mod_eq_of_lt low,
    Nat.add_zero]

theorem stream_bitsOf (word : Nat → BitVec w) (n : Nat) :
    stream (bitsOf word) (w * (n + 1)) =
      stream (bitsOf word) (w * n) * X ^ w + ofWord (word n) := by
  rw [Nat.mul_succ, stream_add, ofWord, stream_congr fun i low => bitsOf_word word n low]

section Residue

variable (poly : BitVec w)

noncomputable def residue (c : BitVec w) : AdjoinRoot (generator poly) :=
  AdjoinRoot.mk (generator poly) (ofWord c)

theorem residue_xor (b c : BitVec w) : residue poly (b ^^^ c) = residue poly b + residue poly c := by
  rw [residue, ofWord_xor, map_add]
  rfl

theorem residue_shiftStep (c : BitVec w) :
    residue poly (shiftStep poly c) = residue poly c * AdjoinRoot.root (generator poly) := by
  have shifted : residue poly c * AdjoinRoot.root (generator poly) =
      AdjoinRoot.mk (generator poly) (C (bit c.msb) * X ^ w + ofWord (c <<< 1)) := by
    rw [← ofWord_mul_X, map_mul, AdjoinRoot.mk_X]
    rfl
  rw [shifted, shiftStep]
  cases top : c.msb with
  | false => simp [residue, bit]
  | true =>
    rw [if_pos rfl, residue, AdjoinRoot.mk_eq_mk, ofWord_xor]
    have split : ofWord (c <<< 1) + ofWord poly - (C (bit true) * X ^ w + ofWord (c <<< 1)) =
        generator poly - C 2 * X ^ w := by
      simp only [bit, C_1, generator, C_ofNat]
      ring
    have even : (2 : ZMod 2) = 0 := rfl
    rw [split, even, C_0, zero_mul, sub_zero]

theorem residue_feed (c b : BitVec w) :
    residue poly (feed poly c b) =
      (residue poly c + residue poly b) * AdjoinRoot.root (generator poly) ^ w := by
  have shifts (n : Nat) (c : BitVec w) : residue poly ((shiftStep poly)^[n] c) =
      residue poly c * AdjoinRoot.root (generator poly) ^ n := by
    induction n generalizing c with
    | zero => simp
    | succ n ih => rw [Function.iterate_succ_apply, ih, residue_shiftStep, pow_succ', mul_assoc]
  rw [feed, shifts, residue_xor]

theorem residue_register (init : BitVec w) (word : Nat → BitVec w) (n : Nat) :
    residue poly (register poly init word n) = AdjoinRoot.mk (generator poly)
      (ofWord init * X ^ (w * n) + stream (bitsOf word) (w * n) * X ^ w) := by
  induction n with
  | zero => simp [register, residue, stream]
  | succ n ih =>
    rw [register, residue_feed, ih, residue, ← map_add, ← AdjoinRoot.mk_X, ← map_pow, ← map_mul,
      stream_bitsOf]
    congr 1
    ring

end Residue

/-- The register holds the remainder of the message, sent with room for the check word behind
it and the initial value before it. -/
theorem register_eq_mod (poly init : BitVec w) (word : Nat → BitVec w) (n : Nat) :
    ofWord (register poly init word n) =
      (ofWord init * X ^ (w * n) + stream (bitsOf word) (w * n) * X ^ w) %ₘ generator poly := by
  have small : (ofWord (register poly init word n)).degree < (generator poly).degree := by
    rw [generator_degree]
    exact degree_stream _ _
  rw [← (modByMonic_eq_self_iff (generator_monic poly)).mpr small]
  exact modByMonic_eq_of_dvd_sub (generator_monic poly)
    (AdjoinRoot.mk_eq_mk.mp (residue_register poly init word n))

def frame (word : Nat → BitVec w) (n : Nat) (check : BitVec w) (i : Nat) : BitVec w :=
  if i < n then word i else check

theorem stream_frame (word : Nat → BitVec w) (n : Nat) (check : BitVec w) :
    stream (bitsOf (frame word n check)) (w * (n + 1)) =
      stream (bitsOf word) (w * n) * X ^ w + ofWord check := by
  have last : frame word n check n = check := if_neg (Nat.lt_irrefl n)
  have message : stream (bitsOf (frame word n check)) (w * n) = stream (bitsOf word) (w * n) := by
    apply stream_congr
    intro p low
    have inside : p / w < n := Nat.div_lt_of_lt_mul low
    rw [bitsOf, frame, if_pos inside, bitsOf]
  rw [stream_bitsOf, last, message]

theorem register_frame (poly init check : BitVec w) (word : Nat → BitVec w) (n : Nat) :
    register poly init word n = check ↔ generator poly ∣
      ofWord init * X ^ (w * n) + stream (bitsOf (frame word n check)) (w * (n + 1)) := by
  have small : (ofWord check).degree < (generator poly).degree := by
    rw [generator_degree]
    exact degree_stream _ _
  rw [← ofWord_inj, register_eq_mod, stream_frame, ← add_assoc,
    ← modByMonic_eq_zero_iff_dvd (generator_monic poly), add_modByMonic _ (ofWord check),
    (modByMonic_eq_self_iff (generator_monic poly)).mpr small, CharTwo.add_eq_zero]

end Register

section Burst

theorem not_dvd_burst {K : Type} [Field K] {P E : K[X]} (odd : P.coeff 0 ≠ 0) (nonzero : E ≠ 0)
    {a : Nat} (low : ∀ k < a, E.coeff k = 0) (high : ∀ k, a + P.natDegree ≤ k → E.coeff k = 0) :
    ¬ P ∣ E := by
  intro divides
  obtain ⟨Q, burst⟩ := X_pow_dvd_iff.mpr low
  have coprime : IsCoprime P (X ^ a) := by
    apply IsCoprime.pow_right
    apply IsCoprime.symm
    rw [irreducible_X.coprime_iff_not_dvd, X_dvd_iff]
    exact odd
  rw [burst] at divides
  have short : Q.degree < P.degree := by
    have proper : P ≠ 0 := fun zero => odd (by rw [zero, coeff_zero])
    rw [degree_eq_natDegree proper, degree_lt_iff_coeff_zero]
    intro k long
    have beyond := high (k + a) (by omega)
    rwa [burst, coeff_X_pow_mul] at beyond
  have zero := eq_zero_of_dvd_of_degree_lt (coprime.dvd_of_dvd_mul_left divides) short
  exact nonzero (by rw [burst, zero, mul_zero])

variable {w : Nat} {poly init : BitVec w}

theorem generator_coeff_zero (odd : poly.getLsbD 0 = true) : (generator poly).coeff 0 ≠ 0 := by
  have room : 0 < w := BitVec.lt_of_getLsbD odd
  have last : poly.getMsbD (w - 1 - 0) = true := by
    rw [BitVec.getMsbD_eq_getLsbD, odd.symm]
    simp [room]
  rw [generator, coeff_add, coeff_X_pow, if_neg (Nat.ne_of_lt room), ofWord, coeff_stream,
    if_pos room, last, zero_add]
  decide

/-- Two frames that differ only inside a window of `w` bits do not both have their check
word. -/
theorem register_burst (odd : poly.getLsbD 0 = true) {word word' : Nat → BitVec w} {n : Nat}
    {check check' : BitVec w} (start : Nat)
    (flipped : ∃ p < w * (n + 1), bitsOf (frame word n check) p ≠ bitsOf (frame word' n check') p)
    (window : ∀ p < w * (n + 1), bitsOf (frame word n check) p ≠ bitsOf (frame word' n check') p →
      start ≤ p ∧ p < start + w)
    (accepted : register poly init word n = check) : register poly init word' n ≠ check' := by
  intro accepted'
  rw [register_frame] at accepted accepted'
  have divides := dvd_sub accepted accepted'
  rw [add_sub_add_left_eq_sub, CharTwo.sub_eq_add, ← stream_xor] at divides
  have clear {p : Nat} (inside : p < w * (n + 1)) (outside : p < start ∨ start + w ≤ p) :
      (bitsOf (frame word n check) p ^^ bitsOf (frame word' n check') p) = false := by
    by_contra differs
    have within := window p inside (by simpa using differs)
    omega
  have natDegree : (generator poly).natDegree = w :=
    natDegree_eq_of_degree_eq_some (generator_degree poly)
  refine not_dvd_burst (a := w * (n + 1) - (start + w)) (generator_coeff_zero odd) ?_ ?_ ?_ divides
  · intro zero
    obtain ⟨p, inside, differs⟩ := flipped
    have same := stream_eq_zero.mp zero p inside
    exact differs (by simpa using same)
  · intro k low
    rw [coeff_stream, if_pos (by omega), clear (by omega) (by omega)]
    rfl
  · intro k high
    rw [natDegree] at high
    rw [coeff_stream]
    split_ifs with inside
    · rw [clear (by omega) (by omega)]
      rfl
    · rfl

end Burst
end BoxFirmware.Crc
