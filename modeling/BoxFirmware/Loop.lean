import Mathlib.Logic.Relation

/-! Loops that may not end. One turn of a loop either goes on with a new state or
leaves with a result, so that a `break` and a `return` are turns like any other.
`run` takes a number of turns that bounds it; `Ends` says that some number is
enough. The rules below are what a proof about a loop needs: turns can be peeled
off, an invariant with a measure makes the loop end, and a loop whose every turn
keeps a reason to go on does not end. -/
namespace BoxFirmware.Loop

inductive Turn (σ ρ : Type) where
  | again (s : σ)
  | leave (r : ρ)

def Turn.Gives {σ ρ : Type} (I : σ → Prop) (Q : ρ → Prop) : Turn σ ρ → Prop
  | .again s => I s
  | .leave r => Q r

variable {σ ρ : Type} (turn : σ → Turn σ ρ)

def run : Nat → σ → Option ρ
  | 0, _ => none
  | n + 1, s =>
    match turn s with
    | .again t => run n t
    | .leave r => some r

/-- The loop leaves with `r`. -/
def Ends (s : σ) (r : ρ) : Prop := ∃ n, run turn n s = some r

/-- The loop comes from `s` to `t`. -/
abbrev Reaches (s t : σ) : Prop := Relation.ReflTransGen (fun s t => turn s = .again t) s t

variable {turn}

theorem run_again {s t : σ} (more : turn s = .again t) (n : Nat) :
    run turn (n + 1) s = run turn n t := by
  rw [run, more]

theorem run_leave {s : σ} {r : ρ} (last : turn s = .leave r) (n : Nat) :
    run turn (n + 1) s = some r := by
  rw [run, last]

theorem run_succ {n : Nat} {s : σ} {r : ρ} (enough : run turn n s = some r) :
    run turn (n + 1) s = some r := by
  induction n generalizing s with
  | zero => cases enough
  | succ n ih =>
    cases look : turn s with
    | again t =>
      rw [run_again look] at enough ⊢
      exact ih enough
    | leave q =>
      rw [run_leave look] at enough ⊢
      exact enough

theorem run_more {n : Nat} {s : σ} {r : ρ} (enough : run turn n s = some r) (k : Nat) :
    run turn (n + k) s = some r := by
  induction k with
  | zero => exact enough
  | succ k ih => exact run_succ ih

theorem Ends.unique {s : σ} {r q : ρ} (one : Ends turn s r) (two : Ends turn s q) : r = q := by
  obtain ⟨n, first⟩ := one
  obtain ⟨m, second⟩ := two
  have both := run_more first m
  rw [Nat.add_comm, run_more second n] at both
  exact (Option.some.inj both).symm

theorem ends_leave {s : σ} {r : ρ} (last : turn s = .leave r) : Ends turn s r :=
  ⟨1, run_leave last 0⟩

theorem ends_again {s t : σ} {r : ρ} (more : turn s = .again t) :
    Ends turn s r ↔ Ends turn t r := by
  constructor
  · intro ends
    obtain ⟨n, enough⟩ := ends
    cases n with
    | zero => cases enough
    | succ n => exact ⟨n, (run_again more n).symm.trans enough⟩
  · intro ends
    obtain ⟨n, enough⟩ := ends
    exact ⟨n + 1, (run_again more n).trans enough⟩

theorem ends_reaches {s t : σ} {r : ρ} (way : Reaches turn s t) :
    Ends turn s r ↔ Ends turn t r := by
  induction way with
  | refl => exact Iff.rfl
  | tail _ more ih => exact ih.trans (ends_again more)

theorem Ends.last {s : σ} {r : ρ} (ends : Ends turn s r) :
    ∃ t, Reaches turn s t ∧ turn t = .leave r := by
  obtain ⟨n, enough⟩ := ends
  induction n generalizing s with
  | zero => cases enough
  | succ n ih =>
    cases look : turn s with
    | again t =>
      rw [run_again look] at enough
      obtain ⟨u, way, last⟩ := ih enough
      exact ⟨u, Relation.ReflTransGen.head look way, last⟩
    | leave q =>
      rw [run_leave look] at enough
      exact ⟨s, Relation.ReflTransGen.refl, by rw [look, Option.some.inj enough]⟩

theorem reaches_turns {I : σ → Prop} {Q : ρ → Prop} (body : ∀ s, I s → (turn s).Gives I Q)
    {s t : σ} (way : Reaches turn s t) (start : I s) : I t := by
  induction way with
  | refl => exact start
  | tail _ more ih =>
    have next := body _ ih
    rwa [more] at next

theorem Ends.gives {I : σ → Prop} {Q : ρ → Prop} (body : ∀ s, I s → (turn s).Gives I Q) {s : σ}
    {r : ρ} (ends : Ends turn s r) (start : I s) : Q r := by
  obtain ⟨t, way, last⟩ := ends.last
  have final := body t (reaches_turns body way start)
  rwa [last] at final

theorem not_ends {I : σ → Prop} (body : ∀ s, I s → (turn s).Gives I (fun _ => False)) {s : σ}
    (start : I s) (r : ρ) : ¬ Ends turn s r :=
  fun ends => ends.gives body start

theorem run_of_measure {I : σ → Prop} {Q : ρ → Prop} (μ : σ → Nat)
    (body : ∀ s, I s → (turn s).Gives (fun t => I t ∧ μ t < μ s) Q) {n : Nat} {s : σ}
    (start : I s) (low : μ s < n) : ∃ r, run turn n s = some r ∧ Q r := by
  induction n generalizing s with
  | zero => omega
  | succ n ih =>
    have gives := body s start
    cases look : turn s with
    | again t =>
      rw [look] at gives
      rw [run_again look]
      exact ih gives.1 (by have := gives.2; omega)
    | leave r =>
      rw [look] at gives
      exact ⟨r, run_leave look n, gives⟩

theorem ends_of_measure {I : σ → Prop} {Q : ρ → Prop} (μ : σ → Nat)
    (body : ∀ s, I s → (turn s).Gives (fun t => I t ∧ μ t < μ s) Q) {s : σ} (start : I s) :
    ∃ r, Ends turn s r ∧ Q r := by
  obtain ⟨r, enough, good⟩ := run_of_measure μ body start (Nat.lt_succ_self _)
  exact ⟨r, ⟨_, enough⟩, good⟩

end BoxFirmware.Loop
