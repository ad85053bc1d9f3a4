import Mathlib.Data.List.Basic

/-! Runs of a deterministic step under inputs. `run` folds the step over the
inputs of a run, `Along` says that a condition on the input and the state before
the step holds at every step of it, and the two induction rules carry an
invariant along such a run. A machine with outputs also has the list of them,
and a log can be judged event by event from what came before each. -/
namespace BoxFirmware.GuardedRun

section Steps

variable {ι σ : Type} (step : ι → σ → σ)

def run : List ι → σ → σ
  | [], s => s
  | i :: is, s => run is (step i s)

/-- `C` holds of every input and the state it meets. -/
def Along (C : ι → σ → Prop) : List ι → σ → Prop
  | [], _ => True
  | i :: is, s => C i s ∧ Along C is (step i s)

instance decidableAlong (C : ι → σ → Prop) [∀ i s, Decidable (C i s)] :
    (is : List ι) → (s : σ) → Decidable (Along step C is s)
  | [], _ => inferInstanceAs (Decidable True)
  | i :: is, s =>
    have := decidableAlong C is (step i s)
    inferInstanceAs (Decidable (_ ∧ _))

@[simp] theorem run_nil (s : σ) : run step [] s = s := rfl

@[simp] theorem run_cons (i : ι) (is : List ι) (s : σ) :
    run step (i :: is) s = run step is (step i s) := rfl

theorem run_append (is js : List ι) (s : σ) :
    run step (is ++ js) s = run step js (run step is s) := by
  induction is generalizing s with
  | nil => rfl
  | cons i is ih => exact ih (step i s)

theorem along_true (is : List ι) (s : σ) : Along step (fun _ _ => True) is s := by
  induction is generalizing s with
  | nil => trivial
  | cons i is ih => exact ⟨trivial, ih (step i s)⟩

variable {step}

theorem along_mono {C D : ι → σ → Prop} (weaker : ∀ i s, C i s → D i s) {is : List ι} {s : σ}
    (along : Along step C is s) : Along step D is s := by
  induction is generalizing s with
  | nil => trivial
  | cons i is ih => exact ⟨weaker i s along.1, ih along.2⟩

theorem along_of_forall {D : ι → Prop} {is : List ι} (all : ∀ i ∈ is, D i) (s : σ) :
    Along step (fun i _ => D i) is s := by
  induction is generalizing s with
  | nil => trivial
  | cons i is ih =>
    exact ⟨all i List.mem_cons_self, ih (fun j later => all j (List.mem_cons_of_mem i later)) _⟩

theorem along_and {C D : ι → σ → Prop} {is : List ι} {s : σ} (first : Along step C is s)
    (second : Along step D is s) : Along step (fun i s => C i s ∧ D i s) is s := by
  induction is generalizing s with
  | nil => trivial
  | cons i is ih => exact ⟨⟨first.1, second.1⟩, ih first.2 second.2⟩

theorem along_append {C : ι → σ → Prop} {is js : List ι} {s : σ} :
    Along step C (is ++ js) s ↔ Along step C is s ∧ Along step C js (run step is s) := by
  induction is generalizing s with
  | nil => simp [Along]
  | cons i is ih => rw [List.cons_append, Along, Along, run_cons, ih, and_assoc]

theorem along_iff {C : ι → σ → Prop} {is : List ι} {s : σ} :
    Along step C is s ↔ ∀ pre i, pre ++ [i] <+: is → C i (run step pre s) := by
  induction is generalizing s with
  | nil => simp [Along]
  | cons j is ih =>
    simp only [Along, ih]
    constructor
    · rintro ⟨first, later⟩ pre i reached
      cases pre with
      | nil =>
        obtain rfl : i = j := by simpa using reached
        exact first
      | cons k pre =>
        obtain ⟨same, behind⟩ := List.cons_prefix_cons.mp reached
        rw [same]
        exact later pre i behind
    · intro all
      exact ⟨all [] j (by simp), fun pre i reached =>
        all (j :: pre) i (List.cons_prefix_cons.mpr ⟨rfl, reached⟩)⟩

theorem along_shorter {C : ι → σ → Prop} {is js : List ι} {s : σ} (shorter : is <+: js)
    (along : Along step C js s) : Along step C is s :=
  along_iff.mpr (fun pre i reached => along_iff.mp along pre i (reached.trans shorter))

/-- What every guarded step preserves, a guarded run preserves. -/
theorem run_invariant {C : ι → σ → Prop} {I : σ → Prop}
    (keep : ∀ i s, C i s → I s → I (step i s)) {is : List ι} {s : σ}
    (along : Along step C is s) (start : I s) : I (run step is s) := by
  induction is generalizing s with
  | nil => exact start
  | cons i is ih => exact ih along.2 (keep i s along.1 start)

theorem along_invariant {C : ι → σ → Prop} {I : σ → Prop}
    (keep : ∀ i s, C i s → I s → I (step i s)) {is : List ι} {s : σ}
    (along : Along step C is s) (start : I s) : Along step (fun i s => C i s ∧ I s) is s := by
  induction is generalizing s with
  | nil => trivial
  | cons i is ih => exact ⟨⟨along.1, start⟩, ih along.2 (keep i s along.1 start)⟩

theorem along_congr {C D : ι → σ → Prop} {I : σ → Prop} (keep : ∀ i s, I s → I (step i s))
    (same : ∀ i s, I s → (C i s ↔ D i s)) {is : List ι} {s : σ} (start : I s) :
    Along step C is s ↔ Along step D is s := by
  induction is generalizing s with
  | nil => exact Iff.rfl
  | cons i is ih => exact and_congr (same i s start) (ih (keep i s start))

/-- A condition that is exactly what a step needs to keep an invariant. -/
theorem along_exact {C D : ι → σ → Prop} {I : σ → Prop} (keep : ∀ i s, C i s → I s → I (step i s))
    (exact : ∀ i s, I s → (D i s ↔ C i s)) {is : List ι} {s : σ} (start : I s) :
    Along step D is s ↔ Along step C is s := by
  induction is generalizing s with
  | nil => exact Iff.rfl
  | cons i is ih =>
    constructor
    · intro along
      have head := (exact i s start).mp along.1
      exact ⟨head, (ih (keep i s head start)).mp along.2⟩
    · intro along
      exact ⟨(exact i s start).mpr along.1, (ih (keep i s along.1 start)).mpr along.2⟩

theorem along_part {τ : Type} {step' : ι → τ → τ} {part : τ → σ}
    (same : ∀ i t, part (step' i t) = step i (part t)) {C : ι → σ → Prop} {is : List ι} {t : τ} :
    Along step' (fun i t => C i (part t)) is t ↔ Along step C is (part t) := by
  induction is generalizing t with
  | nil => exact Iff.rfl
  | cons i is ih => rw [Along, Along, ih, same]

end Steps

section Eventually

variable {ι σ : Type} {step : ι → σ → σ} {i : ι} {P Q : σ → Prop} {s : σ}

/-- Enough steps under one input lead to `P`. -/
def Eventually (step : ι → σ → σ) (i : ι) (P : σ → Prop) (s : σ) : Prop :=
  ∃ n, P (run step (List.replicate n i) s)

theorem eventually_now (now : P s) : Eventually step i P s := ⟨0, now⟩

theorem eventually_step (later : Eventually step i P (step i s)) : Eventually step i P s := by
  obtain ⟨n, reached⟩ := later
  exact ⟨n + 1, reached⟩

theorem eventually_next {t : σ} (next : step i s = t) (later : Eventually step i P t) :
    Eventually step i P s := by
  rw [← next] at later
  exact eventually_step later

theorem eventually_trans (first : Eventually step i P s)
    (rest : ∀ t, P t → Eventually step i Q t) : Eventually step i Q s := by
  obtain ⟨n, reached⟩ := first
  obtain ⟨m, last⟩ := rest _ reached
  refine ⟨n + m, ?_⟩
  rw [← List.replicate_append_replicate, run_append]
  exact last

theorem eventually_mono (first : Eventually step i P s) (weaker : ∀ t, P t → Q t) :
    Eventually step i Q s :=
  eventually_trans first (fun t reached => eventually_now (weaker t reached))

end Eventually

section Outputs

variable {ι σ ο : Type} (step : ι → σ → ο × σ)

def outputs : List ι → σ → List ο
  | [], _ => []
  | i :: is, s => (step i s).1 :: outputs is (step i s).2

def final (is : List ι) (s : σ) : σ := run (fun i s => (step i s).2) is s

@[simp] theorem final_nil (s : σ) : final step [] s = s := rfl

@[simp] theorem final_cons (i : ι) (is : List ι) (s : σ) :
    final step (i :: is) s = final step is (step i s).2 := rfl

@[simp] theorem outputs_nil (s : σ) : outputs step [] s = [] := rfl

@[simp] theorem outputs_cons (i : ι) (is : List ι) (s : σ) :
    outputs step (i :: is) s = (step i s).1 :: outputs step is (step i s).2 := rfl

theorem outputs_length (is : List ι) (s : σ) : (outputs step is s).length = is.length := by
  induction is generalizing s with
  | nil => rfl
  | cons i is ih => simp [ih]

theorem outputs_append (is js : List ι) (s : σ) :
    outputs step (is ++ js) s = outputs step is s ++ outputs step js (final step is s) := by
  induction is generalizing s with
  | nil => rfl
  | cons i is ih => exact congrArg ((step i s).1 :: ·) (ih (step i s).2)

theorem final_append (is js : List ι) (s : σ) :
    final step (is ++ js) s = final step js (final step is s) :=
  run_append _ is js s

theorem outputs_forall {step : ι → σ → ο × σ} {P : ο → Prop} (each : ∀ i s, P (step i s).1)
    (is : List ι) (s : σ) : ∀ o ∈ outputs step is s, P o := by
  induction is generalizing s with
  | nil => simp
  | cons i is ih =>
    intro o member
    rcases List.mem_cons.mp member with rfl | later
    · exact each i s
    · exact ih _ o later

theorem outputs_along {step : ι → σ → ο × σ} {P : ο → Prop} {is : List ι} {s : σ} :
    (∀ o ∈ outputs step is s, P o) ↔
      Along (fun i s => (step i s).2) (fun i s => P (step i s).1) is s := by
  induction is generalizing s with
  | nil => simp [Along]
  | cons i is ih => rw [outputs_cons, List.forall_mem_cons, ih, Along]

theorem outputs_simulated {τ : Type} {step : ι → σ → ο × σ} {step' : ι → τ → ο × τ}
    {R : σ → τ → Prop}
    (each : ∀ i s t, R s t → (step i s).1 = (step' i t).1 ∧ R (step i s).2 (step' i t).2)
    (is : List ι) {s : σ} {t : τ} (start : R s t) :
    outputs step is s = outputs step' is t ∧ R (final step is s) (final step' is t) := by
  induction is generalizing s t with
  | nil => exact ⟨rfl, start⟩
  | cons i is ih =>
    obtain ⟨same, next⟩ := each i s t start
    obtain ⟨rest, last⟩ := ih next
    rw [outputs_cons, outputs_cons, same, rest]
    exact ⟨rfl, last⟩

/-- Where a step takes some inputs of the machine it stands for from the state's own supply,
and gives what that machine gives for them, a run gives what the machine gives for the
inputs taken in it. -/
theorem outputs_batched {κ τ ε : Type} {step : ι → σ → ο × σ} {step' : κ → τ → List ε × τ}
    {look : ο → List ε} {supply : σ → List κ} {R : σ → τ → Prop}
    (each : ∀ i s t, R s t → ∃ taken, supply s = taken ++ supply (step i s).2 ∧
      R (step i s).2 (final step' taken t) ∧ look (step i s).1 = (outputs step' taken t).flatten)
    (is : List ι) {s : σ} {t : τ} (start : R s t) :
    ∃ taken, supply s = taken ++ supply (final step is s) ∧
      R (final step is s) (final step' taken t) ∧
      (outputs step is s).flatMap look = (outputs step' taken t).flatten := by
  induction is generalizing s t with
  | nil => exact ⟨[], rfl, start, rfl⟩
  | cons i is ih =>
    obtain ⟨first, front, next, given⟩ := each i s t start
    obtain ⟨later, back, last, rest⟩ := ih next
    refine ⟨first ++ later, ?_, ?_, ?_⟩
    · rw [front, back, List.append_assoc]
      rfl
    · rw [final_append]
      exact last
    · rw [outputs_cons, List.flatMap_cons, given, rest, outputs_append, List.flatten_append]

theorem outputs_split {is : List ι} {s : σ} {pre post : List ο}
    (h : outputs step is s = pre ++ post) :
    ∃ front back, is = front ++ back ∧ outputs step front s = pre ∧
      outputs step back (final step front s) = post := by
  induction pre generalizing is s with
  | nil => exact ⟨[], is, rfl, rfl, h⟩
  | cons o pre ih =>
    cases is with
    | nil => simp at h
    | cons i is =>
      simp only [outputs_cons, List.cons_append, List.cons.injEq] at h
      obtain ⟨front, back, split, left, right⟩ := ih h.2
      exact ⟨i :: front, back, by rw [split, List.cons_append], by simp [left, h.1], right⟩

/-- `C` holds of the outputs so far, the input and the state, at every step. -/
def Guarded (C : List ο → ι → σ → Prop) : List ο → List ι → σ → Prop
  | _, [], _ => True
  | past, i :: is, s => C past i s ∧ Guarded C (past ++ [(step i s).1]) is (step i s).2

instance decidableGuarded (C : List ο → ι → σ → Prop) [∀ past i s, Decidable (C past i s)] :
    (past : List ο) → (is : List ι) → (s : σ) → Decidable (Guarded step C past is s)
  | _, [], _ => inferInstanceAs (Decidable True)
  | past, i :: is, s =>
    have := decidableGuarded C (past ++ [(step i s).1]) is (step i s).2
    inferInstanceAs (Decidable (_ ∧ _))

theorem guarded_append (C : List ο → ι → σ → Prop) (past : List ο) (is js : List ι) (s : σ) :
    Guarded step C past (is ++ js) s ↔ Guarded step C past is s ∧
      Guarded step C (past ++ outputs step is s) js (final step is s) := by
  induction is generalizing past s with
  | nil => simp [Guarded]
  | cons i is ih =>
    rw [List.cons_append, Guarded, Guarded, ih]
    simp [and_assoc]

variable {step}

/-- The rule for invariants that relate the state to all outputs so far. -/
theorem history_invariant {C : List ο → ι → σ → Prop} {I : List ο → σ → Prop}
    (keep : ∀ past i s, C past i s → I past s → I (past ++ [(step i s).1]) (step i s).2)
    {is : List ι} {s : σ} {past : List ο} (guarded : Guarded step C past is s)
    (start : I past s) : I (past ++ outputs step is s) (final step is s) := by
  induction is generalizing s past with
  | nil => simpa using start
  | cons i is ih =>
    have next := ih guarded.2 (keep past i s guarded.1 start)
    simpa using next

theorem guarded_congr {C D : List ο → ι → σ → Prop} {I : List ο → σ → Prop}
    (keep : ∀ past i s, I past s → I (past ++ [(step i s).1]) (step i s).2)
    (same : ∀ past i s, I past s → (C past i s ↔ D past i s)) {is : List ι} {s : σ} {past : List ο}
    (start : I past s) : Guarded step C past is s ↔ Guarded step D past is s := by
  induction is generalizing s past with
  | nil => exact Iff.rfl
  | cons i is ih => exact and_congr (same past i s start) (ih (keep past i s start))

end Outputs

section Beside

variable {ι σ ο ω : Type} (step : ι → σ → ο × σ)

def beside (i : ι × ι) (s : σ × σ) : σ × σ := ((step i.1 s.1).2, (step i.2 s.2).2)

variable {step}

/-- Two runs look the same when their states are related and related states look the same. -/
theorem outputs_alike {C : ι × ι → σ × σ → Prop} {R : σ × σ → Prop} {look : ο → ω}
    (keep : ∀ i s, C i s → R s → R (beside step i s))
    (each : ∀ i s, C i s → R s → look (step i.1 s.1).1 = look (step i.2 s.2).1)
    {is : List (ι × ι)} {s : σ × σ} (along : Along (beside step) C is s) (start : R s) :
    (outputs step (is.map Prod.fst) s.1).map look =
      (outputs step (is.map Prod.snd) s.2).map look := by
  induction is generalizing s with
  | nil => rfl
  | cons i is ih =>
    have head := each i s along.1 start
    have tail := ih along.2 (keep i s along.1 start)
    simp only [List.map_cons, outputs_cons]
    rw [head]
    exact congrArg (_ :: ·) tail

end Beside

section Logs

variable {ε : Type} {R : List ε → ε → Prop}

/-- Every event of the log stands in `R` to the events before it. -/
def Justified (R : List ε → ε → Prop) (log : List ε) : Prop :=
  ∀ past e later, log = past ++ e :: later → R past e

theorem justified_nil : Justified R [] := by
  intro past e later split
  simp at split

theorem justified_concat (log : List ε) (e : ε) :
    Justified R (log ++ [e]) ↔ Justified R log ∧ R log e := by
  constructor
  · intro all
    refine ⟨?_, all log e [] rfl⟩
    intro past f later split
    exact all past f (later ++ [e]) (by simp [split])
  · intro both past f later split
    rcases List.eq_nil_or_concat later with last | ⟨front, f', rfl⟩
    · subst last
      have same := List.append_inj' split rfl
      rw [← same.1, ← List.singleton_inj.mp same.2]
      exact both.2
    · rw [List.concat_eq_append, ← List.cons_append, ← List.append_assoc] at split
      exact both.1 past f front (List.append_inj' split rfl).1

theorem justified_extend {log es : List ε} (before : Justified R log)
    (each : ∀ front e back, es = front ++ e :: back → R (log ++ front) e) :
    Justified R (log ++ es) := by
  induction es generalizing log with
  | nil => simpa using before
  | cons e es ih =>
    have one := (justified_concat log e).mpr ⟨before, by simpa using each [] e es rfl⟩
    have rest := ih one (fun front f back split => by
      simpa using each (e :: front) f back (by rw [split, List.cons_append]))
    simpa using rest

theorem justified_shorter {log longer : List ε} (shorter : log <+: longer)
    (all : Justified R longer) : Justified R log := by
  obtain ⟨rest, rfl⟩ := shorter
  intro past e later split
  apply all past e (later ++ rest)
  rw [split, List.append_assoc, List.cons_append]

theorem justified_append {log es : List ε} (before : Justified R log)
    (free : ∀ e ∈ es, ∀ past, R past e) : Justified R (log ++ es) :=
  justified_extend before (fun front e back split => free e (by simp [split]) _)

theorem justified_forall {P : ε → Prop} {log : List ε} (all : Justified (fun _ e => P e) log) :
    ∀ e ∈ log, P e := by
  intro e member
  obtain ⟨past, later, split⟩ := List.append_of_mem member
  exact all past e later split

def justifiedFrom (R : List ε → ε → Prop) : List ε → List ε → Prop
  | _, [] => True
  | past, e :: later => R past e ∧ justifiedFrom R (past ++ [e]) later

theorem justifiedFrom_iff (past later : List ε) (before : Justified R past) :
    justifiedFrom R past later ↔ Justified R (past ++ later) := by
  induction later generalizing past with
  | nil => simpa [justifiedFrom] using before
  | cons e later ih =>
    rw [justifiedFrom]
    constructor
    · intro both
      have next := (ih (past ++ [e]) ((justified_concat past e).mpr ⟨before, both.1⟩)).mp both.2
      simpa using next
    · intro all
      have head := all past e later rfl
      refine ⟨head, (ih (past ++ [e]) ((justified_concat past e).mpr ⟨before, head⟩)).mpr ?_⟩
      simpa using all

instance decidableJustifiedFrom [∀ past e, Decidable (R past e)] :
    (past later : List ε) → Decidable (justifiedFrom R past later)
  | _, [] => inferInstanceAs (Decidable True)
  | past, e :: later =>
    have := decidableJustifiedFrom (past ++ [e]) later
    inferInstanceAs (Decidable (_ ∧ _))

instance [∀ past e, Decidable (R past e)] (log : List ε) : Decidable (Justified R log) :=
  decidable_of_iff (justifiedFrom R [] log) (by
    simpa using justifiedFrom_iff [] log justified_nil)

/-- What each guarded step gives, under an invariant, the outputs of a guarded run have. -/
theorem justified_outputs {ι σ ο : Type} {step : ι → σ → ο × σ} {C : List ο → ι → σ → Prop}
    {I : List ο → σ → Prop} {R : List ο → ο → Prop}
    (keep : ∀ past i s, C past i s → I past s → I (past ++ [(step i s).1]) (step i s).2)
    (each : ∀ past i s, C past i s → I past s → R past (step i s).1)
    {is : List ι} {s : σ} {past : List ο} (guarded : Guarded step C past is s) (start : I past s)
    (before : Justified R past) : Justified R (past ++ outputs step is s) := by
  induction is generalizing s past with
  | nil => simpa using before
  | cons i is ih =>
    have next := ih guarded.2 (keep past i s guarded.1 start)
      ((justified_concat past _).mpr ⟨before, each past i s guarded.1 start⟩)
    simpa using next

end Logs

end BoxFirmware.GuardedRun
