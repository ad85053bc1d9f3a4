import Mathlib.Data.List.Basic

/-! Codes that are read from the front of a stream, and the lists of them that fill it. -/
namespace BoxFirmware.PrefixCode

variable {α β γ : Type}

def ReadsBack (read : List β → Option (α × List β)) (write : α → List β) (a : α) : Prop :=
  ∀ rest, read (write a ++ rest) = some (a, rest)

def Canonical (read : List β → Option (α × List β)) (write : α → List β) : Prop :=
  ∀ {bytes a rest}, read bytes = some (a, rest) → bytes = write a ++ rest

def both (first : List β → Option (α × List β)) (second : List β → Option (γ × List β))
    (bytes : List β) : Option ((α × γ) × List β) :=
  match first bytes with
  | none => none
  | some (a, bytes) => (second bytes).map (fun r => ((a, r.1), r.2))

section Both
variable {first : List β → Option (α × List β)} {second : List β → Option (γ × List β)}
  {write : α → List β} {write' : γ → List β}

theorem both_readsBack {a : α} {c : γ} (front : ReadsBack first write a)
    (back : ReadsBack second write' c) :
    ReadsBack (both first second) (fun p => write p.1 ++ write' p.2) (a, c) := by
  intro rest
  rw [both, List.append_assoc, front]
  dsimp only
  rw [back]
  rfl

theorem both_canonical (front : Canonical first write) (back : Canonical second write') :
    Canonical (both first second) (fun p => write p.1 ++ write' p.2) := by
  intro bytes p rest got
  unfold both at got
  cases one : first bytes with
  | none => simp [one] at got
  | some r =>
    simp only [one, Option.map_eq_some_iff] at got
    obtain ⟨⟨c, rest'⟩, two, same⟩ := got
    cases same
    rw [front one, back two, List.append_assoc]

end Both

def readAll (read : List β → Option (α × List β)) : (fuel : Nat) → List β → List α × List β
  | 0, bytes => ([], bytes)
  | fuel + 1, bytes =>
    if bytes.isEmpty then ([], [])
    else
      match read bytes with
      | none => ([], bytes)
      | some (a, rest) =>
        let r := readAll read fuel rest
        (a :: r.1, r.2)

section All
variable {read : List β → Option (α × List β)} {write : α → List β}

theorem readAll_nil (fuel : Nat) : readAll read fuel [] = ([], []) := by
  cases fuel <;> rfl

theorem readAll_canonical (canonical : Canonical read write) (fuel : Nat) (bytes : List β) :
    bytes = (readAll read fuel bytes).1.flatMap write ++ (readAll read fuel bytes).2 := by
  induction fuel generalizing bytes with
  | zero => rfl
  | succ fuel ih =>
    cases bytes with
    | nil => rfl
    | cons b bytes =>
      rw [readAll, if_neg (by simp)]
      cases got : read (b :: bytes) with
      | none => rfl
      | some r =>
        calc b :: bytes = write r.1 ++ r.2 := canonical got
          _ = write r.1 ++ ((readAll read fuel r.2).1.flatMap write ++ (readAll read fuel r.2).2) := by
            rw [← ih r.2]
          _ = _ := by simp

def Advances (read : List β → Option (α × List β)) : Prop :=
  ∀ {bytes a rest}, read bytes = some (a, rest) → rest.length < bytes.length

theorem readAll_stops (advances : Advances read) {fuel : Nat} {bytes : List β}
    (enough : bytes.length ≤ fuel) :
    (readAll read fuel bytes).2 = [] ∨ read (readAll read fuel bytes).2 = none := by
  induction fuel generalizing bytes with
  | zero => exact Or.inl (List.length_eq_zero_iff.mp (Nat.le_zero.mp enough))
  | succ fuel ih =>
    cases bytes with
    | nil => exact Or.inl rfl
    | cons b bytes =>
      rw [readAll, if_neg (by simp)]
      cases got : read (b :: bytes) with
      | none => exact Or.inr got
      | some r => exact ih (Nat.le_of_lt_succ (Nat.lt_of_lt_of_le (advances got) enough))

theorem readAll_back (advances : Advances read) {codes : List α}
    (back : ∀ a ∈ codes, ReadsBack read write a) {fuel : Nat}
    (enough : (codes.flatMap write).length ≤ fuel) :
    readAll read fuel (codes.flatMap write) = (codes, []) := by
  induction codes generalizing fuel with
  | nil => exact readAll_nil fuel
  | cons a codes ih =>
    have got := back a List.mem_cons_self (codes.flatMap write)
    have shorter := advances got
    rw [List.flatMap_cons] at enough ⊢
    cases fuel with
    | zero => omega
    | succ fuel =>
      have some : ¬ (write a ++ codes.flatMap write).isEmpty = true := by
        intro empty
        rw [List.isEmpty_iff.mp empty] at shorter
        simp at shorter
      rw [readAll, if_neg some, got]
      dsimp only
      rw [ih (fun c member => back c (List.mem_cons_of_mem a member)) (by omega)]

end All

end BoxFirmware.PrefixCode
