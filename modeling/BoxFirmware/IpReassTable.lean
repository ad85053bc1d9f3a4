import BoxFirmware.IpReass
import Mathlib.Algebra.GroupWithZero.Nat

/-! `ip_reass` with the list of the datagrams that it waits for, the limits on their pbufs and entries,
and the timer. To make room the oldest one of the others is freed, but `prev` is not the entry in
front of it: it is the last but one of the list. `none` stands for a list that an entry was freed
from and not taken out. -/
namespace BoxFirmware.IpReassTable
open GuardedRun IpReass

/-- `IP_REASS_MAX_PBUFS`. -/
abbrev maxPbufs : Nat := 10

abbrev numReassdata : Nat := 5

abbrev maxAge : Nat := 3

/-- The key is the addresses and the identification. -/
structure Entry (κ : Type) where
  key : κ
  timer : Nat
  data : IpReassdata
  pbufs : Nat

structure Table (κ : Type) where
  reassdatagrams : List (Entry κ)
  pbufcount : Nat

section Source
variable {κ : Type}

def dequeue (l : List (Entry κ)) (ipr : Nat) (prev : Option Nat) : Option (List (Entry κ)) :=
  if ipr = 0 then some (l.drop 1)
  else if prev = some (ipr - 1) then some (l.eraseIdx ipr)
  else none

variable [DecidableEq κ]

/-- The older one of `oldest` and another datagram, each with its place and its timer. -/
def older (key : κ) (place : Nat) (r : Entry κ) (oldest : Option (Nat × Nat)) :
    Option (Nat × Nat) :=
  if r.key ≠ key then
    match oldest with
    | none => some (place, r.timer)
    | some (_, timer) => if r.timer ≤ timer then some (place, r.timer) else oldest
  else oldest

def oldestFrom (key : κ) : (place : Nat) → (oldest : Option (Nat × Nat)) → List (Entry κ) →
    Option (Nat × Nat)
  | _, oldest, [] => oldest
  | place, oldest, r :: rest => oldestFrom key (place + 1) (older key place r oldest) rest

/-- One round of `ip_reass_remove_oldest_datagram`: the pbufs that were freed, if there was another
datagram. -/
def removeRound (key : κ) (t : Table κ) : Option (Option Nat × Table κ) :=
  match oldestFrom key 0 none t.reassdatagrams with
  | none => some (none, t)
  | some (oldest, _) =>
    let prev := if t.reassdatagrams.length ≤ 1 then none else some (t.reassdatagrams.length - 2)
    let pbufs := (t.reassdatagrams[oldest]?.map Entry.pbufs).getD 0
    (dequeue t.reassdatagrams oldest prev).map fun l => (some pbufs, ⟨l, t.pbufcount - pbufs⟩)

def removeOldest (key : κ) (needed : Nat) : (fuel freed : Nat) → Table κ → Option (Nat × Table κ)
  | 0, freed, t => some (freed, t)
  | fuel + 1, freed, t =>
    let other := t.reassdatagrams.countP (fun r => r.key ≠ key)
    match removeRound key t with
    | none => none
    | some (none, t) => some (freed, t)
    | some (some pbufs, t) =>
      if freed + pbufs < needed ∧ other > 1 then removeOldest key needed fuel (freed + pbufs) t
      else some (freed + pbufs, t)

/-- The check of the limit on pbufs; `false` drops the fragment. -/
def makeRoom (key : κ) (clen : Nat) (t : Table κ) : Option (Bool × Table κ) :=
  if t.pbufcount + clen > maxPbufs then
    (removeOldest key clen t.reassdatagrams.length 0 t).map fun (freed, t) =>
      (decide (freed ≠ 0 ∧ t.pbufcount + clen ≤ maxPbufs), t)
  else some (true, t)

def push (key : κ) (t : Table κ) : Table κ :=
  { t with reassdatagrams := ⟨key, maxAge, ⟨[], false, 0⟩, 0⟩ :: t.reassdatagrams }

/-- The entry is found, or made by `ip_reass_enqueue_new_datagram`. -/
def findOrEnqueue (key : κ) (clen : Nat) (t : Table κ) : Option (Bool × Table κ) :=
  if t.reassdatagrams.any (fun r => r.key = key) then some (true, t)
  else if t.reassdatagrams.length < numReassdata then some (true, push key t)
  else
    (removeOldest key clen t.reassdatagrams.length 0 t).map fun (freed, t) =>
      if freed ≥ clen ∧ t.reassdatagrams.length < numReassdata then (true, push key t)
      else (false, t)

def chainInto (key : κ) (f : Frag) (clen : Nat) (t : Table κ) : Option Packet × Table κ :=
  match t.reassdatagrams.find? (fun r => r.key = key) with
  | none => (none, t)
  | some r =>
    let freed := (place f.helper none true r.data.p).isNone
    let pbufs := if freed then r.pbufs else r.pbufs + clen
    match ipReassEntry f (some r.data) with
    | (some packet, _) =>
      (some packet,
        ⟨t.reassdatagrams.eraseP (fun r => r.key = key), t.pbufcount + clen - pbufs⟩)
    | (none, data) =>
      (none,
        ⟨t.reassdatagrams.map fun r =>
            if r.key = key then { r with data := data.getD r.data, pbufs } else r,
          if freed then t.pbufcount + clen - clen else t.pbufcount + clen⟩)

def ipReass (key : κ) (f : Frag) (clen : Nat) (t : Table κ) : Option (Option Packet × Table κ) :=
  match makeRoom key clen t with
  | none => none
  | some (false, t) => some (none, t)
  | some (true, t) =>
    match findOrEnqueue key clen t with
    | none => none
    | some (false, t) => some (none, t)
    | some (true, t) => some (chainInto key f clen t)

/-- `ip_reass_tmr`, whose `prev` is right. -/
def ipReassTmr : List (Entry κ) → (pbufcount : Nat) → Table κ
  | [], pbufcount => ⟨[], pbufcount⟩
  | r :: rest, pbufcount =>
    if r.timer > 0 then
      let t := ipReassTmr rest pbufcount
      { t with reassdatagrams := { r with timer := r.timer - 1 } :: t.reassdatagrams }
    else ipReassTmr rest (pbufcount - r.pbufs)

inductive Event (κ : Type) where
  | fragment (key : κ) (f : Frag) (clen : Nat)
  | tick

def step : Event κ → Option (Table κ) → Option (Table κ)
  | _, none => none
  | .fragment key f clen, some t => (ipReass key f clen t).map Prod.snd
  | .tick, some t => some (ipReassTmr t.reassdatagrams t.pbufcount)

end Source

section Invariant
variable {κ : Type}

def total : List (Entry κ) → Nat
  | [] => 0
  | r :: rest => r.pbufs + total rest

structure Good (t : Table κ) : Prop where
  count : t.pbufcount = total t.reassdatagrams
  room : t.pbufcount ≤ maxPbufs
  few : t.reassdatagrams.length ≤ numReassdata
  once : (t.reassdatagrams.map Entry.key).Nodup
  aged : t.reassdatagrams.Pairwise (fun r s => s.timer ≤ r.timer)
  young : ∀ r ∈ t.reassdatagrams, r.timer ≤ maxAge

theorem total_append (l m : List (Entry κ)) : total (l ++ m) = total l + total m := by
  induction l with
  | nil => exact (Nat.zero_add _).symm
  | cons r l ih => rw [List.cons_append, total, total, ih, Nat.add_assoc]

theorem Good.part {t : Table κ} (good : Good t) {l : List (Entry κ)} {n : Nat}
    (sub : l.Sublist t.reassdatagrams) (count : n = total l) (less : n ≤ t.pbufcount) :
    Good ⟨l, n⟩ where
  count := count
  room := Nat.le_trans less good.room
  few := Nat.le_trans sub.length_le good.few
  once := good.once.sublist (sub.map Entry.key)
  aged := good.aged.sublist sub
  young r member := good.young r (sub.subset member)

theorem push_good {key : κ} {t : Table κ} (good : Good t)
    (new : ∀ r ∈ t.reassdatagrams, r.key ≠ key)
    (few : t.reassdatagrams.length < numReassdata) : Good (push key t) where
  count := good.count.trans (Nat.zero_add _).symm
  room := good.room
  few := few
  once := List.nodup_cons.mpr ⟨fun member => by
    obtain ⟨r, old, same⟩ := List.mem_map.mp member
    exact new r old same, good.once⟩
  aged := List.pairwise_cons.mpr ⟨good.young, good.aged⟩
  young := List.forall_mem_cons.mpr ⟨Nat.le_refl _, good.young⟩

theorem Good.update {front back : List (Entry κ)} {r r' : Entry κ} {n n' : Nat}
    (good : Good ⟨front ++ r :: back, n⟩) (key : r'.key = r.key) (timer : r'.timer = r.timer)
    (count : n' = total front + (r'.pbufs + total back)) (room : n' ≤ maxPbufs) :
    Good ⟨front ++ r' :: back, n'⟩ where
  count := by rw [count, total_append, total]
  room := room
  few := by simpa using good.few
  once := by simpa [key] using good.once
  aged := by simpa [List.pairwise_append, List.pairwise_cons, timer] using good.aged
  young := by simpa [or_imp, forall_and, timer] using good.young

theorem Good.other {front back : List (Entry κ)} {m : Entry κ} {n : Nat}
    (good : Good ⟨front ++ m :: back, n⟩) : ∀ s ∈ front ++ back, s.key ≠ m.key := by
  have once := (List.perm_middle.map Entry.key).nodup_iff.mp good.once
  rw [List.map_cons, List.nodup_cons] at once
  exact fun s member same => once.1 (List.mem_map.mpr ⟨s, member, same⟩)

def Early (key : κ) (l : List (Entry κ)) : Prop := ∀ r ∈ l.drop 2, r.key ≠ key

theorem late_split {key : κ} {l : List (Entry κ)} (late : ¬ Early key l) :
    ∃ front m back, l = front ++ m :: back ∧ 2 ≤ front.length ∧ m.key = key := by
  simp only [Early, not_forall, not_not] at late
  obtain ⟨m, member, own⟩ := late
  obtain ⟨front, back, split⟩ := List.append_of_mem member
  refine ⟨l.take 2 ++ front, m, back, ?_, ?_, own⟩
  · rw [List.append_assoc, ← split, List.take_append_drop]
  · have long := congrArg List.length split
    simp only [List.length_drop, List.length_append, List.length_cons, List.length_take] at long ⊢
    omega

variable [DecidableEq κ]

theorem oldestFrom_append (key : κ) (place : Nat) (oldest : Option (Nat × Nat))
    (l m : List (Entry κ)) : oldestFrom key place oldest (l ++ m) =
      oldestFrom key (place + l.length) (oldestFrom key place oldest l) m := by
  induction l generalizing place oldest with
  | nil => rfl
  | cons r l ih =>
    rw [List.cons_append, oldestFrom, oldestFrom, ih, List.length_cons,
      show place + 1 + l.length = place + (l.length + 1) by omega]

theorem oldestFrom_timer (key : κ) (place : Nat) (oldest : Option (Nat × Nat)) (l : List (Entry κ))
    {timer : Nat} (start : ∀ o ∈ oldest, timer ≤ o.2) (all : ∀ r ∈ l, timer ≤ r.timer) :
    ∀ o ∈ oldestFrom key place oldest l, timer ≤ o.2 := by
  induction l generalizing place oldest with
  | nil => exact start
  | cons r l ih =>
    obtain ⟨here, rest⟩ := List.forall_mem_cons.mp all
    rw [oldestFrom]
    refine ih _ _ ?_ rest
    intro o member
    unfold older at member
    split at member
    case isFalse _ => exact start o member
    case isTrue _ =>
      cases oldest with
      | none =>
        obtain rfl : (place, r.timer) = o := by simpa using member
        exact here
      | some b =>
        dsimp only at member
        split at member
        · obtain rfl : (place, r.timer) = o := by simpa using member
          exact here
        · exact start o member

theorem oldestFrom_last {key : κ} {front : List (Entry κ)} {r : Entry κ} (other : r.key ≠ key)
    (aged : (front ++ [r]).Pairwise (fun r s => s.timer ≤ r.timer)) :
    oldestFrom key 0 none (front ++ [r]) = some (front.length, r.timer) := by
  have start : ∀ o ∈ (none : Option (Nat × Nat)), r.timer ≤ o.2 := by simp
  have least := oldestFrom_timer key 0 none front start
    (fun s member => (List.pairwise_append.mp aged).2.2 s member r (by simp))
  rw [oldestFrom_append, oldestFrom, oldestFrom, Nat.zero_add]
  unfold older
  rw [if_pos other]
  cases found : oldestFrom key 0 none front with
  | none => rfl
  | some o => exact if_pos (least o found)

theorem removeRound_last {key : κ} {front : List (Entry κ)} {r : Entry κ} {n : Nat}
    (other : r.key ≠ key) (good : Good ⟨front ++ [r], n⟩) :
    removeRound key ⟨front ++ [r], n⟩ = some (some r.pbufs, ⟨front, n - r.pbufs⟩) := by
  rw [removeRound, oldestFrom_last other good.aged]
  have taken : dequeue (front ++ [r]) front.length
      (if (front ++ [r]).length ≤ 1 then none else some ((front ++ [r]).length - 2)) =
        some front := by
    rw [dequeue]
    cases front with
    | nil => rfl
    | cons s front => simp [List.eraseIdx_append_of_length_le]
  dsimp only
  rw [taken]
  simp

/-- Where the datagram of the fragment is the last one, the one in front of it is taken out only
from the head of the list. -/
theorem removeRound_own {key : κ} {front : List (Entry κ)} {r m : Entry κ} {n : Nat}
    (own : m.key = key) (good : Good ⟨front ++ [r, m], n⟩) :
    removeRound key ⟨front ++ [r, m], n⟩ =
      if front = [] then some (some r.pbufs, ⟨[m], n - r.pbufs⟩) else none := by
  have split : front ++ [r, m] = (front ++ [r]) ++ [m] := by simp
  have other : r.key ≠ key := own ▸ (split ▸ good).other r (by simp)
  have aged : (front ++ [r]).Pairwise (fun r s => s.timer ≤ r.timer) :=
    good.aged.sublist (List.Sublist.append_left (by simp) front)
  have found : oldestFrom key 0 none (front ++ [r, m]) = some (front.length, r.timer) := by
    rw [split, oldestFrom_append, oldestFrom_last other aged, oldestFrom, oldestFrom, older,
      if_neg (by simp [own])]
  rw [removeRound, found]
  cases front with
  | nil => simp [dequeue]
  | cons s front => simp [dequeue]

def behind (key : κ) (l : List (Entry κ)) : List (Entry κ) :=
  (l.dropWhile (fun r => r.key ≠ key)).drop 1

def Spared (key : κ) (needed : Nat) (l : List (Entry κ)) : Prop :=
  Early key l ∨ needed ≤ total (behind key l)

variable {key : κ} {t : Table κ}

theorem removeRound_early (good : Good t) (early : Early key t.reassdatagrams) :
    removeRound key t = some (none, t) ∨ ∃ pbufs t', removeRound key t = some (some pbufs, t') ∧
      Good t' ∧ t'.reassdatagrams.Sublist t.reassdatagrams ∧ t'.pbufcount ≤ t.pbufcount ∧
      Early key t'.reassdatagrams := by
  obtain ⟨l, n⟩ := t
  rcases List.eq_nil_or_concat l with rfl | ⟨front, m, rfl⟩
  · exact Or.inl rfl
  rw [List.concat_eq_append] at good early ⊢
  have count := good.count
  simp only [total_append, total] at count
  by_cases own : m.key = key
  · rcases List.eq_nil_or_concat front with rfl | ⟨front, r, rfl⟩
    · refine Or.inl ?_
      simp [removeRound, oldestFrom, older, own]
    · rw [List.concat_eq_append, List.append_assoc, List.singleton_append] at good early ⊢
      rw [List.concat_eq_append, total_append] at count
      simp only [total] at count
      have head : front = [] := by
        by_contra some
        obtain ⟨s, front', rfl⟩ := List.exists_cons_of_ne_nil some
        refine early m ?_ own
        show m ∈ (front' ++ [r, m]).drop 1
        cases front' <;> simp
      subst head
      refine Or.inr ⟨r.pbufs, ⟨[m], n - r.pbufs⟩, ?_, ?_, ?_, Nat.sub_le _ _, ?_⟩
      · rw [removeRound_own own good, if_pos rfl]
      · refine good.part (by simp) ?_ (Nat.sub_le _ _)
        simp only [total] at count ⊢
        omega
      · simp
      · simp [Early]
  · refine Or.inr ⟨m.pbufs, ⟨front, n - m.pbufs⟩, removeRound_last own good, ?_, ?_,
      Nat.sub_le _ _, ?_⟩
    · refine good.part (List.sublist_append_left _ _) ?_ (Nat.sub_le _ _)
      omega
    · exact List.sublist_append_left _ _
    · exact fun r member => early r (((List.sublist_append_left _ _).drop 2).subset member)

theorem removeOldest_early (needed fuel freed : Nat) (good : Good t)
    (early : Early key t.reassdatagrams) :
    ∃ freed' t', removeOldest key needed fuel freed t = some (freed', t') ∧ Good t' ∧
      t'.reassdatagrams.Sublist t.reassdatagrams ∧ t'.pbufcount ≤ t.pbufcount := by
  induction fuel generalizing freed t with
  | zero => exact ⟨freed, t, rfl, good, List.Sublist.refl _, Nat.le_refl _⟩
  | succ fuel ih =>
    rw [removeOldest]
    rcases removeRound_early good early with round | ⟨pbufs, t', round, good', sub, less, early'⟩
    · rw [round]
      exact ⟨freed, t, rfl, good, List.Sublist.refl _, Nat.le_refl _⟩
    · rw [round]
      dsimp only
      split
      · obtain ⟨freed', t'', rest, good'', sub', less'⟩ := ih (freed + pbufs) good' early'
        exact ⟨freed', t'', rest, good'', sub'.trans sub, Nat.le_trans less' less⟩
      · exact ⟨freed + pbufs, t', rfl, good', sub, less⟩

theorem removeOldest_late {front : List (Entry κ)} {m : Entry κ} (two : 2 ≤ front.length)
    (needed fuel freed : Nat) (back : List (Entry κ)) (n : Nat) (enough : back.length < fuel)
    (more : freed < needed) (good : Good ⟨front ++ m :: back, n⟩) :
    if freed + total back < needed then
      removeOldest m.key needed fuel freed ⟨front ++ m :: back, n⟩ = none
    else ∃ freed' t', removeOldest m.key needed fuel freed ⟨front ++ m :: back, n⟩ =
      some (freed', t') ∧ Good t' := by
  induction fuel generalizing back freed n with
  | zero => omega
  | succ fuel ih =>
    have others : 1 < (front ++ m :: back).countP (fun r => r.key ≠ m.key) := by
      have all : front.countP (fun r => r.key ≠ m.key) = front.length :=
        List.countP_eq_length.mpr fun s member => by
          simpa using good.other s (List.mem_append_left back member)
      rw [List.countP_append, all]
      omega
    rw [removeOldest]
    dsimp only
    rcases List.eq_nil_or_concat back with rfl | ⟨back, x, rfl⟩
    · rcases List.eq_nil_or_concat front with rfl | ⟨front, r, rfl⟩
      · cases two
      · rw [List.concat_eq_append] at two
        have some : front ≠ [] := by
          rintro rfl
          simp at two
        have round := removeRound_own (rfl : m.key = m.key)
          (show Good ⟨front ++ [r, m], n⟩ by simpa using good)
        rw [if_neg some] at round
        rw [if_pos (show freed + total [] < needed from more),
          show front.concat r ++ [m] = front ++ [r, m] by simp, round]
    · rw [List.concat_eq_append] at enough good others ⊢
      have other := good.other x (by simp)
      rw [← List.cons_append, ← List.append_assoc] at good others ⊢
      have round := removeRound_last other good
      have rest : Good ⟨front ++ m :: back, n - x.pbufs⟩ := by
        have count := good.count
        rw [total_append _ [x]] at count
        simp only [total] at count
        refine good.part (List.sublist_append_left _ _) ?_ (Nat.sub_le _ _)
        omega
      have sum : freed + total (back ++ [x]) = freed + x.pbufs + total back := by
        rw [total_append]
        simp only [total]
        omega
      rw [round, sum]
      dsimp only
      by_cases next : freed + x.pbufs < needed
      · rw [if_pos (And.intro next others)]
        exact ih (freed + x.pbufs) back (n - x.pbufs) (by simp at enough; omega) next rest
      · rw [if_neg (show ¬ freed + x.pbufs + total back < needed by omega),
          if_neg (fun both => next both.1)]
        exact ⟨_, _, rfl, rest⟩

theorem behind_eq {front back : List (Entry κ)} {m : Entry κ} {n : Nat}
    (good : Good ⟨front ++ m :: back, n⟩) : behind m.key (front ++ m :: back) = back := by
  have passed : ∀ s ∈ front, decide (s.key ≠ m.key) = true := fun s member =>
    decide_eq_true (good.other s (List.mem_append_left back member))
  rw [behind, List.dropWhile_append_of_pos passed, List.dropWhile_cons_of_neg (by simp)]
  rfl

theorem removeOldest_full {clen : Nat} (good : Good t) (full : maxPbufs < t.pbufcount + clen)
    (late : ¬ Early key t.reassdatagrams) :
    if total (behind key t.reassdatagrams) < clen then
      removeOldest key clen t.reassdatagrams.length 0 t = none
    else ∃ freed' t', removeOldest key clen t.reassdatagrams.length 0 t = some (freed', t') ∧
      Good t' := by
  obtain ⟨l, n⟩ := t
  obtain ⟨front, m, back, rfl, two, rfl⟩ := late_split late
  have needed : 0 < clen := by
    have room := good.room
    dsimp only at full room
    omega
  have rounds := removeOldest_late two clen (front ++ m :: back).length 0 back n
    (by simp; omega) needed good
  rw [Nat.zero_add] at rounds
  rwa [behind_eq good]

theorem makeRoom_spared (clen : Nat) (good : Good t)
    (spared : t.pbufcount + clen ≤ maxPbufs ∨ Spared key clen t.reassdatagrams) :
    ∃ room t', makeRoom key clen t = some (room, t') ∧ Good t' ∧
      (room = true → t'.pbufcount + clen ≤ maxPbufs) := by
  rw [makeRoom]
  by_cases full : t.pbufcount + clen > maxPbufs
  · have rounds : ∃ freed' t', removeOldest key clen t.reassdatagrams.length 0 t =
        some (freed', t') ∧ Good t' := by
      by_cases early : Early key t.reassdatagrams
      · obtain ⟨freed', t', rounds, good', -⟩ :=
          removeOldest_early clen t.reassdatagrams.length 0 good early
        exact ⟨freed', t', rounds, good'⟩
      · have older := (spared.resolve_left (Nat.not_le.mpr full)).resolve_left early
        have rounds := removeOldest_full good full early
        rwa [if_neg (Nat.not_lt.mpr older)] at rounds
    obtain ⟨freed', t', rounds, good'⟩ := rounds
    rw [if_pos full, rounds]
    exact ⟨_, t', rfl, good', fun room => (of_decide_eq_true room).2⟩
  · rw [if_neg full]
    exact ⟨true, t, rfl, good, fun _ => Nat.not_lt.mp full⟩

theorem findOrEnqueue_good (key : κ) (clen : Nat) (good : Good t)
    (room : t.pbufcount + clen ≤ maxPbufs) :
    ∃ found t', findOrEnqueue key clen t = some (found, t') ∧ Good t' ∧
      t'.pbufcount + clen ≤ maxPbufs := by
  rw [findOrEnqueue]
  by_cases old : t.reassdatagrams.any (fun r => r.key = key) = true
  · rw [if_pos old]
    exact ⟨true, t, rfl, good, room⟩
  have new : ∀ r ∈ t.reassdatagrams, r.key ≠ key := by simpa using old
  rw [if_neg old]
  by_cases few : t.reassdatagrams.length < numReassdata
  · rw [if_pos few]
    exact ⟨true, push key t, rfl, push_good good new few, room⟩
  · obtain ⟨freed, t', rounds, good', sub, less⟩ := removeOldest_early clen
      t.reassdatagrams.length 0 good (fun r member => new r (List.mem_of_mem_drop member))
    have room' : t'.pbufcount + clen ≤ maxPbufs := by omega
    rw [if_neg few, rounds]
    simp only [Option.map_some]
    by_cases made : freed ≥ clen ∧ t'.reassdatagrams.length < numReassdata
    · rw [if_pos made]
      exact ⟨true, push key t', rfl, push_good good' (fun r member => new r (sub.subset member))
        made.2, room'⟩
    · rw [if_neg made]
      exact ⟨false, t', rfl, good', room'⟩

theorem whole_kept {f : Frag} {ipr : IpReassdata} {packet : Packet} {entry : Option IpReassdata}
    (whole : ipReassEntry f (some ipr) = (some packet, entry)) :
    (place f.helper none true ipr.p).isNone = false := by
  by_contra freed
  rw [Bool.not_eq_false, Option.isNone_iff_eq_none] at freed
  have same : (if f.mf = false then
      { ipr with
        lastFrag := true
        datagramLen := (f.offset * 8 + f.bytes.length) % 65536 }
    else ipr).p = ipr.p := by split <;> rfl
  rw [ipReassEntry, Option.getD_some, ipReassChainFragIntoDatagramAndValidate] at whole
  rw [same, freed] at whole
  cases whole

theorem chainInto_good (f : Frag) (clen : Nat) (good : Good t)
    (room : t.pbufcount + clen ≤ maxPbufs) : Good (chainInto key f clen t).2 := by
  rw [chainInto]
  cases found : t.reassdatagrams.find? (fun r => r.key = key) with
  | none => exact good
  | some r =>
    obtain ⟨l, n⟩ := t
    obtain ⟨own, front, back, rfl, before⟩ := List.find?_eq_some_iff_append.mp found
    simp only [decide_eq_true_eq] at own
    have count := good.count
    simp only [total_append, total] at count
    have other := good.other
    rw [own] at other
    dsimp only
    generalize chained : ipReassEntry f (some r.data) = result
    obtain ⟨packet, data⟩ := result
    cases packet with
    | some packet =>
      have kept := whole_kept chained
      have gone : (front ++ r :: back).eraseP (fun r => decide (r.key = key)) = front ++ back := by
        rw [List.eraseP_append_right _ (fun s member => by simpa using other s (by simp [member])),
          List.eraseP_cons_of_pos (by simpa using own)]
      simp only [kept, Bool.false_eq_true, if_false, gone]
      refine good.part (List.Sublist.append_left (List.sublist_cons_self r back) front) ?_ ?_
      · rw [total_append]
        omega
      · dsimp only
        omega
    | none =>
      simp only [Nat.add_sub_cancel]
      generalize (place f.helper none true r.data.p).isNone = freed
      have rest : ∀ m : List (Entry κ), (∀ s ∈ m, s ∈ front ++ back) → m.map (fun s =>
          if s.key = key then
            { s with
              data := data.getD s.data
              pbufs := if freed = true then r.pbufs else r.pbufs + clen }
          else s) = m := fun m part =>
        (List.map_congr_left fun s member => if_neg (other s (part s member))).trans
          (List.map_id' m)
      rw [List.map_append, List.map_cons, rest front (by simp_all), rest back (by simp_all),
        if_pos own]
      dsimp only at room
      refine good.update rfl rfl ?_ ?_
      · dsimp only
        split <;> omega
      · split <;> omega

theorem ipReass_good (f : Frag) (clen : Nat) (good : Good t)
    (spared : t.pbufcount + clen ≤ maxPbufs ∨ Spared key clen t.reassdatagrams) :
    ∃ packet t', ipReass key f clen t = some (packet, t') ∧ Good t' := by
  obtain ⟨room, t', made, good', enough⟩ := makeRoom_spared clen good spared
  rw [ipReass, made]
  cases room with
  | false => exact ⟨none, t', rfl, good'⟩
  | true =>
    obtain ⟨found, t'', entry, good'', room''⟩ := findOrEnqueue_good key clen good' (enough rfl)
    dsimp only
    rw [entry]
    cases found with
    | false => exact ⟨none, t'', rfl, good''⟩
    | true => exact ⟨_, _, rfl, chainInto_good f clen good'' room''⟩

theorem ipReass_breaks (f : Frag) {clen : Nat} (good : Good t)
    (full : maxPbufs < t.pbufcount + clen) (exposed : ¬ Spared key clen t.reassdatagrams) :
    ipReass key f clen t = none := by
  obtain ⟨late, few⟩ := not_or.mp exposed
  have rounds := removeOldest_full good full late
  rw [if_pos (Nat.not_le.mp few)] at rounds
  rw [ipReass, makeRoom, if_pos full, rounds]
  rfl

end Invariant

section Timer
variable {κ : Type} {l : List (Entry κ)} {n : Nat}

theorem ipReassTmr_list (l : List (Entry κ)) (n : Nat) : (ipReassTmr l n).reassdatagrams =
    (l.filter (fun r => 0 < r.timer)).map (fun r => { r with timer := r.timer - 1 }) := by
  induction l generalizing n with
  | nil => rfl
  | cons r rest ih =>
    rw [ipReassTmr]
    split
    case isTrue more =>
      rw [List.filter_cons_of_pos (by simpa using more), List.map_cons, ← ih n]
    case isFalse out => rw [List.filter_cons_of_neg (by simpa using out), ih]

theorem ipReassTmr_count (enough : total l ≤ n) : (ipReassTmr l n).pbufcount + total l =
    n + total (ipReassTmr l n).reassdatagrams := by
  induction l generalizing n with
  | nil => rfl
  | cons r rest ih =>
    rw [total] at enough
    rw [ipReassTmr, total]
    split
    · have later := ih (n := n) (by omega)
      simp only [total]
      omega
    · have later := ih (n := n - r.pbufs) (by omega)
      omega

theorem ipReassTmr_good {t : Table κ} (good : Good t) :
    Good (ipReassTmr t.reassdatagrams t.pbufcount) := by
  have count := ipReassTmr_count (Nat.le_of_eq good.count.symm)
  have same := good.count
  have list := ipReassTmr_list t.reassdatagrams t.pbufcount
  have room := good.room
  have sub : (t.reassdatagrams.filter (fun r => 0 < r.timer)).Sublist t.reassdatagrams :=
    List.filter_sublist
  have less : total (ipReassTmr t.reassdatagrams t.pbufcount).reassdatagrams ≤
      total t.reassdatagrams := by
    rw [list]
    generalize t.reassdatagrams = l
    induction l with
    | nil => exact Nat.le_refl _
    | cons r rest ih =>
      rw [List.filter_cons, total]
      split
      · rw [List.map_cons, total]
        exact Nat.add_le_add_left ih _
      · exact Nat.le_trans ih (Nat.le_add_left _ _)
  refine ⟨by omega, by omega, ?_, ?_, ?_, ?_⟩
  · rw [list, List.length_map]
    exact Nat.le_trans sub.length_le good.few
  · rw [list, List.map_map]
    exact good.once.sublist (sub.map Entry.key)
  · rw [list, List.pairwise_map]
    exact (good.aged.sublist sub).imp fun older => Nat.sub_le_sub_right older 1
  · rw [list]
    intro r member
    obtain ⟨s, kept, rfl⟩ := List.mem_map.mp member
    exact Nat.le_trans (Nat.sub_le _ _) (good.young s (sub.subset kept))

end Timer

section Runs
variable {κ : Type} [DecidableEq κ]

/-- The fragment is within the limit on pbufs, or enough can be freed for it. -/
def SparedStep : Event κ → Option (Table κ) → Prop
  | .fragment key _ clen, some t =>
    t.pbufcount + clen ≤ maxPbufs ∨ Spared key clen t.reassdatagrams
  | _, _ => True

instance decidableSparedStep : (event : Event κ) → (s : Option (Table κ)) →
    Decidable (SparedStep event s)
  | .fragment key _ clen, some t => inferInstanceAs (Decidable (t.pbufcount + clen ≤ maxPbufs ∨
      (∀ r ∈ t.reassdatagrams.drop 2, r.key ≠ key) ∨
        clen ≤ total (behind key t.reassdatagrams)))
  | .fragment _ _ _, none => inferInstanceAs (Decidable True)
  | .tick, some _ => inferInstanceAs (Decidable True)
  | .tick, none => inferInstanceAs (Decidable True)

variable {t : Table κ}

theorem step_good (event : Event κ) (good : Good t) (spared : SparedStep event (some t)) :
    ∃ t', step event (some t) = some t' ∧ Good t' := by
  cases event with
  | fragment key f clen =>
    obtain ⟨packet, t', taken, good'⟩ := ipReass_good f clen good spared
    exact ⟨t', congrArg (Option.map Prod.snd) taken, good'⟩
  | tick => exact ⟨_, rfl, ipReassTmr_good good⟩

theorem step_breaks (event : Event κ) (good : Good t) (exposed : ¬ SparedStep event (some t)) :
    step event (some t) = none := by
  cases event with
  | fragment key f clen =>
    obtain ⟨full, exposed⟩ := not_or.mp exposed
    rw [step, ipReass_breaks f good (Nat.not_le.mp full) exposed]
    rfl
  | tick => exact absurd trivial exposed

theorem run_broken (events : List (Event κ)) : run step events none = none := by
  induction events with
  | nil => rfl
  | cons event events ih =>
    rw [run_cons]
    cases event <;> exact ih

theorem run_spared (events : List (Event κ)) (good : Good t) :
    (Along step SparedStep events (some t) →
      ∃ t', run step events (some t) = some t' ∧ Good t') ∧
    (¬ Along step SparedStep events (some t) → run step events (some t) = none) := by
  induction events generalizing t with
  | nil => exact ⟨fun _ => ⟨t, rfl, good⟩, fun exposed => absurd trivial exposed⟩
  | cons event events ih =>
    rw [run_cons]
    by_cases spared : SparedStep event (some t)
    · obtain ⟨t', stepped, good'⟩ := step_good event good spared
      rw [Along, stepped]
      exact ⟨fun both => (ih good').1 both.2,
        fun exposed => (ih good').2 fun later => exposed ⟨spared, later⟩⟩
    · rw [step_breaks event good spared, run_broken]
      exact ⟨fun both => absurd both.1 spared, fun _ => rfl⟩

/-- In every run the list is in order and within the limits until it breaks, and it breaks with the
first fragment over the limit whose datagram has two newer ones, if those that are older do not
have the pbufs that it needs. -/
theorem limits_kept (events : List (Event κ)) :
    (∀ t, run step events (some ⟨[], 0⟩) = some t → Good t) ∧
      ((run step events (some ⟨[], 0⟩)).isSome = true ↔
        Along step SparedStep events (some ⟨[], 0⟩)) := by
  have start : Good (⟨[], 0⟩ : Table κ) :=
    ⟨rfl, Nat.zero_le _, Nat.zero_le _, List.nodup_nil, List.Pairwise.nil, by simp⟩
  obtain ⟨kept, broken⟩ := run_spared events start
  by_cases spared : Along step SparedStep events (some (⟨[], 0⟩ : Table κ))
  · obtain ⟨t', ran, good⟩ := kept spared
    rw [ran]
    refine ⟨fun t same => ?_, iff_of_true rfl spared⟩
    rwa [← Option.some.inj same]
  · rw [broken spared]
    exact ⟨nofun, iff_of_false nofun spared⟩

theorem limits_kept_three :
    let f (k : Nat) : Frag := ⟨k, true, List.replicate 8 0⟩
    let events : List (Event Nat) :=
      [.fragment 0 (f 0) 4, .fragment 1 (f 0) 3, .tick, .fragment 2 (f 0) 3]
    (∃ t, run step events (some ⟨[], 0⟩) = some t ∧ Good t) ∧
      run step (events ++ [.fragment 0 (f 1) 1]) (some ⟨[], 0⟩) = none := by
  intro f events
  obtain ⟨t, ran⟩ := Option.isSome_iff_exists.mp ((limits_kept events).2.mpr (by decide))
  refine ⟨⟨t, ran, (limits_kept events).1 t ran⟩, ?_⟩
  rw [← Option.not_isSome_iff_eq_none, (limits_kept _).2]
  decide

end Runs

section Datagram
variable {κ : Type} [DecidableEq κ]

/-- What an event hands on, and the list behind it. -/
def receive (event : Event κ) (t : Option (Table κ)) : Option Packet × Option (Table κ) :=
  (match event, t with
    | .fragment key f clen, some t => (ipReass key f clen t).bind Prod.fst
    | _, _ => none,
    step event t)

/-- A piece comes in `clen` of its number pbufs. -/
def arrive (key : κ) (pieces : List (List UInt8)) (clen : Nat → Nat) (k : Nat) : Event κ :=
  .fragment key (frag pieces k) (clen k)

def pbufsOf (pieces : List (List UInt8)) (clen : Nat → Nat) (order : List Nat) : Nat :=
  ((arrived pieces order).map clen).sum

def tableOf (key : κ) (pieces : List (List UInt8)) (clen : Nat → Nat) (order : List Nat) : Table κ :=
  if order = [] then ⟨[], 0⟩
  else ⟨[⟨key, maxAge, entryOf pieces order, pbufsOf pieces clen order⟩], pbufsOf pieces clen order⟩

variable {key : κ} {pieces : List (List UInt8)} {clen : Nat → Nat} {order : List Nat} {j : Nat}

theorem pbufsOf_new (clen : Nat → Nat) (here : j < pieces.length) (new : j ∉ order) :
    pbufsOf pieces clen (order ++ [j]) = pbufsOf pieces clen order + clen j := by
  have nodup (order : List Nat) : (arrived pieces order).Nodup := List.nodup_range.filter _
  have perm : (arrived pieces (order ++ [j])).Perm (j :: arrived pieces order) := by
    refine (List.perm_ext_iff_of_nodup (nodup _) (List.nodup_cons.mpr
      ⟨fun member => new (mem_arrived.mp member).2, nodup _⟩)).mpr fun k => ?_
    simp only [mem_arrived, List.mem_append, List.mem_cons, List.not_mem_nil, or_false]
    constructor
    · rintro ⟨inside, old | rfl⟩
      · exact Or.inr ⟨inside, old⟩
      · exact Or.inl rfl
    · rintro (rfl | ⟨inside, old⟩)
      · exact ⟨here, Or.inr rfl⟩
      · exact ⟨inside, Or.inl old⟩
  rw [pbufsOf, (perm.map clen).sum_nat, List.map_cons, List.sum_cons, Nat.add_comm, pbufsOf]

theorem pbufsOf_le (pieces : List (List UInt8)) (clen : Nat → Nat) (order : List Nat) :
    pbufsOf pieces clen order ≤ ((List.range pieces.length).map clen).sum := by
  rw [pbufsOf, arrived]
  generalize List.range pieces.length = l
  induction l with
  | nil => exact Nat.le_refl _
  | cons k l ih =>
    rw [List.filter_cons, List.map_cons, List.sum_cons]
    split
    · rw [List.map_cons, List.sum_cons]
      exact Nat.add_le_add_left ih _
    · exact Nat.le_trans ih (Nat.le_add_left _ _)

theorem findOrEnqueue_own (n : Nat) : findOrEnqueue key n (tableOf key pieces clen order) =
    some (true, ⟨[⟨key, maxAge, entryOf pieces order, pbufsOf pieces clen order⟩],
      pbufsOf pieces clen order⟩) := by
  by_cases first : order = []
  · subst first
    simp [findOrEnqueue, tableOf, push, entryOf, pbufsOf, arrived]
  · simp [findOrEnqueue, tableOf, first]

theorem freed_own (cut : Cut pieces) (here : j < pieces.length) (order : List Nat) :
    (place (frag pieces j).helper none true (entryOf pieces order).p).isNone =
      decide (j ∈ order) := by
  have inside : ∀ k ∈ arrived pieces order, k < pieces.length := fun k member =>
    (mem_arrived.mp member).1
  have sorted := arrived_sorted pieces order
  rw [cut.frag_helper here, entryOf]
  by_cases old : j ∈ order
  · have freed := cut.place_old here inside sorted (mem_arrived.mpr ⟨here, old⟩) none true
    rw [Option.map_none] at freed
    rw [freed, decide_eq_true old, Option.isNone_none]
  · have placed := cut.place_new here inside sorted (fun member => old (mem_arrived.mp member).2)
      none (by simp) true
    rw [Option.map_none] at placed
    rw [placed, decide_eq_false old, Option.isNone_some]

theorem reass_own (cut : Cut pieces) (here : j < pieces.length)
    (bound : ∀ k ∈ order, k < pieces.length)
    (room : ((List.range pieces.length).map clen).sum ≤ maxPbufs) :
    ipReass key (frag pieces j) (clen j) (tableOf key pieces clen order) =
      some (if Closes pieces.length order j then
        (some ⟨pieces.flatten.length + 20,
          (arrived pieces (order ++ [j])).flatMap (pieces.getD · [])⟩, ⟨[], 0⟩)
      else (none, tableOf key pieces clen (order ++ [j]))) := by
  have step := cut.reass_step here bound
  have freed := freed_own cut here order
  have entry : ipReassEntry (frag pieces j) (stateOf pieces order) =
      ipReassEntry (frag pieces j) (some (entryOf pieces order)) := by
    rw [ipReassEntry, ipReassEntry, stateOf_getD, Option.getD_some]
  rw [entry] at step
  by_cases old : j ∈ order
  · have closes : ¬ Closes pieces.length order j := fun closes => closes.1 old
    have some : order ≠ [] := List.ne_nil_of_mem old
    have same : entryOf pieces (order ++ [j]) = entryOf pieces order := by
      rw [entryOf, entryOf, arrived_old old]
      simp [or_iff_left_of_imp (fun same => same ▸ old : pieces.length - 1 = j → _)]
    have again : tableOf key pieces clen (order ++ [j]) = tableOf key pieces clen order := by
      rw [tableOf, tableOf, if_neg some, if_neg (by simp), same, pbufsOf, pbufsOf, arrived_old old]
    rw [if_neg closes, again, ipReass]
    by_cases full : (tableOf key pieces clen order).pbufcount + clen j > maxPbufs
    · have dropped : makeRoom key (clen j) (tableOf key pieces clen order) =
          Option.some (false, tableOf key pieces clen order) := by
        rw [makeRoom, if_pos full, tableOf, if_neg some]
        simp [removeOldest, removeRound, oldestFrom, older]
      rw [dropped]
    · rw [makeRoom, if_neg full]
      dsimp only
      rw [findOrEnqueue_own]
      dsimp only
      rw [chainInto]
      simp only [List.find?_cons, decide_true, freed, old, step, closes]
      simp [tableOf, some, stateOf, same]
  · have new := pbufsOf_new clen here old
    have fits : ¬ (tableOf key pieces clen order).pbufcount + clen j > maxPbufs := by
      have all := pbufsOf_le pieces clen (order ++ [j])
      have count : (tableOf key pieces clen order).pbufcount = pbufsOf pieces clen order := by
        unfold tableOf
        split
        case isTrue first => simp [first, pbufsOf, arrived]
        case isFalse _ => rfl
      omega
    rw [ipReass, makeRoom, if_neg fits]
    dsimp only
    rw [findOrEnqueue_own]
    dsimp only
    rw [chainInto]
    simp only [List.find?_cons, decide_true, freed, old, decide_false, step]
    by_cases closes : Closes pieces.length order j
    · simp [closes]
    · simp [closes, tableOf, new, stateOf]

theorem receive_own (cut : Cut pieces) (here : j < pieces.length)
    (bound : ∀ k ∈ order, k < pieces.length)
    (room : ((List.range pieces.length).map clen).sum ≤ maxPbufs) :
    receive (arrive key pieces clen j) (some (tableOf key pieces clen order)) =
      if Closes pieces.length order j then
        (some ⟨pieces.flatten.length + 20,
          (arrived pieces (order ++ [j])).flatMap (pieces.getD · [])⟩, some ⟨[], 0⟩)
      else (none, some (tableOf key pieces clen (order ++ [j]))) := by
  simp only [receive, arrive, step, reass_own cut here bound room]
  split <;> rfl

/-- Fragments of the datagram alone, in any order, go through the list as through its entry. -/
theorem receive_outputs (cut : Cut pieces)
    (room : ((List.range pieces.length).map clen).sum ≤ maxPbufs)
    (bound : ∀ k ∈ order, k < pieces.length) (past : List Nat)
    (before : ∀ k ∈ past, k < pieces.length) :
    outputs receive (order.map (arrive key pieces clen)) (some (tableOf key pieces clen past)) =
      outputs ipReassEntry (order.map (frag pieces)) (stateOf pieces past) := by
  induction order generalizing past with
  | nil => rfl
  | cons j order ih =>
    obtain ⟨here, rest⟩ := List.forall_mem_cons.mp bound
    rw [List.map_cons, List.map_cons, outputs_cons, outputs_cons, receive_own cut here before room,
      cut.reass_step here before]
    by_cases closes : Closes pieces.length past j
    · have later := ih rest [] (by simp)
      simpa [closes, tableOf, stateOf] using later
    · have later := ih rest (past ++ [j])
        (List.forall_mem_append.mpr ⟨before, by simpa using here⟩)
      simpa [closes] using later

theorem receive_waiting (cut : Cut pieces)
    (room : ((List.range pieces.length).map clen).sum ≤ maxPbufs)
    (bound : ∀ k ∈ order, k < pieces.length)
    (waiting : ∀ o ∈ outputs receive (order.map (arrive key pieces clen)) (some ⟨[], 0⟩), o = none) :
    final receive (order.map (arrive key pieces clen)) (some ⟨[], 0⟩) =
      some (tableOf key pieces clen order) := by
  induction order using List.reverseRecOn with
  | nil => rfl
  | append_singleton order j ih =>
    have inside : ∀ k ∈ order, k < pieces.length := fun k member => bound k (by simp [member])
    rw [List.map_append, outputs_append, List.forall_mem_append] at waiting
    have before := ih inside waiting.1
    have now := waiting.2
    rw [before, List.map_singleton, outputs_cons, outputs_nil, List.forall_mem_singleton,
      receive_own cut (bound j (by simp)) inside room] at now
    rw [List.map_append, final_append, before, List.map_singleton, final_cons, final_nil,
      receive_own cut (bound j (by simp)) inside room]
    by_cases closes : Closes pieces.length order j
    · rw [if_pos closes] at now
      cases now
    · rw [if_neg closes]

/-- The fragments of a datagram, in ten pbufs at most, may come in any order and more than once
while nothing else is waited for. While none has made the entry complete, the next one is handed on
with all that has come, under the length of the whole datagram, exactly where `Closes` holds; the
data is that of the datagram only where nothing is missing. -/
theorem reassembled_any_order (key : κ) (pieces : List (List UInt8)) (cut : Cut pieces)
    (clen : Nat → Nat) (room : ((List.range pieces.length).map clen).sum ≤ maxPbufs)
    (order : List Nat) (bound : ∀ k ∈ order, k < pieces.length)
    (waiting : ∀ o ∈ outputs receive (order.map (arrive key pieces clen)) (some ⟨[], 0⟩), o = none)
    (j : Nat) (here : j < pieces.length) :
    let packet := (receive (arrive key pieces clen j)
      (final receive (order.map (arrive key pieces clen)) (some ⟨[], 0⟩))).1
    let payload := (arrived pieces (order ++ [j])).flatMap (pieces.getD · [])
    packet = (if Closes pieces.length order j then some ⟨pieces.flatten.length + 20, payload⟩
      else none) ∧ (payload = pieces.flatten ↔ ∀ k < pieces.length, k ∈ order ++ [j]) := by
  refine ⟨?_, cut.whole_iff _⟩
  rw [receive_waiting cut room bound waiting, receive_own cut here bound room]
  split <;> rfl

theorem reassembled_any_order_hole :
    let pieces : List (List UInt8) :=
      [List.replicate 8 1, List.replicate 8 2, List.replicate 8 3, List.replicate 4 4]
    (receive (arrive 0 pieces (fun _ => 1) 2)
      (final receive ([3, 0].map (arrive 0 pieces (fun _ => 1))) (some ⟨[], 0⟩))).1 =
      some ⟨48, List.replicate 8 1 ++ List.replicate 8 3 ++ List.replicate 4 4⟩ :=
  (reassembled_any_order 0 _ ⟨by decide, by decide, by decide, by decide⟩ (fun _ => 1) (by decide)
    [3, 0] (by decide) (by decide) 2 (by decide)).1.trans (by decide)

end Datagram

end BoxFirmware.IpReassTable
