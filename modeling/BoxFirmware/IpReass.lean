import BoxFirmware.GuardedRun
import Mathlib.Data.List.Chain
import Mathlib.Data.List.Range
import Mathlib.Data.List.Sort

/-! The entry of a datagram in `ip_reass` of `ip_frag.c`, behind the check of the limits: its
fragments are queued by their offsets, and when one comes the queue is checked for holes. The check
forgets the place directly in front of a fragment that is put between two others. -/
namespace BoxFirmware.IpReass
open GuardedRun

structure Frag where
  offset : Nat
  mf : Bool
  bytes : List UInt8

/-- `struct ip_reass_helper`, with the data that it stands in front of. -/
structure IpReassHelper where
  start : Nat
  stop : Nat
  bytes : List UInt8

/-- `lastFrag` is the flag `IP_REASS_FLAG_LASTFRAG`. -/
structure IpReassdata where
  p : List IpReassHelper
  lastFrag : Bool
  datagramLen : Nat

def Frag.helper (f : Frag) : IpReassHelper :=
  ⟨f.offset * 8, (f.offset * 8 + f.bytes.length) % 65536, f.bytes⟩

/-- The loop over the queue: what comes in front of the new fragment, what comes behind it, and
`valid`. `none` is the jump to `freepbuf`. -/
def place (iprh : IpReassHelper) : (prev : Option IpReassHelper) → (valid : Bool) →
    List IpReassHelper → Option (List IpReassHelper × List IpReassHelper × Bool)
  | none, valid, [] => some ([], [], valid)
  | some prev, valid, [] => some ([], [], valid && prev.stop == iprh.start)
  | prev, valid, tmp :: rest =>
    if iprh.start < tmp.start then
      match prev with
      | some prev =>
        if iprh.start < prev.stop ∨ iprh.stop > tmp.start then none
        else some ([], tmp :: rest, valid)
      | none => some ([], tmp :: rest, valid)
    else if iprh.start = tmp.start then none
    else if iprh.start < tmp.stop then none
    else
      let valid := match prev with
        | some prev => valid && prev.stop == tmp.start
        | none => valid
      (place iprh (some tmp) valid rest).map fun (before, after, valid) =>
        (tmp :: before, after, valid)

def noHoles : (prev : IpReassHelper) → List IpReassHelper → Bool
  | _, [] => true
  | prev, q :: rest => prev.stop == q.start && noHoles q rest

def startsAtZero : List IpReassHelper → Bool
  | [] => false
  | first :: _ => first.start == 0

def ipReassChainFragIntoDatagramAndValidate (ipr : IpReassdata) (new : IpReassHelper) :
    Bool × List IpReassHelper :=
  match place new none true ipr.p with
  | none => (false, ipr.p)
  | some (before, after, valid) =>
    (ipr.lastFrag && valid && startsAtZero (before ++ new :: after) && noHoles new after,
      before ++ new :: after)

structure Packet where
  len : Nat
  payload : List UInt8
  deriving DecidableEq

/-- What `ip_reass` does with the entry that it has found, or made for the first fragment; the entry
is gone when the datagram is handed on. -/
def ipReassEntry (f : Frag) (entry : Option IpReassdata) : Option Packet × Option IpReassdata :=
  let ipr := entry.getD ⟨[], false, 0⟩
  let ipr :=
    if f.mf = false then
      { ipr with lastFrag := true, datagramLen := (f.offset * 8 + f.bytes.length) % 65536 }
    else ipr
  match ipReassChainFragIntoDatagramAndValidate ipr f.helper with
  | (true, p) => (some ⟨(ipr.datagramLen + 20) % 65536, p.flatMap IpReassHelper.bytes⟩, none)
  | (false, p) => (none, some { ipr with p })

section Cut

def off (pieces : List (List UInt8)) (k : Nat) : Nat := (pieces.take k).flatten.length

/-- A datagram in pieces, which can be its fragments. -/
structure Cut (pieces : List (List UInt8)) : Prop where
  nonempty : pieces ≠ []
  full : ∀ k < pieces.length, pieces.getD k [] ≠ []
  eight : ∀ k < pieces.length - 1, (pieces.getD k []).length % 8 = 0
  short : pieces.flatten.length ≤ 65515

def frag (pieces : List (List UInt8)) (k : Nat) : Frag :=
  ⟨off pieces k / 8, decide (k + 1 < pieces.length), pieces.getD k []⟩

def helper (pieces : List (List UInt8)) (k : Nat) : IpReassHelper :=
  ⟨off pieces k, off pieces (k + 1), pieces.getD k []⟩

variable {pieces : List (List UInt8)} {j k m : Nat}

theorem piece_mem (inside : k < pieces.length) : pieces.getD k [] ∈ pieces := by
  rw [List.getD_eq_getElem?_getD, List.getElem?_eq_getElem inside]
  exact List.getElem_mem inside

theorem off_succ (pieces : List (List UInt8)) {k : Nat} (inside : k < pieces.length) :
    off pieces (k + 1) = off pieces k + (pieces.getD k []).length := by
  rw [off, off, List.take_succ_eq_append_getElem inside, List.flatten_append, List.length_append]
  simp [List.getD_eq_getElem?_getD, inside]

theorem off_all : off pieces pieces.length = pieces.flatten.length := by rw [off, List.take_length]

theorem Cut.off_lt (cut : Cut pieces) (less : k < m) (inside : m ≤ pieces.length) :
    off pieces k < off pieces m := by
  induction m with
  | zero => omega
  | succ m ih =>
    have here := off_succ pieces (show m < pieces.length by omega)
    have full := List.length_pos_of_ne_nil (cut.full m (by omega))
    rcases Nat.lt_or_eq_of_le (Nat.le_of_lt_succ less) with below | rfl
    · have before := ih below (by omega)
      omega
    · omega

theorem Cut.off_le (cut : Cut pieces) (le : k ≤ m) (inside : m ≤ pieces.length) :
    off pieces k ≤ off pieces m := by
  rcases Nat.lt_or_eq_of_le le with less | rfl
  · exact Nat.le_of_lt (cut.off_lt less inside)
  · exact Nat.le_refl _

theorem Cut.off_inj (cut : Cut pieces) (first : k ≤ pieces.length) (second : m ≤ pieces.length) :
    off pieces k = off pieces m ↔ k = m := by
  constructor
  · intro same
    rcases Nat.lt_trichotomy k m with less | rfl | less
    · have apart := cut.off_lt less second
      omega
    · rfl
    · have apart := cut.off_lt less first
      omega
  · rintro rfl
    rfl

theorem Cut.off_eight (cut : Cut pieces) (inside : k < pieces.length) : off pieces k % 8 = 0 := by
  induction k with
  | zero => rfl
  | succ k ih =>
    have here := off_succ pieces (show k < pieces.length by omega)
    have before := ih (by omega)
    have piece := cut.eight k (by omega)
    omega

theorem Cut.off_bound (cut : Cut pieces) (inside : k ≤ pieces.length) : off pieces k ≤ 65515 := by
  have last := cut.off_le inside (Nat.le_refl _)
  rw [off_all] at last
  exact Nat.le_trans last cut.short

theorem Cut.frag_stop (cut : Cut pieces) (inside : k < pieces.length) :
    ((frag pieces k).offset * 8 + (frag pieces k).bytes.length) % 65536 = off pieces (k + 1) := by
  have eight := cut.off_eight inside
  have bound := cut.off_bound (k := k + 1) inside
  have next := off_succ pieces inside
  simp only [frag]
  omega

theorem Cut.frag_helper (cut : Cut pieces) (inside : k < pieces.length) :
    (frag pieces k).helper = helper pieces k := by
  have eight := cut.off_eight inside
  rw [Frag.helper, cut.frag_stop inside, helper, frag]
  dsimp only
  rw [show off pieces k / 8 * 8 = off pieces k by omega]

end Cut

section Place
variable {pieces : List (List UInt8)} {j k : Nat} {queue : List Nat}

abbrev Gapless (l : List Nat) : Prop := l.IsChain (fun a b => a + 1 = b)

theorem gapless_cons_cons {a b : Nat} {l : List Nat} :
    Gapless (a :: b :: l) ↔ a + 1 = b ∧ Gapless (b :: l) := List.isChain_cons_cons

theorem Cut.stop_start (cut : Cut pieces) (first : j < pieces.length) (second : k < pieces.length) :
    ((helper pieces j).stop == (helper pieces k).start) = decide (j + 1 = k) := by
  rw [Bool.eq_iff_iff, beq_iff_eq, decide_eq_true_iff]
  exact cut.off_inj first (Nat.le_of_lt second)

theorem Cut.noHoles_iff (cut : Cut pieces) (inside : ∀ k ∈ j :: queue, k < pieces.length) :
    noHoles (helper pieces j) (queue.map (helper pieces)) = true ↔ Gapless (j :: queue) := by
  induction queue generalizing j with
  | nil => simp [noHoles]
  | cons k queue ih =>
    rw [List.map_cons, noHoles, cut.stop_start (inside j (by simp)) (inside k (by simp)),
      Bool.and_eq_true, decide_eq_true_iff, ih (fun m member => inside m (by simp_all))]
    exact gapless_cons_cons.symm

def front (prev : Option Nat) (j : Nat) (queue : List Nat) : List Nat :=
  prev.toList ++ queue.filter (· < j) ++ if queue.filter (j < ·) = [] then [j] else []

theorem Cut.place_new (cut : Cut pieces) (here : j < pieces.length)
    (inside : ∀ k ∈ queue, k < pieces.length) (sorted : queue.Pairwise (· < ·)) (new : j ∉ queue)
    (prev : Option Nat) (before : ∀ p ∈ prev, p < j ∧ ∀ k ∈ queue, p < k) (valid : Bool) :
    place (helper pieces j) (prev.map (helper pieces)) valid (queue.map (helper pieces)) =
      some ((queue.filter (· < j)).map (helper pieces), (queue.filter (j < ·)).map (helper pieces),
        valid && decide (Gapless (front prev j queue))) := by
  induction queue generalizing prev valid with
  | nil =>
    cases prev with
    | none => simp [place, front]
    | some p =>
      have inside' : p < pieces.length := Nat.lt_trans (before p rfl).1 here
      simp only [Option.map_some, List.map_nil, place, cut.stop_start inside' here]
      simp [front]
  | cons tmp queue ih =>
    obtain ⟨first, rest⟩ := List.pairwise_cons.mp sorted
    have tmpInside := inside tmp (by simp)
    have other : j ≠ tmp := fun same => new (same ▸ List.mem_cons_self)
    rw [List.map_cons]
    rcases Nat.lt_or_gt_of_ne other with less | greater
    · -- the place is here, and `prev` is not looked at any more
      have start : (helper pieces j).start < (helper pieces tmp).start :=
        cut.off_lt less (Nat.le_of_lt tmpInside)
      have above : ∀ k ∈ tmp :: queue, j < k := List.forall_mem_cons.mpr
        ⟨less, fun k later => Nat.lt_trans less (first k later)⟩
      have behind : (tmp :: queue).filter (j < ·) = tmp :: queue :=
        List.filter_eq_self.mpr fun k member => decide_eq_true (above k member)
      have ahead : (tmp :: queue).filter (· < j) = [] :=
        List.filter_eq_nil_iff.mpr fun k member => by
          simpa using Nat.le_of_lt (above k member)
      have gapless : Gapless (front prev j (tmp :: queue)) := by
        rw [front, ahead, behind, if_neg (List.cons_ne_nil _ _)]
        cases prev <;> simp
      rw [ahead, behind, decide_eq_true gapless, Bool.and_true]
      cases prev with
      | none => simp only [Option.map_none, place, if_pos start, List.map_nil, List.map_cons]
      | some p =>
        have low : ¬ (helper pieces j).start < (helper pieces p).stop :=
          Nat.not_lt.mpr (cut.off_le (before p rfl).1 (Nat.le_of_lt here))
        have high : ¬ (helper pieces j).stop > (helper pieces tmp).start :=
          Nat.not_lt.mpr (cut.off_le less (Nat.le_of_lt tmpInside))
        simp only [Option.map_some, place, if_pos start, if_neg (not_or.mpr ⟨low, high⟩),
          List.map_nil, List.map_cons]
    · have start : (helper pieces tmp).start < (helper pieces j).start :=
        cut.off_lt greater (Nat.le_of_lt here)
      have stop : (helper pieces tmp).stop ≤ (helper pieces j).start :=
        cut.off_le greater (Nat.le_of_lt here)
      have next := ih (fun k member => inside k (by simp [member])) rest
        (fun member => new (List.mem_cons_of_mem tmp member)) (some tmp)
        (fun p same => by
          obtain rfl : tmp = p := by simpa using same
          exact ⟨greater, first⟩)
      have ahead : (tmp :: queue).filter (· < j) = tmp :: queue.filter (· < j) :=
        List.filter_cons_of_pos (by simpa using greater)
      have behind : (tmp :: queue).filter (j < ·) = queue.filter (j < ·) :=
        List.filter_cons_of_neg (by simpa using Nat.le_of_lt greater)
      have longer : front prev j (tmp :: queue) = prev.toList ++ front (some tmp) j queue := by
        rw [front, ahead, behind, front]
        simp
      rw [ahead, behind, longer]
      cases prev with
      | none =>
        simp only [Option.map_none, place, if_neg (Nat.not_lt.mpr (Nat.le_of_lt start)),
          if_neg (Nat.ne_of_gt start), if_neg (Nat.not_lt.mpr stop)]
        rw [show some (helper pieces tmp) = (some tmp).map (helper pieces) from rfl, next]
        rfl
      | some p =>
        have inside' : p < pieces.length := Nat.lt_trans (before p rfl).1 here
        simp only [Option.map_some, place, if_neg (Nat.not_lt.mpr (Nat.le_of_lt start)),
          if_neg (Nat.ne_of_gt start), if_neg (Nat.not_lt.mpr stop),
          cut.stop_start inside' tmpInside]
        rw [show some (helper pieces tmp) = (some tmp).map (helper pieces) from rfl, next]
        have chain : Gapless ((some p).toList ++ front (some tmp) j queue) ↔
            p + 1 = tmp ∧ Gapless (front (some tmp) j queue) := by
          simp only [front, Option.toList_some, List.cons_append]
          exact gapless_cons_cons
        simp only [Option.map_some, List.map_cons, chain, Bool.decide_and, Bool.and_assoc]

theorem Cut.place_old (cut : Cut pieces) (here : j < pieces.length)
    (inside : ∀ k ∈ queue, k < pieces.length) (sorted : queue.Pairwise (· < ·)) (old : j ∈ queue)
    (prev : Option Nat) (valid : Bool) :
    place (helper pieces j) (prev.map (helper pieces)) valid (queue.map (helper pieces)) = none := by
  induction queue generalizing prev valid with
  | nil => cases old
  | cons tmp queue ih =>
    obtain ⟨first, rest⟩ := List.pairwise_cons.mp sorted
    have tmpInside := inside tmp (by simp)
    rw [List.map_cons]
    rcases List.mem_cons.mp old with rfl | later
    · have same : ¬ (helper pieces j).start < (helper pieces j).start := Nat.lt_irrefl _
      cases prev with
      | none => simp only [Option.map_none, place, if_neg same, if_true]
      | some p => simp only [Option.map_some, place, if_neg same, if_true]
    · have greater := first j later
      have start : (helper pieces tmp).start < (helper pieces j).start :=
        cut.off_lt greater (Nat.le_of_lt here)
      have stop : (helper pieces tmp).stop ≤ (helper pieces j).start :=
        cut.off_le greater (Nat.le_of_lt here)
      have next := ih (fun k member => inside k (by simp [member])) rest later (some tmp)
      simp only [Option.map_some] at next
      cases prev <;>
        simp only [Option.map_none, Option.map_some, place,
          if_neg (Nat.not_lt.mpr (Nat.le_of_lt start)), if_neg (Nat.ne_of_gt start),
          if_neg (Nat.not_lt.mpr stop), next]

end Place

section Closes
variable {pieces : List (List UInt8)} {j k : Nat} {queue : List Nat}

theorem gapless_iff {l : List Nat} (sorted : l.Pairwise (· < ·)) :
    Gapless l ↔ ∀ a ∈ l, ∀ b ∈ l, ∀ k, a < k → k < b → k ∈ l := by
  induction l with
  | nil => simp
  | cons x l ih =>
    obtain ⟨first, rest⟩ := List.pairwise_cons.mp sorted
    cases l with
    | nil =>
      simp only [List.isChain_singleton, List.mem_singleton, true_iff]
      rintro a rfl b rfl k low high
      omega
    | cons y l =>
      rw [gapless_cons_cons]
      have growing := first y List.mem_cons_self
      have above : ∀ z ∈ y :: l, y ≤ z := List.forall_mem_cons.mpr
        ⟨Nat.le_refl y, fun z member => Nat.le_of_lt (List.rel_of_pairwise_cons rest member)⟩
      have tail := ih rest
      constructor
      · rintro ⟨next, chain⟩ a left b right k low high
        have closed := tail.mp chain
        rcases List.mem_cons.mp left with rfl | left
        · rcases List.mem_cons.mp right with rfl | right
          · omega
          · by_cases same : k = y
            · simp [same]
            · exact List.mem_cons_of_mem _ (closed y List.mem_cons_self b right k (by omega) high)
        · have apart := first a left
          rcases List.mem_cons.mp right with rfl | right
          · omega
          · exact List.mem_cons_of_mem _ (closed a left b right k low high)
      · intro closed
        refine ⟨?_, tail.mpr fun a left b right k low high => ?_⟩
        · by_contra gap
          have member := closed x (by simp) y (by simp) (x + 1) (by omega) (by omega)
          rcases List.mem_cons.mp member with same | later
          · omega
          · have apart := above _ later
            omega
        · have member := closed a (List.mem_cons_of_mem _ left) b (List.mem_cons_of_mem _ right)
            k low high
          have apart := above a left
          exact (List.mem_cons.mp member).resolve_left (by omega)

/-- What the code takes for the whole datagram: the first and the last fragment are there, and what
is missing was directly in front of the one that came now, which is not the last. -/
def Closes (n : Nat) (queue : List Nat) (j : Nat) : Prop :=
  j ∉ queue ∧ 0 ∈ j :: queue ∧ n - 1 ∈ j :: queue ∧ ∀ k < n, k ∉ j :: queue →
    k < j ∧ j + 1 < n ∧ ∀ m ∈ queue, m < j → m < k

instance decidableCloses (n : Nat) (queue : List Nat) (j : Nat) : Decidable (Closes n queue j) :=
  inferInstanceAs (Decidable (_ ∧ _ ∧ _ ∧ _))

theorem closes_iff (inside : ∀ k ∈ j :: queue, k < pieces.length)
    (sorted : queue.Pairwise (· < ·)) (new : j ∉ queue) :
    Closes pieces.length queue j ↔ 0 ∈ j :: queue ∧ pieces.length - 1 ∈ j :: queue ∧
      Gapless (front none j queue) ∧ Gapless (j :: queue.filter (j < ·)) := by
  have sortedBehind : (j :: queue.filter (j < ·)).Pairwise (· < ·) :=
    List.pairwise_cons.mpr ⟨fun k member => by simpa using (List.mem_filter.mp member).2,
      sorted.filter _⟩
  have sortedFront : (front none j queue).Pairwise (· < ·) := by
    rw [front, Option.toList_none, List.nil_append, List.pairwise_append]
    refine ⟨sorted.filter _, by split <;> simp, fun a left b right => ?_⟩
    obtain ⟨-, rfl⟩ : _ ∧ b = j := by
      split at right
      · exact ⟨trivial, by simpa using right⟩
      · cases right
    simpa using (List.mem_filter.mp left).2
  have memFront {k : Nat} : k ∈ front none j queue ↔
      k ∈ queue ∧ k < j ∨ k = j ∧ queue.filter (j < ·) = [] := by
    simp only [front, Option.toList_none, List.nil_append, List.mem_append, List.mem_filter,
      decide_eq_true_iff]
    split
    case isTrue none => simp [none]
    case isFalse some => simp [some]
  have memBehind {k : Nat} : k ∈ j :: queue.filter (j < ·) ↔ k = j ∨ k ∈ queue ∧ j < k := by
    simp
  have least : 0 ∈ j :: queue → 0 < j → 0 ∈ queue := fun zero positive =>
    (List.mem_cons.mp zero).resolve_left (by omega)
  have most : pieces.length - 1 ∈ j :: queue → j + 1 < pieces.length →
      pieces.length - 1 ∈ queue.filter (j < ·) := fun last more =>
    List.mem_filter.mpr ⟨(List.mem_cons.mp last).resolve_left (by omega),
      decide_eq_true (by omega)⟩
  rw [gapless_iff sortedFront, gapless_iff sortedBehind]
  constructor
  · rintro ⟨-, zero, last, missing⟩
    refine ⟨zero, last, fun a left b right k low high => ?_, fun a left b right k low high => ?_⟩
    · rw [memFront] at right ⊢
      by_contra out
      have absent : k ∉ j :: queue := by
        rw [List.mem_cons]
        rintro (same | member)
        · omega
        · exact out (Or.inl ⟨member, by omega⟩)
      have here := inside j List.mem_cons_self
      obtain ⟨below, more, none⟩ := missing k (by omega) absent
      rcases right with ⟨member, less⟩ | ⟨rfl, empty⟩
      · have apart := none b member less
        omega
      · have kept := most last more
        rw [empty] at kept
        cases kept
    · rw [memBehind] at left right ⊢
      by_contra out
      have absent : k ∉ j :: queue := by
        rw [List.mem_cons]
        rintro (same | member)
        · omega
        · exact out (Or.inr ⟨member, by omega⟩)
      have there : b ∈ j :: queue := List.mem_cons.mpr (right.imp id And.left)
      have bound := inside b there
      have below := (missing k (by omega) absent).1
      omega
  · rintro ⟨zero, last, frontClosed, behindClosed⟩
    refine ⟨new, zero, last, fun k bound absent => ?_⟩
    have notZero : k ≠ 0 := fun same => absent (same ▸ zero)
    have notLast : k ≠ pieces.length - 1 := fun same => absent (same ▸ last)
    have notNew : k ≠ j := fun same => absent (same ▸ List.mem_cons_self)
    have outFront : k ∉ front none j queue := fun member => by
      rw [memFront] at member
      exact member.elim (fun both => absent (List.mem_cons_of_mem j both.1)) fun both =>
        notNew both.1
    have below : k < j := by
      by_contra above
      have kept := most last (by omega)
      have member := behindClosed j List.mem_cons_self _ (List.mem_cons_of_mem j kept) k
        (by omega) (by omega)
      exact (memBehind.mp member).elim notNew fun both => absent (List.mem_cons_of_mem j both.1)
    have first : 0 ∈ front none j queue :=
      memFront.mpr (Or.inl ⟨least zero (by omega), by omega⟩)
    refine ⟨below, ?_, fun m member high => ?_⟩
    · by_contra few
      have empty : queue.filter (j < ·) = [] := List.filter_eq_nil_iff.mpr fun m member => by
        have top := inside m (List.mem_cons_of_mem j member)
        simp only [decide_eq_true_iff]
        omega
      exact outFront (frontClosed 0 first j (memFront.mpr (Or.inr ⟨rfl, empty⟩)) k (by omega) below)
    · by_contra low
      have other : m ≠ k := fun same => absent (same ▸ List.mem_cons_of_mem j member)
      exact outFront (frontClosed 0 first m (memFront.mpr (Or.inl ⟨member, high⟩)) k (by omega)
        (by omega))

end Closes

section Runs
variable {pieces : List (List UInt8)} {j : Nat} {order : List Nat}

def arrived (pieces : List (List UInt8)) (order : List Nat) : List Nat :=
  (List.range pieces.length).filter (· ∈ order)

theorem mem_arrived {k : Nat} : k ∈ arrived pieces order ↔ k < pieces.length ∧ k ∈ order := by
  simp [arrived]

theorem arrived_sorted (pieces : List (List UInt8)) (order : List Nat) :
    (arrived pieces order).Pairwise (· < ·) := List.pairwise_lt_range.filter _

theorem arrived_old (old : j ∈ order) : arrived pieces (order ++ [j]) = arrived pieces order :=
  List.filter_congr fun k _ => by
    simp only [List.mem_append, List.mem_singleton, decide_eq_decide]
    exact ⟨fun either => either.elim id fun same => same ▸ old, Or.inl⟩

theorem arrived_new (here : j < pieces.length) (new : j ∉ order) :
    arrived pieces (order ++ [j]) = (arrived pieces order).filter (· < j) ++
      j :: (arrived pieces order).filter (j < ·) := by
  have sorted := arrived_sorted pieces order
  refine (arrived_sorted pieces _).eq_of_mem_iff ?_ fun k => ?_
  · rw [List.pairwise_append, List.pairwise_cons]
    refine ⟨sorted.filter _, ⟨fun k member => ?_, sorted.filter _⟩, fun a left b right => ?_⟩
    · simpa using (List.mem_filter.mp member).2
    · have less : a < j := by simpa using (List.mem_filter.mp left).2
      rcases List.mem_cons.mp right with rfl | later
      · exact less
      · have greater : j < b := by simpa using (List.mem_filter.mp later).2
        exact Nat.lt_trans less greater
  · simp only [mem_arrived, List.mem_append, List.mem_cons, List.not_mem_nil, or_false,
      List.mem_filter, decide_eq_true_iff]
    constructor
    · rintro ⟨bound, old | rfl⟩
      · rcases Nat.lt_trichotomy k j with less | rfl | greater
        · exact Or.inl ⟨⟨bound, old⟩, less⟩
        · exact absurd old new
        · exact Or.inr (Or.inr ⟨⟨bound, old⟩, greater⟩)
      · exact Or.inr (Or.inl rfl)
    · rintro (⟨⟨bound, old⟩, -⟩ | rfl | ⟨⟨bound, old⟩, -⟩)
      · exact ⟨bound, Or.inl old⟩
      · exact ⟨here, Or.inr rfl⟩
      · exact ⟨bound, Or.inl old⟩

def entryOf (pieces : List (List UInt8)) (order : List Nat) : IpReassdata where
  p := (arrived pieces order).map (helper pieces)
  lastFrag := decide (pieces.length - 1 ∈ order)
  datagramLen := if pieces.length - 1 ∈ order then pieces.flatten.length else 0

def stateOf (pieces : List (List UInt8)) (order : List Nat) : Option IpReassdata :=
  if order = [] then none else some (entryOf pieces order)

theorem stateOf_getD (pieces : List (List UInt8)) (order : List Nat) :
    (stateOf pieces order).getD ⟨[], false, 0⟩ = entryOf pieces order := by
  unfold stateOf
  split
  case isTrue empty => simp [empty, entryOf, arrived]
  case isFalse _ => rfl

theorem Cut.entry_flags (cut : Cut pieces) (here : j < pieces.length) :
    (if (frag pieces j).mf = false then
      { entryOf pieces order with
        lastFrag := true
        datagramLen := ((frag pieces j).offset * 8 + (frag pieces j).bytes.length) % 65536 }
    else entryOf pieces order) =
      { entryOf pieces (order ++ [j]) with p := (arrived pieces order).map (helper pieces) } := by
  by_cases last : j + 1 < pieces.length
  · have other : pieces.length - 1 ≠ j := by omega
    rw [if_neg (by simp [frag, last])]
    simp [entryOf, other]
  · have same : pieces.length - 1 = j := by omega
    rw [if_pos (by simp [frag, last]), cut.frag_stop here, show j + 1 = pieces.length by omega,
      off_all]
    simp [entryOf, same]

theorem startsAtZero_iff (cut : Cut pieces) {l : List Nat} (inside : ∀ k ∈ l, k < pieces.length)
    (sorted : l.Pairwise (· < ·)) : startsAtZero (l.map (helper pieces)) = true ↔ 0 ∈ l := by
  cases l with
  | nil => simp [startsAtZero]
  | cons k l =>
    have zero : (helper pieces k).start = 0 ↔ k = 0 :=
      cut.off_inj (m := 0) (Nat.le_of_lt (inside k (by simp))) (Nat.zero_le _)
    rw [List.map_cons, startsAtZero, beq_iff_eq, zero, List.mem_cons]
    refine ⟨fun same => Or.inl same.symm, fun either => either.elim Eq.symm fun later => ?_⟩
    have above := List.rel_of_pairwise_cons sorted later
    omega

theorem closes_arrived (bound : ∀ k ∈ order, k < pieces.length) :
    Closes pieces.length (arrived pieces order) j ↔ Closes pieces.length order j := by
  have same : ∀ k, k ∈ arrived pieces order ↔ k ∈ order := fun k =>
    mem_arrived.trans ⟨And.right, fun member => ⟨bound k member, member⟩⟩
  simp only [Closes, List.mem_cons, same]

theorem Cut.chain_spec (cut : Cut pieces) (here : j < pieces.length)
    (bound : ∀ k ∈ order, k < pieces.length) :
    ipReassChainFragIntoDatagramAndValidate
      { entryOf pieces (order ++ [j]) with p := (arrived pieces order).map (helper pieces) }
        (helper pieces j) =
      (decide (Closes pieces.length order j),
        (arrived pieces (order ++ [j])).map (helper pieces)) := by
  have inside : ∀ k ∈ arrived pieces order, k < pieces.length := fun k member =>
    (mem_arrived.mp member).1
  have sorted := arrived_sorted pieces order
  rw [ipReassChainFragIntoDatagramAndValidate]
  by_cases old : j ∈ order
  · have closed : ¬ Closes pieces.length order j := fun closes => closes.1 old
    have freed := cut.place_old here inside sorted (mem_arrived.mpr ⟨here, old⟩) none true
    rw [Option.map_none] at freed
    dsimp only
    rw [freed, decide_eq_false closed, arrived_old old]
  · have new : j ∉ arrived pieces order := fun member => old (mem_arrived.mp member).2
    have placed := cut.place_new here inside sorted new none (by simp) true
    rw [Option.map_none] at placed
    dsimp only
    rw [placed]
    dsimp only
    have whole := arrived_new here old
    have joined : (((arrived pieces order).filter (· < j)).map (helper pieces) ++
        helper pieces j :: ((arrived pieces order).filter (j < ·)).map (helper pieces)) =
        (arrived pieces (order ++ [j])).map (helper pieces) := by
      rw [whole, List.map_append, List.map_cons]
    rw [joined, Prod.mk.injEq]
    refine ⟨?_, rfl⟩
    have every : ∀ k ∈ arrived pieces (order ++ [j]), k < pieces.length := fun k member =>
      (mem_arrived.mp member).1
    have behind : ∀ k ∈ j :: (arrived pieces order).filter (j < ·), k < pieces.length :=
      List.forall_mem_cons.mpr ⟨here, fun k member => inside k (List.mem_filter.mp member).1⟩
    have mem {k : Nat} (low : k < pieces.length) :
        k ∈ order ++ [j] ↔ k ∈ j :: arrived pieces order := by
      simp only [List.mem_append, List.mem_cons, List.not_mem_nil, or_false, mem_arrived, low,
        true_and]
      exact or_comm
    have some : 0 < pieces.length := Nat.lt_of_le_of_lt (Nat.zero_le j) here
    rw [Bool.eq_iff_iff, decide_eq_true_iff, ← closes_arrived bound,
      closes_iff (List.forall_mem_cons.mpr ⟨here, inside⟩) sorted new]
    simp only [Bool.and_eq_true, Bool.true_and, decide_eq_true_iff,
      startsAtZero_iff cut every (arrived_sorted pieces _), cut.noHoles_iff behind, entryOf,
      mem_arrived, mem some, mem (show pieces.length - 1 < pieces.length by omega), some, true_and]
    tauto

theorem Cut.reass_step (cut : Cut pieces) (here : j < pieces.length)
    (bound : ∀ k ∈ order, k < pieces.length) :
    ipReassEntry (frag pieces j) (stateOf pieces order) =
      if Closes pieces.length order j then
        (some ⟨pieces.flatten.length + 20,
          (arrived pieces (order ++ [j])).flatMap (pieces.getD · [])⟩, none)
      else (none, stateOf pieces (order ++ [j])) := by
  have short := cut.short
  rw [ipReassEntry, stateOf_getD, cut.entry_flags here, cut.frag_helper here, cut.chain_spec here bound]
  by_cases closes : Closes pieces.length order j
  · have last : pieces.length - 1 ∈ order ++ [j] := by
      have either := List.mem_cons.mp closes.2.2.1
      simp only [List.mem_append, List.mem_singleton]
      exact either.symm
    rw [if_pos closes, decide_eq_true closes]
    dsimp only
    rw [entryOf, if_pos last, List.flatMap_map,
      Nat.mod_eq_of_lt (show pieces.flatten.length + 20 < 65536 by omega)]
    rfl
  · rw [if_neg closes, decide_eq_false closes, stateOf, if_neg (by simp)]
    rfl

theorem Cut.waiting (cut : Cut pieces) (bound : ∀ k ∈ order, k < pieces.length)
    (waiting : ∀ o ∈ outputs ipReassEntry (order.map (frag pieces)) none, o = none) :
    final ipReassEntry (order.map (frag pieces)) none = stateOf pieces order := by
  induction order using List.reverseRecOn with
  | nil => rfl
  | append_singleton order j ih =>
    rw [List.map_append, outputs_append, List.forall_mem_append] at waiting
    have before := ih (fun k member => bound k (by simp [member])) waiting.1
    have here := bound j (by simp)
    have now := waiting.2
    rw [List.map_append, final_append, before]
    rw [before, List.map_singleton, outputs_cons, outputs_nil, List.forall_mem_singleton,
      cut.reass_step here (fun k member => bound k (by simp [member]))] at now
    rw [List.map_singleton, final_cons, final_nil,
      cut.reass_step here (fun k member => bound k (by simp [member]))]
    by_cases closes : Closes pieces.length order j
    · rw [if_pos closes] at now
      cases now
    · rw [if_neg closes]

theorem range_flatMap (pieces : List (List UInt8)) :
    (List.range pieces.length).flatMap (pieces.getD · []) = pieces.flatten := by
  rw [List.flatMap_def]
  refine congrArg List.flatten (List.ext_getElem (by simp) fun k first second => ?_)
  simp [List.getD_eq_getElem?_getD, second]

theorem Cut.whole_iff (cut : Cut pieces) (order : List Nat) :
    (arrived pieces order).flatMap (pieces.getD · []) = pieces.flatten ↔
      ∀ k < pieces.length, k ∈ order := by
  constructor
  · intro whole k bound
    by_contra missing
    have parts := (List.filter_append_perm (fun m => decide (m ∈ order))
      (List.range pieces.length)).flatMap_right (pieces.getD · [])
    have lengths := parts.length_eq
    rw [range_flatMap, List.flatMap_append, List.length_append] at lengths
    obtain ⟨byte, member⟩ := List.exists_mem_of_ne_nil _ (cut.full k bound)
    have left : k ∈ (List.range pieces.length).filter (fun m => !decide (m ∈ order)) := by
      simp [bound, missing]
    have there : byte ∈ ((List.range pieces.length).filter (fun m => !decide (m ∈ order))).flatMap
        (pieces.getD · []) := List.mem_flatMap.mpr ⟨k, left, member⟩
    have some := List.length_pos_of_mem there
    have same := congrArg List.length whole
    rw [arrived] at same
    omega
  · intro all
    have every : (List.range pieces.length).filter (· ∈ order) = List.range pieces.length :=
      List.filter_eq_self.mpr fun k member => decide_eq_true (all k (List.mem_range.mp member))
    rw [arrived, every, range_flatMap]

end Runs

end BoxFirmware.IpReass
