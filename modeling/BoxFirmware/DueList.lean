import Mathlib.Data.List.MinMax

/-! Things that are due at times, in a list in the order in which they are due, and of those
with one time in the order in which they came. The list is what is left of the bag of all
that came, sorted, under insertion and removal. It may hold the differences of the times. -/
namespace BoxFirmware.DueList

variable {β : Type}

def insertDue (x : Nat × β) : List (Nat × β) → List (Nat × β)
  | [] => [x]
  | y :: l => if x.1 < y.1 then x :: y :: l else y :: insertDue x l

def inOrder (bag : List (Nat × β)) : List (Nat × β) := bag.foldl (fun l x => insertDue x l) []

def Ordered (l : List (Nat × β)) : Prop := l.Pairwise (fun x y => x.1 ≤ y.1)

section Order
variable {x y : Nat × β} {l bag : List (Nat × β)}

theorem inOrder_concat (bag : List (Nat × β)) (x : Nat × β) :
    inOrder (bag ++ [x]) = insertDue x (inOrder bag) := List.foldl_concat _ _ _ _

theorem insertDue_perm (x : Nat × β) (l : List (Nat × β)) : (insertDue x l).Perm (x :: l) := by
  induction l with
  | nil => exact List.Perm.refl _
  | cons y l ih =>
    rw [insertDue]
    split
    · exact List.Perm.refl _
    · exact (ih.cons y).trans (List.Perm.swap x y l)

theorem inOrder_perm (bag : List (Nat × β)) : (inOrder bag).Perm bag := by
  induction bag using List.reverseRecOn with
  | nil => exact List.Perm.refl _
  | append_singleton bag x ih =>
    rw [inOrder_concat]
    exact (insertDue_perm x _).trans ((ih.cons x).trans (List.perm_append_singleton x bag).symm)

theorem insertDue_ordered (ordered : Ordered l) : Ordered (insertDue x l) := by
  induction l with
  | nil => exact List.pairwise_singleton _ x
  | cons y l ih =>
    obtain ⟨first, rest⟩ := List.pairwise_cons.mp ordered
    rw [insertDue]
    split
    case isTrue earlier =>
      refine List.pairwise_cons.mpr ⟨List.forall_mem_cons.mpr ⟨Nat.le_of_lt earlier, ?_⟩, ordered⟩
      exact fun z member => Nat.le_trans (Nat.le_of_lt earlier) (first z member)
    case isFalse later =>
      refine List.pairwise_cons.mpr ⟨fun z member => ?_, ih rest⟩
      rcases List.mem_cons.mp ((insertDue_perm x l).mem_iff.mp member) with rfl | old
      · exact Nat.le_of_not_lt later
      · exact first z old

theorem inOrder_ordered (bag : List (Nat × β)) : Ordered (inOrder bag) := by
  induction bag using List.reverseRecOn with
  | nil => exact List.Pairwise.nil
  | append_singleton bag x ih =>
    rw [inOrder_concat]
    exact insertDue_ordered ih

theorem insertDue_head (x : Nat × β) (l : List (Nat × β)) :
    (insertDue x l).head? = match l.head? with
      | none => some x
      | some y => if x.1 < y.1 then some x else some y := by
  cases l with
  | nil => rfl
  | cons y l =>
    rw [insertDue, List.head?_cons]
    dsimp only
    split <;> rfl

theorem inOrder_head (bag : List (Nat × β)) : (inOrder bag).head? = bag.argmin Prod.fst := by
  induction bag using List.reverseRecOn with
  | nil => rfl
  | append_singleton bag x ih =>
    rw [inOrder_concat, insertDue_head, ih, List.argmin_concat]
    cases bag.argmin Prod.fst <;> rfl

theorem insertDue_filter (p : Nat × β → Bool) (ordered : Ordered l) :
    (insertDue x l).filter p = if p x then insertDue x (l.filter p) else l.filter p := by
  induction l with
  | nil =>
    rw [insertDue, List.filter_cons]
    rfl
  | cons y l ih =>
    obtain ⟨first, rest⟩ := List.pairwise_cons.mp ordered
    rw [insertDue]
    split
    case isTrue earlier =>
      rw [List.filter_cons]
      split
      case isFalse _ => rfl
      case isTrue _ =>
        -- what is left of the list is still due later than the new one
        cases kept : (y :: l).filter p with
        | nil => rfl
        | cons z rest' =>
          have member : z ∈ y :: l := List.mem_of_mem_filter (kept ▸ List.mem_cons_self)
          have later : x.1 < z.1 := by
            rcases List.mem_cons.mp member with rfl | old
            · exact earlier
            · exact Nat.lt_of_lt_of_le earlier (first z old)
          rw [insertDue, if_pos later]
    case isFalse later =>
      rw [List.filter_cons, List.filter_cons, ih rest]
      split
      · split
        · rw [insertDue, if_neg later]
        · rfl
      · rfl

theorem inOrder_filter (p : Nat × β → Bool) (bag : List (Nat × β)) :
    (inOrder bag).filter p = inOrder (bag.filter p) := by
  induction bag using List.reverseRecOn with
  | nil => rfl
  | append_singleton bag x ih =>
    rw [inOrder_concat, insertDue_filter p (inOrder_ordered bag), ih, List.filter_append]
    cases holds : p x with
    | true =>
      rw [if_pos rfl, List.filter_cons_of_pos holds, List.filter_nil, inOrder_concat]
    | false =>
      rw [if_neg Bool.false_ne_true, List.filter_cons_of_neg (by simp [holds]), List.filter_nil,
        List.append_nil]

/-- The first that matches is the first to come of the matching ones due first. -/
theorem inOrder_find (p : Nat × β → Bool) (bag : List (Nat × β)) :
    (inOrder bag).find? p = (bag.filter p).argmin Prod.fst := by
  rw [← List.head?_filter, inOrder_filter, inOrder_head]

variable [BEq β] [LawfulBEq β]

theorem insertDue_erase_new (x : Nat × β) (l : List (Nat × β)) (new : x ∉ l) :
    (insertDue x l).erase x = l := by
  induction l with
  | nil => exact List.erase_cons_head x []
  | cons y l ih =>
    have other : y ≠ x := fun same => new (same ▸ List.mem_cons_self)
    rw [insertDue]
    split
    · exact List.erase_cons_head x (y :: l)
    · rw [List.erase_cons_tail (by simpa using other),
        ih (fun member => new (List.mem_cons_of_mem y member))]

theorem insertDue_erase (ordered : Ordered l) (member : y ∈ l) :
    (insertDue x l).erase y = insertDue x (l.erase y) := by
  induction l with
  | nil => cases member
  | cons z l ih =>
    obtain ⟨first, rest⟩ := List.pairwise_cons.mp ordered
    rw [insertDue]
    split
    case isTrue earlier =>
      have other : x ≠ y := by
        rintro rfl
        rcases List.mem_cons.mp member with rfl | old
        · exact Nat.lt_irrefl _ earlier
        · have later := first x old
          omega
      rw [List.erase_cons_tail (by simpa using other)]
      cases kept : (z :: l).erase y with
      | nil => rfl
      | cons w rest' =>
        have old : w ∈ z :: l := List.mem_of_mem_erase (kept ▸ List.mem_cons_self)
        have later : x.1 < w.1 := by
          rcases List.mem_cons.mp old with rfl | old'
          · exact earlier
          · exact Nat.lt_of_lt_of_le earlier (first w old')
        rw [insertDue, if_pos later]
    case isFalse later =>
      by_cases same : z = y
      · subst same
        rw [List.erase_cons_head, List.erase_cons_head]
      · have member' : y ∈ l := (List.mem_cons.mp member).resolve_left (fun h => same h.symm)
        rw [List.erase_cons_tail (by simpa using same), List.erase_cons_tail (by simpa using same),
          ih rest member', insertDue, if_neg later]

theorem inOrder_erase (bag : List (Nat × β)) (x : Nat × β) :
    (inOrder bag).erase x = inOrder (bag.erase x) := by
  induction bag using List.reverseRecOn with
  | nil => rfl
  | append_singleton bag y ih =>
    rw [inOrder_concat]
    by_cases member : x ∈ bag
    · rw [insertDue_erase (inOrder_ordered bag) ((inOrder_perm bag).mem_iff.mpr member), ih,
        List.erase_append_left _ member, inOrder_concat]
    · have new : x ∉ inOrder bag := fun old => member ((inOrder_perm bag).mem_iff.mp old)
      rw [List.erase_append_right _ member]
      by_cases same : y = x
      · subst same
        rw [insertDue_erase_new _ _ new, List.erase_cons_head, List.append_nil]
      · have out : x ∉ insertDue y (inOrder bag) := fun old =>
          (List.mem_cons.mp ((insertDue_perm y _).mem_iff.mp old)).elim (fun h => same h.symm) new
        rw [List.erase_of_not_mem out, List.erase_of_not_mem (by simpa using fun h => same h.symm),
          inOrder_concat]

end Order

section Deltas

def absolute (base : Nat) : List (Nat × β) → List (Nat × β)
  | [] => []
  | (d, b) :: l => (base + d, b) :: absolute (base + d) l

variable {base d w : Nat} {b : β} {l : List (Nat × β)}

@[simp] theorem absolute_length (base : Nat) (l : List (Nat × β)) :
    (absolute base l).length = l.length := by
  induction l generalizing base with
  | nil => rfl
  | cons x l ih => exact congrArg (· + 1) (ih (base + x.1))

theorem absolute_things (base : Nat) (l : List (Nat × β)) :
    (absolute base l).map Prod.snd = l.map Prod.snd := by
  induction l generalizing base with
  | nil => rfl
  | cons x l ih => exact congrArg (x.2 :: ·) (ih (base + x.1))

theorem absolute_le {x : Nat × β} (member : x ∈ absolute base l) : base ≤ x.1 := by
  induction l generalizing base with
  | nil => cases member
  | cons y l ih =>
    rcases List.mem_cons.mp member with rfl | later
    · exact Nat.le_add_right _ _
    · exact Nat.le_trans (Nat.le_add_right _ _) (ih later)

def insertDelta (d : Nat) (b : β) : List (Nat × β) → List (Nat × β)
  | [] => [(d, b)]
  | (e, c) :: l => if d < e then (d, b) :: (e - d, c) :: l else (e, c) :: insertDelta (d - e) b l

theorem absolute_insert (base d : Nat) (b : β) (l : List (Nat × β)) :
    absolute base (insertDelta d b l) = insertDue (base + d, b) (absolute base l) := by
  induction l generalizing base d with
  | nil => rfl
  | cons y l ih =>
    rw [insertDelta, absolute, insertDue]
    by_cases earlier : d < y.1
    · rw [if_pos earlier, if_pos (Nat.add_lt_add_left earlier base), absolute, absolute,
        show base + d + (y.1 - d) = base + y.1 by omega]
    · rw [if_neg earlier, if_neg (fun h => earlier (Nat.lt_of_add_lt_add_left h)), absolute, ih,
        show base + y.1 + (d - y.1) = base + d by omega]

theorem absolute_advance (base : Nat) (b : β) (l : List (Nat × β)) (within : w ≤ d) :
    absolute (base + w) ((d - w, b) :: l) = absolute base ((d, b) :: l) := by
  rw [absolute, absolute, show base + w + (d - w) = base + d by omega]

def later (d : Nat) : List (Nat × β) → List (Nat × β)
  | [] => []
  | (e, c) :: l => (e + d, c) :: l

theorem absolute_later (base d : Nat) (l : List (Nat × β)) :
    absolute base (later d l) = absolute (base + d) l := by
  cases l with
  | nil => rfl
  | cons y l => rw [later, absolute, absolute, show base + (y.1 + d) = base + d + y.1 by omega]

def removeDelta (p : β → Bool) : List (Nat × β) → List (Nat × β)
  | [] => []
  | (d, b) :: l => if p b then later d l else (d, b) :: removeDelta p l

theorem absolute_remove (base : Nat) (p : β → Bool) (l : List (Nat × β)) :
    absolute base (removeDelta p l) = (absolute base l).eraseP (fun x => p x.2) := by
  induction l generalizing base with
  | nil => rfl
  | cons y l ih =>
    obtain ⟨d, b⟩ := y
    rw [removeDelta, absolute, List.eraseP_cons]
    dsimp only
    by_cases here : p b = true
    · rw [if_pos here, here, cond_true, absolute_later]
    · rw [if_neg here, Bool.eq_false_iff.mpr here, cond_false, absolute, ih]

theorem eraseP_eq_erase [BEq β] [LawfulBEq β] (p : Nat × β → Bool) (l : List (Nat × β)) :
    l.eraseP p = match l.find? p with
      | none => l
      | some x => l.erase x := by
  induction l with
  | nil => rfl
  | cons y l ih =>
    rw [List.eraseP_cons, List.find?_cons]
    cases here : p y with
    | true =>
      dsimp only [cond_true]
      exact (List.erase_cons_head y l).symm
    | false =>
      rw [cond_false, ih]
      cases found : l.find? p with
      | none => rfl
      | some x =>
        have other : y ≠ x := by
          rintro rfl
          exact absurd (here.symm.trans (List.find?_some found)) (by decide)
        dsimp only
        rw [List.erase_cons_tail (by simpa using other)]

end Deltas

end BoxFirmware.DueList
