import BoxFirmware.IpReassTable

/-! `ip_frag` in `ip_frag.c`, for a datagram that is no fragment itself and with the memory that it
asks for. A datagram is a chain of pbufs, and its fragments point into them. Sent in order they
are put together to what they were. -/
namespace BoxFirmware.IpFrag
open GuardedRun IpReass IpReassTable

abbrev ipHlen : Nat := 20

/-- `p->payload` and `p->len` are moved by `poff`. -/
def advance (poff : Nat) : List (List UInt8) → List (List UInt8)
  | [] => []
  | b :: rest => b.drop poff :: rest

/-- The loop over `left_to_copy`: the bytes of the new pbufs, `newpbuflen`, and where `p` is. -/
def mirror (leftToCopy : Nat) : List (List UInt8) → List UInt8 × Nat × List (List UInt8)
  | [] => ([], 0, [])
  | b :: rest =>
    let newpbuflen := if leftToCopy < b.length then leftToCopy else b.length
    if newpbuflen = 0 then mirror leftToCopy rest
    else if leftToCopy - newpbuflen = 0 then (b.take newpbuflen, newpbuflen, b :: rest)
    else
      let (bytes, len, p) := mirror (leftToCopy - newpbuflen) rest
      (b.take newpbuflen ++ bytes, len, p)

/-- The loop over `left`, which is a round for a byte at most. -/
def fragments (mtu : Nat) : (fuel left ofo poff : Nat) → List (List UInt8) → List Frag
  | 0, _, _, _, _ => []
  | fuel + 1, left, ofo, poff, p =>
    if left = 0 then []
    else
      let nfb := (mtu - ipHlen) / 8
      let last := decide (left ≤ mtu - ipHlen)
      let cop := if last then left else nfb * 8
      let (bytes, newpbuflen, p) := mirror cop (advance poff p)
      ⟨ofo % 8192, !last, bytes⟩ :: fragments mtu fuel (left - cop) (ofo + nfb) newpbuflen p

def ipFrag (mtu : Nat) (p : List (List UInt8)) : List Frag :=
  let left := p.flatten.length - ipHlen
  fragments mtu left left 0 ipHlen p

section Mirror

theorem mirror_spec (left : Nat) (p : List (List UInt8)) (some : 0 < left)
    (enough : left ≤ p.flatten.length) :
    (mirror left p).1 = p.flatten.take left ∧
      (advance (mirror left p).2.1 (mirror left p).2.2).flatten = p.flatten.drop left := by
  induction p generalizing left with
  | nil =>
    simp only [List.flatten_nil, List.length_nil] at enough
    omega
  | cons b rest ih =>
    rw [List.flatten_cons, List.length_append] at enough
    rw [mirror]
    dsimp only
    generalize len : (if left < b.length then left else b.length) = newpbuflen
    have value : newpbuflen = min left b.length := by
      rw [← len]
      split <;> omega
    by_cases empty : newpbuflen = 0
    · have nil : b = [] := List.eq_nil_of_length_eq_zero (by omega)
      rw [if_pos empty]
      subst nil
      exact ih left some (by simpa using enough)
    rw [if_neg empty]
    by_cases done : left - newpbuflen = 0
    · have within : left ≤ b.length := by omega
      have same : newpbuflen = left := by omega
      rw [if_pos done, same]
      refine ⟨?_, ?_⟩
      · rw [List.flatten_cons, List.take_append_of_le_length within]
      · rw [advance, List.flatten_cons, List.flatten_cons, List.drop_append_of_le_length within]
    · have whole : newpbuflen = b.length := by omega
      obtain ⟨bytes, next⟩ := ih (left - newpbuflen) (by omega) (by omega)
      rw [if_neg done]
      dsimp only
      rw [bytes, next, whole, List.flatten_cons]
      refine ⟨?_, ?_⟩
      · rw [List.take_append, List.take_length, List.take_of_length_le (by omega : b.length ≤ left)]
      · rw [List.drop_append, List.drop_of_length_le (by omega : b.length ≤ left), List.nil_append]

end Mirror

section Pieces

def pieces (mtu : Nat) : (fuel : Nat) → List UInt8 → List (List UInt8)
  | 0, _ => []
  | fuel + 1, data =>
    if data.length = 0 then []
    else if data.length ≤ mtu - ipHlen then [data]
    else
      data.take ((mtu - ipHlen) / 8 * 8) :: pieces mtu fuel (data.drop ((mtu - ipHlen) / 8 * 8))

def numbered (nfb : Nat) : (ofo : Nat) → List (List UInt8) → List Frag
  | _, [] => []
  | ofo, b :: rest => ⟨ofo % 8192, decide (rest ≠ []), b⟩ :: numbered nfb (ofo + nfb) rest

variable {mtu fuel : Nat} {data : List UInt8}

theorem pieces_ne_nil (some : data ≠ []) (enough : data.length ≤ fuel) :
    pieces mtu fuel data ≠ [] := by
  have positive := List.length_pos_of_ne_nil some
  cases fuel with
  | zero => omega
  | succ fuel =>
    rw [pieces, if_neg (by omega)]
    split <;> simp

theorem fragments_eq (large : 28 ≤ mtu) (ofo poff : Nat) (p : List (List UInt8))
    (enough : (advance poff p).flatten.length ≤ fuel) :
    fragments mtu fuel (advance poff p).flatten.length ofo poff p =
      numbered ((mtu - ipHlen) / 8) ofo (pieces mtu fuel (advance poff p).flatten) := by
  induction fuel generalizing ofo poff p with
  | zero => rfl
  | succ fuel ih =>
    generalize same : (advance poff p).flatten = data at enough
    rw [fragments, pieces]
    by_cases empty : data.length = 0
    · rw [if_pos empty, if_pos empty]
      rfl
    have full : 0 < (mtu - ipHlen) / 8 * 8 := by
      simp only [ipHlen]
      omega
    rw [if_neg empty, if_neg empty]
    dsimp only
    by_cases last : data.length ≤ mtu - ipHlen
    · obtain ⟨bytes, next⟩ := mirror_spec data.length (advance poff p) (by omega) (by rw [same])
      rw [decide_eq_true last, if_pos last, if_pos rfl, bytes, same, List.take_length, Nat.sub_self]
      cases fuel <;> rfl
    · have shorter : (mtu - ipHlen) / 8 * 8 < data.length := by
        simp only [ipHlen] at last ⊢
        omega
      obtain ⟨bytes, next⟩ := mirror_spec ((mtu - ipHlen) / 8 * 8) (advance poff p) full
        (by rw [same]; omega)
      rw [same] at bytes next
      have rest := ih (ofo + (mtu - ipHlen) / 8) _ _ (by
        rw [next, List.length_drop]
        omega)
      rw [next, List.length_drop] at rest
      have more : pieces mtu fuel (data.drop ((mtu - ipHlen) / 8 * 8)) ≠ [] := by
        refine pieces_ne_nil (fun none => ?_) ?_
        · have length := congrArg List.length none
          rw [List.length_drop, List.length_nil] at length
          omega
        · rw [List.length_drop]
          omega
      rw [decide_eq_false last, if_neg last, if_neg Bool.false_ne_true, numbered, bytes, rest,
        decide_eq_true more]
      rfl

theorem pieces_flatten (enough : data.length ≤ fuel) (large : 28 ≤ mtu) :
    (pieces mtu fuel data).flatten = data := by
  induction fuel generalizing data with
  | zero => exact (List.eq_nil_of_length_eq_zero (Nat.le_zero.mp enough)).symm
  | succ fuel ih =>
    rw [pieces]
    split
    case isTrue empty => exact (List.eq_nil_of_length_eq_zero empty).symm
    case isFalse some =>
      split
      · simp
      · rw [List.flatten_cons, ih (by
          rw [List.length_drop]
          simp only [ipHlen]
          omega), List.take_append_drop]

theorem pieces_length (k : Nat) (more : k + 1 < (pieces mtu fuel data).length) :
    ((pieces mtu fuel data).getD k []).length = (mtu - ipHlen) / 8 * 8 := by
  induction fuel generalizing data k with
  | zero => simp [pieces] at more
  | succ fuel ih =>
    rw [pieces] at more ⊢
    split at more
    case isTrue _ => simp at more
    case isFalse some =>
      split at more
      case isTrue _ => simp at more
      case isFalse long =>
        rw [if_neg some, if_neg long]
        cases k with
        | zero =>
          rw [List.getD_cons_zero, List.length_take]
          simp only [ipHlen] at long ⊢
          omega
        | succ k =>
          rw [List.getD_cons_succ]
          exact ih k (by simpa using more)

theorem pieces_fit (large : 28 ≤ mtu) :
    ∀ b ∈ pieces mtu fuel data, b ≠ [] ∧ b.length + ipHlen ≤ mtu := by
  induction fuel generalizing data with
  | zero => simp [pieces]
  | succ fuel ih =>
    rw [pieces]
    split
    case isTrue _ => simp
    case isFalse some =>
      split
      case isTrue short =>
        rw [List.forall_mem_singleton]
        refine ⟨fun none => some (by rw [none, List.length_nil]), ?_⟩
        simp only [ipHlen] at short ⊢
        omega
      case isFalse long =>
        have length : (data.take ((mtu - ipHlen) / 8 * 8)).length = (mtu - ipHlen) / 8 * 8 := by
          rw [List.length_take]
          simp only [ipHlen] at long ⊢
          omega
        refine List.forall_mem_cons.mpr ⟨⟨fun none => ?_, ?_⟩, ih⟩
        · rw [none, List.length_nil] at length
          simp only [ipHlen] at length
          omega
        · rw [length]
          simp only [ipHlen]
          omega

theorem pieces_cut (large : 28 ≤ mtu) (enough : data.length ≤ fuel) (some : data ≠ [])
    (short : data.length ≤ 65515) : Cut (pieces mtu fuel data) where
  nonempty := pieces_ne_nil some enough
  full k bound := (pieces_fit large _ (piece_mem bound)).1
  eight k bound := by
    rw [pieces_length k (by omega)]
    omega
  short := by
    rw [pieces_flatten enough large]
    exact short

theorem pieces_off (k : Nat) (inside : k < (pieces mtu fuel data).length) :
    off (pieces mtu fuel data) k = k * ((mtu - ipHlen) / 8 * 8) := by
  induction k with
  | zero => rw [Nat.zero_mul]; rfl
  | succ k ih =>
    rw [off_succ _ (by omega), ih (by omega), pieces_length k inside, Nat.add_one_mul]

theorem numbered_length (nfb ofo : Nat) (l : List (List UInt8)) :
    (numbered nfb ofo l).length = l.length := by
  induction l generalizing ofo with
  | nil => rfl
  | cons b rest ih => exact congrArg (· + 1) (ih (ofo + nfb))

theorem numbered_get (nfb ofo : Nat) (l : List (List UInt8)) (k : Nat)
    (inside : k < (numbered nfb ofo l).length) : (numbered nfb ofo l)[k] =
      ⟨(ofo + k * nfb) % 8192, decide (k + 1 < l.length), l.getD k []⟩ := by
  induction l generalizing ofo k with
  | nil => simp [numbered] at inside
  | cons b rest ih =>
    cases k with
    | zero =>
      have more : (rest ≠ []) ↔ 0 + 1 < (b :: rest).length := by
        cases rest <;> simp
      simp [numbered, more]
    | succ k =>
      have next := ih (ofo + nfb) k (by simpa [numbered] using inside)
      simp only [numbered, List.getElem_cons_succ, next, List.getD_cons_succ, List.length_cons,
        Nat.add_lt_add_iff_right, Nat.add_one_mul]
      rw [show ofo + nfb + k * nfb = ofo + (k * nfb + nfb) by omega]

theorem numbered_frags (large : 28 ≤ mtu) (enough : data.length ≤ fuel) (some : data ≠ [])
    (short : data.length ≤ 65515) :
    numbered ((mtu - ipHlen) / 8) 0 (pieces mtu fuel data) =
      (List.range (pieces mtu fuel data).length).map (frag (pieces mtu fuel data)) := by
  refine List.ext_getElem (by simp [numbered_length]) fun k first second => ?_
  have inside : k < (pieces mtu fuel data).length := by simpa [numbered_length] using first
  have offset := pieces_off k inside
  have bound := (pieces_cut large enough some short).off_bound (Nat.le_of_lt inside)
  have eights : k * ((mtu - ipHlen) / 8 * 8) = k * ((mtu - ipHlen) / 8) * 8 :=
    (Nat.mul_assoc _ _ _).symm
  rw [numbered_get, List.getElem_map, List.getElem_range, frag, offset, eights, Nat.zero_add,
    Nat.mul_div_cancel _ (by decide), Nat.mod_eq_of_lt (by omega)]

end Pieces

/-- The fragments of a datagram as they come: in order, each in some pbufs. -/
def inOrder {κ : Type} (key : κ) (clen : Nat → Nat) (fragments : List Frag) : List (Event κ) :=
  fragments.mapIdx fun k f => .fragment key f (clen k)

section RoundTrip
variable {pieces : List (List UInt8)}

theorem in_order_waits (cut : Cut pieces) (k : Nat) (less : k < pieces.length) :
    outputs ipReassEntry ((List.range k).map (frag pieces)) none = List.replicate k none := by
  induction k with
  | zero => rfl
  | succ k ih =>
    have before := ih (by omega)
    have bound : ∀ m ∈ List.range k, m < pieces.length := fun m member =>
      Nat.lt_trans (List.mem_range.mp member) (by omega)
    have open' : ¬ Closes pieces.length (List.range k) k := fun closes => by
      rcases List.mem_cons.mp closes.2.2.1 with same | early
      · omega
      · have below := List.mem_range.mp early
        omega
    have state := cut.waiting bound (by
      rw [before]
      exact fun o member => List.eq_of_mem_replicate member)
    rw [List.range_succ, List.map_append, outputs_append, before, state, List.map_singleton,
      outputs_cons, outputs_nil, cut.reass_step (by omega) bound, if_neg open',
      List.replicate_succ']

theorem in_order_reassembled (cut : Cut pieces) :
    outputs ipReassEntry ((List.range pieces.length).map (frag pieces)) none =
      List.replicate (pieces.length - 1) none ++
        [some ⟨pieces.flatten.length + 20, pieces.flatten⟩] := by
  have positive := List.length_pos_of_ne_nil cut.nonempty
  obtain ⟨k, length⟩ : ∃ k, pieces.length = k + 1 := ⟨pieces.length - 1, by omega⟩
  have before := in_order_waits cut k (by omega)
  have bound : ∀ m ∈ List.range k, m < pieces.length := fun m member =>
    Nat.lt_trans (List.mem_range.mp member) (by omega)
  have state := cut.waiting bound (by
    rw [before]
    exact fun o member => List.eq_of_mem_replicate member)
  have all : ∀ m < pieces.length, m ∈ List.range k ++ [k] := fun m less => by
    rw [← List.range_succ, List.mem_range]
    omega
  have closes : Closes pieces.length (List.range k) k := by
    refine ⟨by simp, ?_, ?_, fun m less missing => ?_⟩
    · have first := all 0 positive
      simpa [or_comm] using first
    · rw [length]
      simp
    · have present := all m less
      exact absurd present (by simpa [or_comm] using missing)
  rw [length, List.range_succ, List.map_append, outputs_append, before, state, List.map_singleton,
    outputs_cons, outputs_nil, cut.reass_step (by omega) bound, if_pos closes,
    (cut.whole_iff _).mpr all, Nat.add_sub_cancel]

theorem inOrder_frags {κ : Type} (key : κ) (clen : Nat → Nat) : inOrder key clen
    ((List.range pieces.length).map (frag pieces)) =
      (List.range pieces.length).map (arrive key pieces clen) :=
  List.ext_getElem (by simp [inOrder]) fun k first second => by simp [inOrder, arrive]

end RoundTrip

/-- A datagram cut by `ip_frag` and put together by `ip_reass` while nothing else is waited for:
every fragment fits into the MTU, and if they are in ten pbufs at most, nothing is handed on before
the last one, and then the whole datagram is, under its length. -/
theorem fragments_reassembled {κ : Type} [DecidableEq κ] (key : κ) (mtu : Nat)
    (p : List (List UInt8)) (large : 28 ≤ mtu) (header : ∃ b rest, p = b :: rest ∧ ipHlen ≤ b.length)
    (some : ipHlen < p.flatten.length) (short : p.flatten.length ≤ 65535) (clen : Nat → Nat) :
    (∀ f ∈ ipFrag mtu p, f.bytes.length + ipHlen ≤ mtu) ∧
      (((List.range (ipFrag mtu p).length).map clen).sum ≤ maxPbufs →
        outputs receive (inOrder key clen (ipFrag mtu p)) (Option.some ⟨[], 0⟩) =
          List.replicate ((ipFrag mtu p).length - 1) none ++
            [Option.some ⟨p.flatten.length, p.flatten.drop ipHlen⟩]) := by
  obtain ⟨b, rest, rfl, long⟩ := header
  have payload : (advance ipHlen (b :: rest)).flatten = (b :: rest).flatten.drop ipHlen := by
    rw [advance, List.flatten_cons, List.flatten_cons, List.drop_append_of_le_length long]
  have same : (advance ipHlen (b :: rest)).flatten.length = (b :: rest).flatten.length - ipHlen := by
    rw [payload, List.length_drop]
  have frags := fragments_eq large 0 ipHlen (b :: rest) (Nat.le_of_eq same)
  rw [same, payload] at frags
  have enough : ((b :: rest).flatten.drop ipHlen).length ≤ (b :: rest).flatten.length - ipHlen := by
    rw [List.length_drop]
  have nonempty : (b :: rest).flatten.drop ipHlen ≠ [] := fun none => by
    have length := congrArg List.length none
    rw [List.length_drop, List.length_nil] at length
    omega
  have below : ((b :: rest).flatten.drop ipHlen).length ≤ 65515 := by
    rw [List.length_drop]
    simp only [ipHlen]
    omega
  rw [ipFrag, frags]
  have cut := pieces_cut large enough nonempty below
  rw [numbered_frags large enough nonempty below]
  refine ⟨?_, fun room => ?_⟩
  · intro f member
    obtain ⟨k, inside, rfl⟩ := List.mem_map.mp member
    exact (pieces_fit large _ (piece_mem (List.mem_range.mp inside))).2
  · rw [List.length_map, List.length_range] at room ⊢
    rw [inOrder_frags, show (⟨[], 0⟩ : Table κ) = tableOf key _ clen [] from (if_pos rfl).symm,
      receive_outputs cut room (fun k member => List.mem_range.mp member) [] (by simp)]
    rw [show stateOf _ [] = none from if_pos rfl, in_order_reassembled cut,
      pieces_flatten enough large, List.length_drop, Nat.sub_add_cancel (Nat.le_of_lt some)]

theorem fragments_reassembled_three :
    let p := [List.replicate 30 1, List.replicate 24 2]
    (∀ f ∈ ipFrag 36 p, f.bytes.length + ipHlen ≤ 36) ∧
      outputs receive (inOrder 0 (fun _ => 2) (ipFrag 36 p)) (some ⟨[], 0⟩) =
        [none, none, some ⟨54, List.replicate 10 1 ++ List.replicate 24 2⟩] := by
  intro p
  obtain ⟨fit, whole⟩ := fragments_reassembled 0 36 p (by decide) ⟨_, _, rfl, by decide⟩ (by decide)
    (by decide) (fun _ => 2)
  exact ⟨fit, (whole (by decide)).trans (by decide)⟩

end BoxFirmware.IpFrag
