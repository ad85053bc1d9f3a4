import BoxFirmware.GetGps

/-! What a call of `Get_Gps` leaves in `Save_Data`, against the sentence in `GPS_Buffer`. -/
namespace BoxFirmware.GetGps
open ByteMem CText Commit

def Field.number : Field → Nat
  | .utcTime => 1
  | .usefullBuffer => 2
  | .latitude => 3
  | .nS => 4
  | .longitude => 5
  | .eW => 6
  | .rate => 7
  | .direction => 8
  | .utcDate => 9

def parts (sentence : List UInt8) : List (List UInt8) := sentence.splitOn comma

def fieldOf (f : Field) (sentence : List UInt8) : List UInt8 :=
  ((parts sentence)[f.number]?).getD []

def Closed (f : Field) (sentence : List UInt8) : Prop := f.number + 1 < (parts sentence).length

instance (f : Field) (sentence : List UInt8) : Decidable (Closed f sentence) :=
  inferInstanceAs (Decidable (_ < _))

def Field.stored (f : Field) (s : St) : Option (List UInt8) :=
  f.address.map (fun a => cstr (slice s.mem a f.size))

def reported : List Field := [.utcTime, .latitude, .longitude, .utcDate]

/-- The flag says what the sentence says, and the arrays have its fields. -/
def Processed (s : St) (sentence : List UInt8) : Prop :=
  ∃ s', getGps s = some s' ∧
    (s'.mem isUsefull = 1 ↔ (fieldOf .usefullBuffer sentence).head? = some letterA) ∧
    ∀ f ∈ reported, f.stored s' = some (fieldOf f sentence)

section Sentence

variable {fs : List Field} {b : UInt8} {rest : List UInt8}

def padded (rest : List UInt8) (zeros : Nat) : List UInt8 := rest ++ List.replicate zeros 0

theorem copies_nil (fs : List Field) {bytes : List UInt8} (noComma : comma ∉ bytes.tail) :
    copies fs bytes = [] := by
  induction fs generalizing bytes with
  | nil => rfl
  | cons f fs ih =>
    have further : comma ∉ bytes.tail.tail := fun member => noComma (List.mem_of_mem_tail member)
    rw [copies]
    obtain ⟨field, behind, -, -, whole⟩ | ⟨field, behind, noComma', noZero, whole⟩ |
      ⟨noComma', noZero⟩ := bytes_cases bytes.tail
    · rw [whole] at noComma
      simp at noComma
    · rw [whole, strstrComma_missing noComma' noZero, ← whole]
      exact ih further
    · rw [strstrComma_leaves noComma' noZero]

/-- Behind the last comma each search starts one byte further on, and needs a zero. -/
theorem parses_plain (noComma : comma ∉ rest) (noZero : 0 ∉ rest) (zeros : Nat) :
    Parses fs (b :: padded rest zeros) ↔
      fs = [] ∨ (0 < zeros ∧ fs.length ≤ rest.length + zeros) := by
  induction fs generalizing b rest zeros with
  | nil => simp [Parses.done]
  | cons f fs ih =>
    cases zeros with
    | zero => simp [padded, not_parses_leaves noComma noZero]
    | succ zeros =>
      have behind : padded rest (zeros + 1) = rest ++ 0 :: List.replicate zeros 0 := rfl
      rw [behind, parses_missing noComma noZero, ← behind]
      cases rest with
      | nil =>
        have next : Parses fs (0 :: padded [] zeros) ↔ fs = [] ∨
            (0 < zeros ∧ fs.length ≤ ([] : List UInt8).length + zeros) :=
          ih List.not_mem_nil List.not_mem_nil zeros
        rw [show padded [] (zeros + 1) = 0 :: padded [] zeros from rfl, next]
        simp only [← List.length_eq_zero_iff, List.length_cons, List.length_nil]
        omega
      | cons c rest =>
        rw [List.mem_cons, not_or] at noComma noZero
        have next := ih (b := c) noComma.2 noZero.2 (zeros + 1)
        rw [show padded (c :: rest) (zeros + 1) = c :: padded rest (zeros + 1) from rfl, next]
        simp only [← List.length_eq_zero_iff, List.length_cons]
        omega

def closed (rest : List UInt8) : List (List UInt8) := (parts rest).dropLast

def Fit (cs : List (Field × List UInt8)) : Prop := ∀ c ∈ cs, c.2.length ≤ c.1.size

theorem parts_plain (noComma : comma ∉ rest) : parts rest = [rest] :=
  List.splitOn_eq_singleton noComma

theorem parts_cons {field : List UInt8} (noComma : comma ∉ field) :
    parts (field ++ comma :: rest) = field :: parts rest :=
  List.splitOn_append_cons_self_of_not_mem noComma rest

theorem parts_last {field : List UInt8} (noComma : comma ∉ field) :
    (parts (field ++ comma :: rest)).getLastD [] = (parts rest).getLastD [] := by
  rw [parts_cons noComma]
  cases whole : parts rest with
  | nil => exact absurd whole (List.splitOn_ne_nil comma rest)
  | cons p ps => simp

theorem closed_cons {field : List UInt8} (noComma : comma ∉ field) :
    closed (field ++ comma :: rest) = field :: closed rest := by
  rw [closed, parts_cons noComma]
  exact List.dropLast_cons_of_ne_nil (List.splitOn_ne_nil comma rest)

theorem comma_split (member : comma ∈ rest) (noZero : 0 ∉ rest) : ∃ field more,
    rest = field ++ comma :: more ∧ comma ∉ field ∧ 0 ∉ field ∧ 0 ∉ more := by
  obtain ⟨field, more, split, noComma⟩ := List.eq_append_cons_of_mem member
  rw [split] at noZero
  simp only [List.mem_append, List.mem_cons, not_or] at noZero
  exact ⟨field, more, split, noComma, noZero.1, noZero.2.2⟩

theorem copies_padded (noZero : 0 ∉ rest) (fit : Fit (fs.zip (closed rest))) (zeros : Nat) :
    copies fs (b :: padded rest zeros) = fs.zip (closed rest) := by
  induction fs generalizing b rest with
  | nil => rfl
  | cons f fs ih =>
    by_cases member : comma ∈ rest
    · obtain ⟨field, more, rfl, noComma, noZeros⟩ := comma_split member noZero
      rw [closed_cons noComma, List.zip_cons_cons] at fit ⊢
      have next := ih (b := comma) noZeros.2 (fun c hc => fit c (List.mem_cons_of_mem _ hc))
      rw [padded, List.append_assoc, List.cons_append, ← padded,
        copies_closed noComma noZeros.1, if_pos (fit _ List.mem_cons_self), next]
    · have none : comma ∉ padded rest zeros := by
        simp [padded, member, show comma ≠ 0 by decide]
      rw [copies_nil (f :: fs) (by simpa using none), closed, parts_plain member]
      rfl

theorem parses_padded (noZero : 0 ∉ rest) (fit : Fit (fs.zip (closed rest))) (zeros : Nat) :
    Parses fs (b :: padded rest zeros) ↔ fs.length < (parts rest).length ∨
      (0 < zeros ∧ fs.length < (parts rest).length + ((parts rest).getLastD []).length + zeros) := by
  induction fs generalizing b rest with
  | nil =>
    have some : 0 < (parts rest).length :=
      List.length_pos_of_ne_nil (List.splitOn_ne_nil comma rest)
    simp [Parses.done, some]
  | cons f fs ih =>
    by_cases member : comma ∈ rest
    · obtain ⟨field, more, rfl, noComma, noZeros⟩ := comma_split member noZero
      rw [closed_cons noComma, List.zip_cons_cons] at fit
      have next := ih (b := comma) noZeros.2 (fun c hc => fit c (List.mem_cons_of_mem _ hc))
      rw [parts_last noComma, padded, List.append_assoc, List.cons_append, ← padded,
        parses_closed noComma noZeros.1, next, parts_cons noComma]
      have fits := fit _ List.mem_cons_self
      simp only [fits, true_and, List.length_cons]
      omega
    · rw [parses_plain member noZero, parts_plain member]
      simp only [List.length_cons, List.length_nil, List.getLastD_cons, List.getLastD_nil,
        reduceCtorEq, false_or]
      omega

end Sentence

section Record

variable {f : Field} {a : Nat} {bytes : List UInt8} {s : St}

theorem arrays_apart {g : Field} {c : Nat} (place : f.address = some a) (other : g.address = some c)
    (differ : f ≠ g) : a + f.size ≤ c ∨ c + g.size ≤ a := by
  revert place other differ
  cases f <;> cases g <;> simp only [Field.address, Field.size, Option.some.injEq, reduceCtorEq,
    IsEmpty.forall_iff, ne_eq, not_true_eq_false, implies_true]
  all_goals omega

theorem flags_apart (place : f.address = some a) {i : Nat} (inside : i < f.size) :
    a + i ≠ isGetData ∧ a + i ≠ isParseData ∧ a + i ≠ isUsefull := by
  have flags : isGetData = 80 ∧ isParseData = 81 ∧ isUsefull = 120 := ⟨rfl, rfl, rfl⟩
  revert place inside
  cases f <;> simp only [Field.address, Field.size, Option.some.injEq, reduceCtorEq,
    IsEmpty.forall_iff]
  all_goals omega

theorem checkStatus_array (place : f.address = some a) (s : St) :
    slice (checkStatus s).mem a f.size = slice s.mem a f.size := by
  refine slice_congr (fun i inside => ?_)
  obtain ⟨-, parse, usefull⟩ := flags_apart place inside
  unfold checkStatus
  dsimp only
  split_ifs <;> simp [parse, usefull]

theorem clearGetData_array (place : f.address = some a) (s : St) :
    slice (clearGetData s).mem a f.size = slice s.mem a f.size :=
  slice_congr (fun _ inside => Function.update_of_ne (flags_apart place inside).1 _ _)

theorem put_array (place : f.address = some a) (fits : bytes.length ≤ f.size) (s : St) :
    slice (put f bytes s).mem a f.size = bytes ++ (slice s.mem a f.size).drop bytes.length := by
  obtain ⟨r, size⟩ := Nat.exists_eq_add_of_le fits
  have behind : slice (store s.mem a (ofList bytes) bytes.length) (a + bytes.length) r =
      slice s.mem (a + bytes.length) r := slice_store_apart _ _ _ _ _ _ (.inl (Nat.le_refl _))
  rw [put, checkStatus_array place, storeField, place]
  dsimp only
  rw [slice_drop, size, slice_add, slice_store, slice_ofList, behind, Nat.add_sub_cancel_left]

theorem put_other (place : f.address = some a) {g : Field} (differ : g ≠ f)
    (fits : bytes.length ≤ g.size) (s : St) :
    slice (put g bytes s).mem a f.size = slice s.mem a f.size := by
  rw [put, checkStatus_array place, storeField]
  cases target : g.address with
  | none => rfl
  | some c =>
    have apart := arrays_apart target place differ
    exact slice_store_apart _ _ _ _ _ _ (by omega)

variable {cs : List (Field × List UInt8)}

theorem puts_other (place : f.address = some a) (fit : Fit cs) (absent : f ∉ cs.map Prod.fst)
    (s : St) : slice (puts cs s).mem a f.size = slice s.mem a f.size := by
  induction cs generalizing s with
  | nil => rfl
  | cons c cs ih =>
    rw [List.map_cons, List.mem_cons, not_or] at absent
    have later := ih (fun d hd => fit d (List.mem_cons_of_mem c hd)) absent.2 (put c.1 c.2 s)
    rw [put_other place (Ne.symm absent.1) (fit c List.mem_cons_self)] at later
    exact later

theorem puts_array (place : f.address = some a) (fit : Fit cs) (once : (cs.map Prod.fst).Nodup)
    (member : (f, bytes) ∈ cs) (s : St) :
    slice (puts cs s).mem a f.size = bytes ++ (slice s.mem a f.size).drop bytes.length := by
  induction cs generalizing s with
  | nil => cases member
  | cons c cs ih =>
    have fitRest : Fit cs := fun d hd => fit d (List.mem_cons_of_mem c hd)
    obtain ⟨absent, onceRest⟩ := List.nodup_cons.mp once
    rcases List.mem_cons.mp member with rfl | later
    · have kept := puts_other place fitRest absent (put f bytes s)
      rw [put_array place (fit _ List.mem_cons_self)] at kept
      exact kept
    · have differ : c.1 ≠ f := by
        rintro rfl
        exact absent (List.mem_map.mpr ⟨_, later, rfl⟩)
      have rest := ih fitRest onceRest later (put c.1 c.2 s)
      rw [put_other place differ (fit c List.mem_cons_self)] at rest
      exact rest

theorem cstr_overwrite (noZero : 0 ∉ bytes) (n : Nat) (fits : bytes.length ≤ n) (m : Mem) :
    cstr (bytes ++ (slice m a n).drop bytes.length) = bytes ↔
      bytes.length = n ∨ m (a + bytes.length) = 0 := by
  rw [cstr_append _ noZero, List.append_right_eq_self, cstr_eq_nil, slice_drop,
    ← List.length_eq_zero_iff, slice_length]
  by_cases full : bytes.length = n
  · simp [full]
  · have first : (slice m (a + bytes.length) (n - bytes.length)).head? =
        some (m (a + bytes.length)) := by
      rw [List.head?_eq_getElem?, slice_getElem? _ _ _ _ (by omega), Nat.add_zero]
    rw [first, Option.some.injEq]
    have left : n - bytes.length ≠ 0 := by omega
    simp [full, left]

/-- What `usefullBuffer[0]` makes of the flag. -/
def statusFlag (usefull old : UInt8) : UInt8 :=
  if usefull = letterA then 1 else if usefull = letterV then 0 else old

theorem statusFlag_twice (usefull old : UInt8) :
    statusFlag usefull (statusFlag usefull old) = statusFlag usefull old := by
  unfold statusFlag
  split_ifs <;> rfl

theorem checkStatus_flag (s : St) :
    (checkStatus s).mem isUsefull = statusFlag s.usefull (s.mem isUsefull) := by
  have other : isUsefull ≠ isParseData := by decide
  unfold checkStatus statusFlag
  dsimp only
  split_ifs <;> simp [other]

theorem checkStatus_usefull (s : St) : (checkStatus s).usefull = s.usefull := by
  unfold checkStatus
  dsimp only
  split_ifs <;> rfl

theorem put_usefull (f : Field) (bytes : List UInt8) (s : St) : (put f bytes s).usefull =
    if f = .usefullBuffer then bytes.headD s.usefull else s.usefull := by
  rw [put, checkStatus_usefull]
  cases f <;> rfl

theorem put_flag (fits : bytes.length ≤ f.size) (s : St) : (put f bytes s).mem isUsefull =
    statusFlag (put f bytes s).usefull (s.mem isUsefull) := by
  have kept : (storeField f bytes s).mem isUsefull = s.mem isUsefull := by
    rw [storeField]
    cases place : f.address with
    | none => rfl
    | some c =>
      refine store_outside _ _ _ _ ?_
      by_contra inside
      have apart := (flags_apart place (i := isUsefull - c) (by omega)).2.2
      omega
  rw [put, checkStatus_flag, kept, checkStatus_usefull]

theorem puts_flag (fit : Fit cs) (absent : .usefullBuffer ∉ cs.map Prod.fst) (s : St)
    (checked : statusFlag s.usefull (s.mem isUsefull) = s.mem isUsefull) :
    (puts cs s).mem isUsefull = s.mem isUsefull := by
  induction cs generalizing s with
  | nil => rfl
  | cons c cs ih =>
    rw [List.map_cons, List.mem_cons, not_or] at absent
    have byte : (put c.1 c.2 s).usefull = s.usefull := by
      rw [put_usefull, if_neg (Ne.symm absent.1)]
    have flag : (put c.1 c.2 s).mem isUsefull = s.mem isUsefull := by
      rw [put_flag (fit c List.mem_cons_self), byte, checked]
    have rest := ih (fun d hd => fit d (List.mem_cons_of_mem c hd)) absent.2 (put c.1 c.2 s)
      (by rw [byte, flag, checked])
    exact rest.trans flag

def flagAfter (usefull old : UInt8) : List (List UInt8) → UInt8
  | [] => old
  | [_] => statusFlag usefull old
  | _ :: status :: _ => statusFlag (status.headD usefull) (statusFlag usefull old)

theorem puts_fields_flag (ps : List (List UInt8)) (fit : Fit (fields.zip ps)) (s : St) :
    (puts (fields.zip ps) s).mem isUsefull = flagAfter s.usefull (s.mem isUsefull) ps := by
  have first : ∀ time, (put .utcTime time s).usefull = s.usefull := fun time => put_usefull _ _ _
  match ps with
  | [] => rfl
  | [time] =>
    have flag := put_flag (f := .utcTime) (fit (.utcTime, time) (by simp [fields])) s
    rw [first] at flag
    exact flag
  | time :: status :: more =>
    have flag := put_flag (f := .utcTime) (fit (.utcTime, time) (by simp [fields])) s
    have second := put_flag (f := .usefullBuffer) (fit (.usefullBuffer, status) (by simp [fields]))
      (put .utcTime time s)
    have byte : (put .usefullBuffer status (put .utcTime time s)).usefull =
        status.headD s.usefull := by
      rw [put_usefull, if_pos rfl, first]
    rw [first] at flag
    rw [byte, flag] at second
    have absent : .usefullBuffer ∉ ((fields.drop 2).zip more).map Prod.fst := by
      intro member
      obtain ⟨c, hc, same⟩ := List.mem_map.mp member
      have place := (List.of_mem_zip hc).1
      rw [same] at place
      revert place
      decide
    have rest := puts_flag (fun c hc => fit c (by simpa [fields] using .inr (.inr hc))) absent
      (put .usefullBuffer status (put .utcTime time s)) (by rw [byte, second, statusFlag_twice])
    rw [second] at rest
    exact rest

end Record

section Delivered

/-- The searches stay inside the buffer: there is a comma, and behind the last one enough
bytes for the searches that find none. -/
def Searchable (sentence : List UInt8) : Prop :=
  comma ∈ sentence ∧ (10 < (parts sentence).length ∨ sentence.length < gpsBufferLength ∧
    10 < (parts sentence).length + ((parts sentence).getLastD []).length +
      (gpsBufferLength - sentence.length))

/-- `isUsefull` when the second field is reached: the byte of the stack has been checked
once if a comma closes the first. -/
def flagBefore (s : St) (sentence : List UInt8) : UInt8 :=
  if Closed .utcTime sentence then statusFlag s.usefull (s.mem isUsefull) else s.mem isUsefull

/-- Records and sentences that a call brings together: the searches stay inside; the status
is there and is `A` or `V`, or the flag is what it should be already; a field that a comma
closes fills its array or ends where the array has a zero, and any other is there already. -/
structure Clean (s : St) (sentence : List UInt8) : Prop where
  searches : Searchable sentence
  status : if Closed .usefullBuffer sentence then
      (fieldOf .usefullBuffer sentence).head? = some letterA ∨
        (fieldOf .usefullBuffer sentence).head? = some letterV ∨ flagBefore s sentence ≠ 1
    else flagBefore s sentence = 1 ↔ (fieldOf .usefullBuffer sentence).head? = some letterA
  arrays : ∀ f ∈ reported, if Closed f sentence then
      (fieldOf f sentence).length = f.size ∨
        ∀ a ∈ f.address, s.mem (a + (fieldOf f sentence).length) = 0
    else f.stored s = some (fieldOf f sentence)

variable {s : St} {f : Field} {bytes start rest : List UInt8}

theorem fields_number {i : Nat} : fields[i]? = some f ↔ i + 1 = f.number := by
  constructor
  · intro found
    have inside : i < 9 := (List.getElem?_eq_some_iff.mp found).1
    have all : ∀ i < 9, ∀ g ∈ fields[i]?, i + 1 = g.number := by decide
    exact all i inside f found
  · intro same
    obtain rfl : i = f.number - 1 := by omega
    cases f <;> rfl

theorem mem_zip_fields (noComma : comma ∉ start) : (f, bytes) ∈ fields.zip (closed rest) ↔
    Closed f (start ++ comma :: rest) ∧ bytes = fieldOf f (start ++ comma :: rest) := by
  have positive : 0 < f.number := by cases f <;> decide
  obtain ⟨i, same⟩ := Nat.exists_eq_add_of_lt positive
  rw [Nat.zero_add] at same
  have place : ∀ j, fields[j]? = some f ↔ j = i := by
    intro j
    rw [fields_number, same]
    omega
  simp only [List.mem_iff_getElem?, List.getElem?_zip_eq_some, place, exists_eq_left]
  rw [closed, List.getElem?_dropLast, Closed, fieldOf, parts_cons noComma, same,
    List.getElem?_cons_succ, List.length_cons]
  by_cases inside : i < (parts rest).length - 1
  · have index : i < (parts rest).length := by omega
    rw [if_pos inside, List.getElem?_eq_getElem index]
    have both : i + 1 + 1 < (parts rest).length + 1 := by omega
    simp [both, eq_comm]
  · have out : ¬ i + 1 + 1 < (parts rest).length + 1 := by omega
    simp [inside, out]

theorem zip_fst_sublist (fs : List Field) (ps : List (List UInt8)) :
    ((fs.zip ps).map Prod.fst).Sublist fs := by
  induction fs generalizing ps with
  | nil => exact List.nil_sublist []
  | cons f fs ih =>
    cases ps with
    | nil => exact List.nil_sublist (f :: fs)
    | cons p ps => exact (ih ps).cons_cons f

theorem zip_fields_once (ps : List (List UInt8)) : ((fields.zip ps).map Prod.fst).Nodup := by
  have once : fields.Nodup := by decide
  exact once.sublist (zip_fst_sublist fields ps)

/-- Every field that a comma closes fits its array. -/
def FieldsFit (sentence : List UInt8) : Prop :=
  ∀ f, Closed f sentence → (fieldOf f sentence).length ≤ f.size

instance (sentence : List UInt8) : Decidable (FieldsFit sentence) :=
  decidable_of_iff (∀ f ∈ fields, Closed f sentence → (fieldOf f sentence).length ≤ f.size)
    ⟨fun all f => all f (by cases f <;> decide), fun all f _ => all f⟩

theorem fit_of_fieldsFit (noComma : comma ∉ start) (fits : FieldsFit (start ++ comma :: rest)) :
    Fit (fields.zip (closed rest)) := by
  rintro ⟨f, bytes⟩ member
  obtain ⟨isClosed, rfl⟩ := (mem_zip_fields noComma).mp member
  exact fits f isClosed

theorem getGps_sentence (noComma : comma ∉ start) (noZero : 0 ∉ start ++ comma :: rest)
    (delivered : s.mem isGetData ≠ 0) (holds : Holds s.mem (start ++ comma :: rest))
    (fits : FieldsFit (start ++ comma :: rest)) :
    (Searchable (start ++ comma :: rest) ∧
      getGps s = some (puts (fields.zip (closed rest)) (clearGetData s))) ∨
    (¬ Searchable (start ++ comma :: rest) ∧ getGps s = none) := by
  obtain ⟨short, holds⟩ := holds
  have zeros : 0 ∉ start ∧ 0 ∉ rest := by
    simp only [List.mem_append, List.mem_cons, not_or] at noZero
    exact ⟨noZero.1, noZero.2.2⟩
  have fit := fit_of_fieldsFit noComma fits
  rw [List.append_assoc, List.cons_append, ← padded, ← buffer] at holds
  have accepts : Accepts (buffer s) ↔ Searchable (start ++ comma :: rest) := by
    rw [holds, accepts_iff noComma zeros.1, parses_padded zeros.2 fit, Searchable,
      parts_last noComma, parts_cons noComma]
    have count : fields.length = 9 := rfl
    simp only [List.mem_append, List.mem_cons, true_or, or_true, true_and, count,
      List.length_cons]
    omega
  have stores : sentenceCopies (buffer s) = fields.zip (closed rest) := by
    rw [holds, sentenceCopies, dropWhile_comma noComma, copies_padded zeros.2 fit]
  rw [← accepts, ← stores]
  exact getGps_eq s delivered

theorem getGps_no_comma {sentence : List UInt8} (noComma : comma ∉ sentence)
    (delivered : s.mem isGetData ≠ 0) (holds : Holds s.mem sentence) : getGps s = none := by
  have leaves : ¬ Accepts (buffer s) := by
    rintro ⟨start, behind, whole, -⟩
    have member : comma ∈ buffer s := by simp [whole]
    rw [buffer, holds.2] at member
    simp [noComma, show comma ≠ 0 by decide] at member
  exact ((getGps_eq s delivered).resolve_left (fun accepts => leaves accepts.1)).2

theorem zero_not_mem_parts {sentence : List UInt8} (noZero : 0 ∉ sentence) :
    ∀ part ∈ parts sentence, 0 ∉ part := by
  induction sentence with
  | nil => simp [parts]
  | cons b sentence ih =>
    rw [List.mem_cons, not_or] at noZero
    have later := ih noZero.2
    rw [parts, List.splitOn_cons_eq_if_modifyHead, ← parts]
    obtain ⟨part, more, whole⟩ := List.exists_cons_of_ne_nil
      (show parts sentence ≠ [] from List.splitOn_ne_nil comma sentence)
    rw [whole] at later ⊢
    split_ifs with isComma
    · simpa using later
    · simpa [noZero.1] using later

theorem zero_not_mem_fieldOf {sentence : List UInt8} (noZero : 0 ∉ sentence) (f : Field) :
    0 ∉ fieldOf f sentence := by
  rw [fieldOf]
  cases found : (parts sentence)[f.number]? with
  | none => simp
  | some part => exact zero_not_mem_parts noZero part (List.mem_of_getElem? found)

theorem stored_iff (noComma : comma ∉ start) (noZero : 0 ∉ start ++ comma :: rest)
    (fits : FieldsFit (start ++ comma :: rest)) {a : Nat} (place : f.address = some a) :
    f.stored (puts (fields.zip (closed rest)) (clearGetData s)) =
        some (fieldOf f (start ++ comma :: rest)) ↔
      if Closed f (start ++ comma :: rest) then
        (fieldOf f (start ++ comma :: rest)).length = f.size ∨
          ∀ a ∈ f.address, s.mem (a + (fieldOf f (start ++ comma :: rest)).length) = 0
      else f.stored s = some (fieldOf f (start ++ comma :: rest)) := by
  have fit := fit_of_fieldsFit noComma fits
  have kept := clearGetData_array place s
  simp only [Field.stored, place, Option.map_some, Option.some.injEq, Option.mem_some_iff,
    forall_eq']
  by_cases isClosed : Closed f (start ++ comma :: rest)
  · have member := (mem_zip_fields (f := f) noComma).mpr ⟨isClosed, rfl⟩
    have text := zero_not_mem_fieldOf noZero f
    rw [if_pos isClosed, puts_array place fit (zip_fields_once _) member, kept]
    exact cstr_overwrite text f.size (fits f isClosed) s.mem
  · have absent : f ∉ (fields.zip (closed rest)).map Prod.fst := by
      intro member
      obtain ⟨⟨g, bytes⟩, both, rfl⟩ := List.mem_map.mp member
      exact isClosed ((mem_zip_fields noComma).mp both).1
    rw [if_neg isClosed, puts_other place fit absent, kept]

theorem flag_iff (noComma : comma ∉ start) (fits : FieldsFit (start ++ comma :: rest)) :
    ((puts (fields.zip (closed rest)) (clearGetData s)).mem isUsefull = 1 ↔
        (fieldOf .usefullBuffer (start ++ comma :: rest)).head? = some letterA) ↔
      if Closed .usefullBuffer (start ++ comma :: rest) then
        (fieldOf .usefullBuffer (start ++ comma :: rest)).head? = some letterA ∨
          (fieldOf .usefullBuffer (start ++ comma :: rest)).head? = some letterV ∨
            flagBefore s (start ++ comma :: rest) ≠ 1
      else flagBefore s (start ++ comma :: rest) = 1 ↔
        (fieldOf .usefullBuffer (start ++ comma :: rest)).head? = some letterA := by
  have other : isUsefull ≠ isGetData := by decide
  have kept : (clearGetData s).mem isUsefull = s.mem isUsefull :=
    Function.update_of_ne other 0 s.mem
  have byte : (clearGetData s).usefull = s.usefull := rfl
  rw [puts_fields_flag _ (fit_of_fieldsFit noComma fits), kept, byte]
  simp only [flagBefore, Closed, fieldOf, closed, parts_cons noComma, Field.number,
    List.length_cons, List.getElem?_cons_succ]
  match parts rest with
  | [] => simp [flagAfter]
  | [time] => simp [flagAfter]
  | [time, status] => simp [flagAfter]
  | time :: status :: p :: ps =>
    cases status with
    | nil => simp [flagAfter, statusFlag_twice]
    | cons b status =>
      simp only [List.dropLast_cons_cons, flagAfter, List.headD_cons]
      generalize statusFlag s.usefull (s.mem isUsefull) = old
      by_cases isA : b = letterA
      · simp [statusFlag, isA]
      · by_cases isV : b = letterV
        · simp [statusFlag, isV, show letterV ≠ letterA by decide]
        · simp [statusFlag, isA, isV]

/-- After a call on a delivered sentence whose fields fit, the flag and the four arrays say
what the sentence says just when the record and the sentence are `Clean`. -/
theorem get_gps_fields (s : St) (sentence : List UInt8) (delivered : s.mem isGetData ≠ 0)
    (holds : Holds s.mem sentence) (text : 0 ∉ sentence) (fits : FieldsFit sentence) :
    Processed s sentence ↔ Clean s sentence := by
  by_cases member : comma ∈ sentence
  · obtain ⟨start, rest, rfl, noComma⟩ := List.eq_append_cons_of_mem member
    obtain ⟨searches, run⟩ | ⟨leaves, run⟩ := getGps_sentence noComma text delivered holds fits
    · have arrays : (∀ f ∈ reported, f.stored (puts (fields.zip (closed rest)) (clearGetData s)) =
          some (fieldOf f (start ++ comma :: rest))) ↔ ∀ f ∈ reported,
            if Closed f (start ++ comma :: rest) then
              (fieldOf f (start ++ comma :: rest)).length = f.size ∨
                ∀ a ∈ f.address, s.mem (a + (fieldOf f (start ++ comma :: rest)).length) = 0
            else f.stored s = some (fieldOf f (start ++ comma :: rest)) := by
        refine forall₂_congr (fun f member => ?_)
        have place : ∃ a, f.address = some a := by
          revert member
          cases f <;> simp [reported, Field.address]
        obtain ⟨a, place⟩ := place
        exact stored_iff noComma text fits place
      constructor
      · rintro ⟨s', eq, status, fields⟩
        obtain rfl := Option.some.inj (run.symm.trans eq)
        exact ⟨searches, (flag_iff noComma fits).mp status, arrays.mp fields⟩
      · rintro ⟨-, status, fields⟩
        exact ⟨_, run, (flag_iff noComma fits).mpr status, arrays.mpr fields⟩
    · constructor
      · rintro ⟨s', eq, -⟩
        rw [run] at eq
        cases eq
      · rintro ⟨searches, -⟩
        exact absurd searches leaves
  · constructor
    · rintro ⟨s', eq, -⟩
      rw [getGps_no_comma member delivered holds] at eq
      cases eq
    · rintro ⟨searches, -⟩
      exact absurd searches.1 member

theorem get_gps_fields_one :
    let sentence := "$GPRMC,161229,A,3723.2,N,12158.3,W,0,3,120598,\n"
    Processed (delivered sentence) (ascii sentence) ↔ Clean (delivered sentence) (ascii sentence) :=
  get_gps_fields _ _ (by decide) ⟨by decide +kernel, by decide +kernel⟩ (by decide +kernel)
    (by decide +kernel)

def noLatitude : String := "$GPRMC,161229,A,,N,12158.3,W,0,3,120598,\n"

def oldLatitude : St :=
  { delivered noLatitude with
    mem := store (delivered noLatitude).mem 93 (ofList (ascii "3723.2")) 6 }

/-- The latitude of the older sentence stays, behind a valid flag. -/
theorem get_gps_keeps_latitude :
    oldLatitude.mem isGetData ≠ 0 ∧ Holds oldLatitude.mem (ascii noLatitude) ∧
      0 ∉ ascii noLatitude ∧ FieldsFit (ascii noLatitude) ∧
      ¬ Processed oldLatitude (ascii noLatitude) := by
  have left : (getGps oldLatitude).map (fun s => (s.mem isUsefull, Field.latitude.stored s)) =
      some (1, some (ascii "3723.2")) := by decide +kernel
  refine ⟨by decide, ⟨by decide +kernel, by decide +kernel⟩, by decide +kernel,
    by decide +kernel, ?_⟩
  rintro ⟨s', run, -, arrays⟩
  rw [run, Option.map_some, arrays .latitude (by decide)] at left
  have same := Option.some.inj (Prod.mk.inj (Option.some.inj left)).2
  exact absurd same (by decide +kernel)

end Delivered

end BoxFirmware.GetGps
