import BoxFirmware.CText
import BoxFirmware.Commit

/-! `Get_Gps` of `commit.c`: nine fields of the delivered sentence go to the arrays of
`Save_Data`. Addresses count from `Save_Data`. A search that leaves `GPS_Buffer`, the one
from `NULL` included, and a copy longer than its array have no meaning in C; they end a
call with `none`. -/
namespace BoxFirmware.GetGps
open ByteMem CText Commit

abbrev comma : UInt8 := 0x2c
abbrev letterA : UInt8 := 0x41
abbrev letterV : UInt8 := 0x56

def isParseData : Nat := 81
def isUsefull : Nat := 120
def saveDataSize : Nat := 136

inductive Field
  | utcTime
  | usefullBuffer
  | latitude
  | nS
  | longitude
  | eW
  | rate
  | direction
  | utcDate
  deriving DecidableEq

/-- Where the array is in `Save_Data`; `usefullBuffer` is a local one. -/
def Field.address : Field → Option Nat
  | .utcTime => some 82
  | .usefullBuffer => none
  | .latitude => some 93
  | .nS => some 104
  | .longitude => some 106
  | .eW => some 118
  | .rate => some 132
  | .direction => some 134
  | .utcDate => some 121

def Field.size : Field → Nat
  | .utcTime => 11
  | .usefullBuffer => 2
  | .latitude => 11
  | .nS => 2
  | .longitude => 12
  | .eW => 2
  | .rate => 2
  | .direction => 2
  | .utcDate => 11

/-- The destinations for `i` from 1 to 9. -/
def fields : List Field :=
  [.utcTime, .usefullBuffer, .latitude, .nS, .longitude, .eW, .rate, .direction, .utcDate]

structure Clock where
  year : Int
  mouth : Int
  date : Int
  hour : Int
  min : Int
  sec : Int
  deriving DecidableEq

/-- The memory from `Save_Data` on, the clock, and `usefullBuffer[0]`, which holds
whatever the stack has there when a call begins. -/
structure St where
  mem : Mem
  clock : Clock
  usefull : UInt8

def text (mem : Mem) (a : Nat) : List UInt8 := slice mem a (saveDataSize - a)

def readClock (mem : Mem) : Clock where
  date := (atoi (text mem 121)).tdiv 10000
  mouth := ((atoi (text mem 121)).tdiv 100).tmod 100
  year := (atoi (text mem 121)).tmod 100
  hour := (atoi (text mem 82)).tdiv 10000 + 8
  min := ((atoi (text mem 82)).tdiv 100).tmod 100
  sec := (atoi (text mem 82)).tmod 100

def strstrComma : List UInt8 → Option (Option Nat)
  | [] => none
  | b :: bytes =>
    if b = comma then some (some 0)
    else if b = 0 then some none
    else (strstrComma bytes).map (Option.map (· + 1))

def search (mem : Mem) (subString : Nat) : Option (Option Nat) :=
  (strstrComma (slice mem subString (gpsBufferLength - subString))).map
    (Option.map (subString + ·))

def storeField (f : Field) (bytes : List UInt8) (s : St) : St :=
  match f.address with
  | some a => { s with mem := store s.mem a (ofList bytes) bytes.length }
  | none => { s with usefull := bytes.headD s.usefull }

def checkStatus (s : St) : St :=
  let mem := Function.update s.mem isParseData 1
  if s.usefull = letterA then
    let mem := Function.update mem isUsefull 1
    { s with mem := mem, clock := readClock mem }
  else if s.usefull = letterV then { s with mem := Function.update mem isUsefull 0 }
  else { s with mem := mem }

def put (f : Field) (bytes : List UInt8) (s : St) : St := checkStatus (storeField f bytes s)

def copyField (f : Field) (subString subStringNext : Nat) (s : St) : Option St :=
  if subStringNext - subString ≤ f.size then
    some (put f (slice s.mem subString (subStringNext - subString)) s)
  else none

/-- The iterations for `i > 0`, from `subString`. -/
def loop : List Field → Nat → St → Option St
  | [], _, s => some s
  | f :: fs, subString, s =>
    match search s.mem (subString + 1) with
    | none => none
    | some none => loop fs (subString + 1) s
    | some (some next) => (copyField f (subString + 1) next s).bind (loop fs next)

def clearGetData (s : St) : St := { s with mem := Function.update s.mem isGetData 0 }

def getGps (s : St) : Option St :=
  if s.mem isGetData = 0 then some s
  else
    let s := clearGetData s
    match search s.mem gpsBuffer with
    -- without a comma `subString` is `NULL`
    | some (some first) => loop fields first s
    | _ => none

section Search

variable {field behind bytes : List UInt8}

theorem strstrComma_skip (noComma : comma ∉ field) (noZero : 0 ∉ field) :
    strstrComma (field ++ bytes) = (strstrComma bytes).map (Option.map (· + field.length)) := by
  induction field with
  | nil => simp
  | cons b field ih =>
    rw [List.mem_cons, not_or] at noComma noZero
    rw [List.cons_append, strstrComma, if_neg (Ne.symm noComma.1), if_neg (Ne.symm noZero.1),
      ih noComma.2 noZero.2, Option.map_map, Option.map_comp_map]
    rfl

theorem strstrComma_closed (noComma : comma ∉ field) (noZero : 0 ∉ field) :
    strstrComma (field ++ comma :: behind) = some (some field.length) := by
  rw [strstrComma_skip noComma noZero, strstrComma, if_pos rfl]
  simp

theorem strstrComma_missing (noComma : comma ∉ field) (noZero : 0 ∉ field) :
    strstrComma (field ++ 0 :: behind) = some none := by
  have other : (0 : UInt8) ≠ comma := by decide
  rw [strstrComma_skip noComma noZero, strstrComma, if_neg other, if_pos rfl]
  rfl

theorem strstrComma_leaves (noComma : comma ∉ bytes) (noZero : 0 ∉ bytes) :
    strstrComma bytes = none := by
  rw [← List.append_nil bytes, strstrComma_skip noComma noZero]
  rfl

theorem comma_unique {field' behind' : List UInt8} (noComma : comma ∉ field) (noZero : 0 ∉ field)
    (noComma' : comma ∉ field') (noZero' : 0 ∉ field')
    (same : field ++ comma :: behind = field' ++ comma :: behind') :
    field = field' ∧ behind = behind' := by
  have found : strstrComma (field ++ comma :: behind) = some (some field.length) :=
    strstrComma_closed noComma noZero
  rw [same, strstrComma_closed noComma' noZero'] at found
  obtain ⟨first, rest⟩ := List.append_inj same (Option.some.inj (Option.some.inj found)).symm
  exact ⟨first, (List.cons.inj rest).2⟩

theorem bytes_cases (bytes : List UInt8) :
    (∃ field behind, comma ∉ field ∧ 0 ∉ field ∧ bytes = field ++ comma :: behind) ∨
    (∃ field behind, comma ∉ field ∧ 0 ∉ field ∧ bytes = field ++ 0 :: behind) ∨
    (comma ∉ bytes ∧ 0 ∉ bytes) := by
  induction bytes with
  | nil => simp
  | cons b bytes ih =>
    by_cases isComma : b = comma
    · exact .inl ⟨[], bytes, by simp, by simp, by rw [isComma]; rfl⟩
    · by_cases isZero : b = 0
      · exact .inr (.inl ⟨[], bytes, by simp, by simp, by rw [isZero]; rfl⟩)
      · have other : ∀ field, comma ∉ field → 0 ∉ field → comma ∉ b :: field ∧ 0 ∉ b :: field := by
          intro field noComma noZero
          simp [noComma, noZero, Ne.symm isComma, Ne.symm isZero]
        obtain ⟨field, behind, noComma, noZero, rfl⟩ | ⟨field, behind, noComma, noZero, rfl⟩ |
          ⟨noComma, noZero⟩ := ih
        · have both := other field noComma noZero
          exact .inl ⟨b :: field, behind, both.1, both.2, rfl⟩
        · have both := other field noComma noZero
          exact .inr (.inl ⟨b :: field, behind, both.1, both.2, rfl⟩)
        · exact .inr (.inr (other bytes noComma noZero))

end Search

section Bounds

/-- The bytes from a comma on that the remaining iterations can go through: a field that
the next comma closes fits its array, and a search that finds no comma meets a zero. The
next search then starts one byte further on. -/
inductive Parses : List Field → List UInt8 → Prop
  | done (bytes : List UInt8) : Parses [] bytes
  | closed {f : Field} {fs : List Field} (b : UInt8) {field behind : List UInt8}
      (noComma : comma ∉ field) (noZero : 0 ∉ field) (fits : field.length ≤ f.size)
      (rest : Parses fs (comma :: behind)) : Parses (f :: fs) (b :: (field ++ comma :: behind))
  | missing {f : Field} {fs : List Field} (b : UInt8) {field behind : List UInt8}
      (noComma : comma ∉ field) (noZero : 0 ∉ field)
      (rest : Parses fs (field ++ 0 :: behind)) : Parses (f :: fs) (b :: (field ++ 0 :: behind))

def copies : List Field → List UInt8 → List (Field × List UInt8)
  | [], _ => []
  | f :: fs, bytes =>
    match strstrComma bytes.tail with
    | none => []
    | some none => copies fs bytes.tail
    | some (some k) =>
      if k ≤ f.size then (f, bytes.tail.take k) :: copies fs (bytes.tail.drop k) else []

variable {f : Field} {fs : List Field} {b : UInt8} {bytes field behind : List UInt8}

theorem parses_closed (noComma : comma ∉ field) (noZero : 0 ∉ field) :
    Parses (f :: fs) (b :: (field ++ comma :: behind)) ↔
      field.length ≤ f.size ∧ Parses fs (comma :: behind) := by
  constructor
  · intro parses
    have found : strstrComma (field ++ comma :: behind) = some (some field.length) :=
      strstrComma_closed noComma noZero
    generalize whole : b :: (field ++ comma :: behind) = bytes at parses
    cases parses with
    | closed b' noComma' noZero' fits rest =>
      obtain ⟨rfl, rfl⟩ := comma_unique noComma noZero noComma' noZero' (List.cons.inj whole).2
      exact ⟨fits, rest⟩
    | missing b' noComma' noZero' rest =>
      rw [(List.cons.inj whole).2, strstrComma_missing noComma' noZero'] at found
      cases found
  · rintro ⟨fits, rest⟩
    exact .closed b noComma noZero fits rest

theorem parses_missing (noComma : comma ∉ field) (noZero : 0 ∉ field) :
    Parses (f :: fs) (b :: (field ++ 0 :: behind)) ↔ Parses fs (field ++ 0 :: behind) := by
  constructor
  · intro parses
    have found : strstrComma (field ++ 0 :: behind) = some none :=
      strstrComma_missing noComma noZero
    generalize whole : b :: (field ++ 0 :: behind) = bytes at parses
    cases parses with
    | closed b' noComma' noZero' fits rest =>
      rw [(List.cons.inj whole).2, strstrComma_closed noComma' noZero'] at found
      cases found
    | missing b' noComma' noZero' rest =>
      rw [(List.cons.inj whole).2]
      exact rest
  · exact .missing b noComma noZero

theorem not_parses_leaves (noComma : comma ∉ bytes) (noZero : 0 ∉ bytes) :
    ¬ Parses (f :: fs) (b :: bytes) := by
  intro parses
  cases parses with
  | closed => simp at noComma
  | missing => simp at noZero

theorem copies_closed (noComma : comma ∉ field) (noZero : 0 ∉ field) :
    copies (f :: fs) (b :: (field ++ comma :: behind)) =
      if field.length ≤ f.size then (f, field) :: copies fs (comma :: behind) else [] := by
  rw [copies, List.tail_cons, strstrComma_closed noComma noZero]
  simp

theorem copies_missing (noComma : comma ∉ field) (noZero : 0 ∉ field) :
    copies (f :: fs) (b :: (field ++ 0 :: behind)) = copies fs (field ++ 0 :: behind) := by
  rw [copies, List.tail_cons, strstrComma_missing noComma noZero]

theorem put_front (f : Field) (bytes : List UInt8) (s : St) {a : Nat} (front : a ≤ isGetData) :
    (put f bytes s).mem a = s.mem a := by
  have place : isGetData = 80 := rfl
  have status : ∀ s : St, (checkStatus s).mem a = s.mem a := by
    intro s
    have flags : a ≠ isParseData ∧ a ≠ isUsefull := by
      unfold isParseData isUsefull
      omega
    unfold checkStatus
    dsimp only
    split_ifs <;> simp [flags.1, flags.2]
  rw [put, status]
  cases f <;> simp only [storeField, Field.address]
  all_goals exact store_outside _ _ _ _ (.inl (by omega))

theorem put_slice (f : Field) (bytes : List UInt8) (s : St) (p : Nat) :
    slice (put f bytes s).mem p (gpsBufferLength - p) = slice s.mem p (gpsBufferLength - p) := by
  have room : gpsBufferLength = isGetData := rfl
  exact slice_congr (fun _ hi => put_front f bytes s (by omega))

/-- The buffer from `p` on. -/
def ahead (s : St) (p : Nat) : List UInt8 := slice s.mem p (gpsBufferLength - p)

theorem ahead_tail (s : St) {p : Nat} (inside : p < gpsBufferLength) :
    ahead s p = s.mem p :: ahead s (p + 1) := by
  have size : gpsBufferLength - p = 1 + (gpsBufferLength - (p + 1)) := by omega
  rw [ahead, size, slice_add]
  rfl

theorem ahead_comma {s : St} {p : Nat} (whole : ahead s p = field ++ comma :: behind) :
    p + field.length < gpsBufferLength ∧ slice s.mem p field.length = field ∧
      ahead s (p + field.length) = comma :: behind := by
  have count : (ahead s p).length = gpsBufferLength - p := slice_length _ _ _
  rw [whole, List.length_append, List.length_cons] at count
  rw [ahead] at whole
  refine ⟨by omega, ?_, ?_⟩
  · rw [← slice_take s.mem p (show field.length ≤ gpsBufferLength - p by omega), whole,
      List.take_left]
  · have rest := slice_drop s.mem p (gpsBufferLength - p) field.length
    rw [whole, List.drop_left] at rest
    rw [ahead, rest]
    congr 1
    omega

def puts (cs : List (Field × List UInt8)) (s : St) : St := cs.foldl (fun s c => put c.1 c.2 s) s

theorem loop_eq (fs : List Field) {p : Nat} (s : St) (inside : p < gpsBufferLength) :
    (Parses fs (ahead s p) ∧ loop fs p s = some (puts (copies fs (ahead s p)) s)) ∨
      (¬ Parses fs (ahead s p) ∧ loop fs p s = none) := by
  induction fs generalizing p s with
  | nil => exact .inl ⟨.done _, rfl⟩
  | cons f fs ih =>
    have count : (ahead s (p + 1)).length = gpsBufferLength - (p + 1) := slice_length _ _ _
    have found : search s.mem (p + 1) =
        (strstrComma (ahead s (p + 1))).map (Option.map (p + 1 + ·)) := rfl
    rw [ahead_tail s inside, loop, found]
    obtain ⟨field, behind, noComma, noZero, whole⟩ | ⟨field, behind, noComma, noZero, whole⟩ |
      ⟨noComma, noZero⟩ := bytes_cases (ahead s (p + 1))
    · obtain ⟨inside, copied, next⟩ := ahead_comma whole
      rw [whole, strstrComma_closed noComma noZero, parses_closed noComma noZero,
        copies_closed noComma noZero]
      simp only [Option.map_some, copyField, Nat.add_sub_cancel_left, copied]
      by_cases fits : field.length ≤ f.size
      · have kept : ahead (put f field s) (p + 1 + field.length) = comma :: behind := by
          rw [ahead, put_slice, ← ahead, next]
        have rest := ih (put f field s) inside
        rw [kept] at rest
        simp only [fits, true_and, if_true, Option.bind_some]
        exact rest
      · simp [fits]
    · rw [whole, strstrComma_missing noComma noZero, parses_missing noComma noZero,
        copies_missing noComma noZero]
      rw [whole, List.length_append, List.length_cons] at count
      have rest := ih s (p := p + 1) (by omega)
      rw [whole] at rest
      exact rest
    · rw [strstrComma_leaves noComma noZero]
      exact .inr ⟨not_parses_leaves noComma noZero, rfl⟩

/-- Buffers that a call goes through: the string has a comma, and the rest parses. -/
def Accepts (bytes : List UInt8) : Prop :=
  ∃ start behind, bytes = start ++ comma :: behind ∧ comma ∉ start ∧ 0 ∉ start ∧
    Parses fields (comma :: behind)

def sentenceCopies (bytes : List UInt8) : List (Field × List UInt8) :=
  copies fields (bytes.dropWhile (· ≠ comma))

theorem accepts_iff {start : List UInt8} (noComma : comma ∉ start) (noZero : 0 ∉ start) :
    Accepts (start ++ comma :: behind) ↔ Parses fields (comma :: behind) := by
  constructor
  · rintro ⟨start', behind', whole, noComma', noZero', parses⟩
    rw [(comma_unique noComma noZero noComma' noZero' whole).2]
    exact parses
  · intro parses
    exact ⟨start, behind, rfl, noComma, noZero, parses⟩

theorem accepts_strstr (accepts : Accepts bytes) : ∃ k, strstrComma bytes = some (some k) := by
  obtain ⟨start, behind, rfl, noComma, noZero, -⟩ := accepts
  exact ⟨start.length, strstrComma_closed noComma noZero⟩

theorem dropWhile_comma {start : List UInt8} (noComma : comma ∉ start) :
    (start ++ comma :: behind).dropWhile (· ≠ comma) = comma :: behind := by
  rw [List.dropWhile_append_of_pos]
  · simp
  · intro b member
    simpa using ne_of_mem_of_not_mem member noComma

def buffer (s : St) : List UInt8 := slice s.mem gpsBuffer gpsBufferLength

theorem getGps_eq (s : St) (delivered : s.mem isGetData ≠ 0) :
    (Accepts (buffer s) ∧ getGps s = some (puts (sentenceCopies (buffer s)) (clearGetData s))) ∨
      (¬ Accepts (buffer s) ∧ getGps s = none) := by
  have same : ahead (clearGetData s) gpsBuffer = buffer s := by
    refine slice_congr (fun i inside => Function.update_of_ne ?_ _ _)
    have room : gpsBuffer = 0 ∧ gpsBufferLength = 80 ∧ isGetData = 80 := ⟨rfl, rfl, rfl⟩
    omega
  have found : search (clearGetData s).mem gpsBuffer =
      (strstrComma (buffer s)).map (Option.map (gpsBuffer + ·)) := by
    rw [← same]
    rfl
  rw [getGps, if_neg delivered]
  dsimp only
  rw [found]
  obtain ⟨start, behind, noComma, noZero, whole⟩ | ⟨start, behind, noComma, noZero, whole⟩ |
    ⟨noComma, noZero⟩ := bytes_cases (buffer s)
  · have count : (buffer s).length = gpsBufferLength := slice_length _ _ _
    have first : ahead (clearGetData s) (gpsBuffer + start.length) = comma :: behind := by
      have rest := slice_drop (clearGetData s).mem gpsBuffer gpsBufferLength start.length
      rw [show slice (clearGetData s).mem gpsBuffer gpsBufferLength = buffer s from same, whole,
        List.drop_left] at rest
      rw [ahead, rest]
      congr 1
      simp [gpsBuffer]
    rw [whole, List.length_append, List.length_cons] at count
    rw [whole, strstrComma_closed noComma noZero, accepts_iff noComma noZero, sentenceCopies,
      dropWhile_comma noComma]
    have room : gpsBuffer = 0 := rfl
    have rest := loop_eq fields (clearGetData s)
      (show gpsBuffer + start.length < gpsBufferLength by omega)
    rw [first] at rest
    exact rest
  · have other : ¬ Accepts (buffer s) := by
      intro accepts
      obtain ⟨k, found⟩ := accepts_strstr accepts
      rw [whole, strstrComma_missing noComma noZero] at found
      cases found
    rw [whole, strstrComma_missing noComma noZero, ← whole]
    exact .inr ⟨other, rfl⟩
  · have other : ¬ Accepts (buffer s) := by
      rintro ⟨start, behind, whole, -⟩
      exact noComma (by rw [whole]; simp)
    rw [strstrComma_leaves noComma noZero]
    exact .inr ⟨other, rfl⟩

/-- A call stays inside `GPS_Buffer` and the arrays of the fields just when no sentence is
there or `Accepts` holds of the buffer. -/
theorem get_gps_in_bounds (s : St) :
    (getGps s).isSome ↔ s.mem isGetData = 0 ∨ Accepts (buffer s) := by
  by_cases none : s.mem isGetData = 0
  · simp [getGps, none]
  · obtain ⟨accepts, eq⟩ | ⟨other, eq⟩ := getGps_eq s none
    · simp [eq, accepts]
    · simp [eq, none, other]

/-- `Save_Data` with a sentence delivered into it, and nothing else. -/
def delivered (sentence : String) : St where
  mem := Function.update (store (fun _ => 0) gpsBuffer (ofList (ascii sentence)) (ascii sentence).length)
    isGetData 1
  clock := ⟨0, 0, 0, 0, 0, 0⟩
  usefull := 0

/-- A sentence without a comma, and one whose time has twelve characters. -/
theorem get_gps_leaves :
    (0 ∈ buffer (delivered "$GPRMC\n") ∧ ¬ (getGps (delivered "$GPRMC\n")).isSome) ∧
      (0 ∈ buffer (delivered "$GPRMC,161229.48712,A\n") ∧
        ¬ (getGps (delivered "$GPRMC,161229.48712,A\n")).isSome) := by
  decide +kernel

end Bounds

end BoxFirmware.GetGps
