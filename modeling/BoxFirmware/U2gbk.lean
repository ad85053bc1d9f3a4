import BoxFirmware.ByteMem
import BoxFirmware.CodeTable
import BoxFirmware.Loop
import BoxFirmware.SortedSearch
import Mathlib.Data.List.GetD
import Mathlib.Data.List.Nodup

/-! `U2GBK.c`: a text in UTF-8 is converted to GB2312 character by character, by the lead byte
of each and a search in the table of `cp936.h`. What is printed on the way is left out. -/
namespace BoxFirmware.U2gbk
open ByteMem CodeTable Loop SortedSearch

section Lead

def countTurn (firstCh : UInt8) (s : UInt8 × Nat) : Turn (UInt8 × Nat) Nat :=
  if s.1 &&& firstCh ≠ 0 then .again (s.1 >>> 1, s.2 + 1) else .leave s.2

/-- Eight shifts make `temp` 0. -/
def getUtf8ByteNumForWord (firstCh : UInt8) : Nat :=
  (run (countTurn firstCh) 9 (0x80, 0)).getD 0

theorem count_ends (firstCh : UInt8) :
    Ends (countTurn firstCh) (0x80, 0) (getUtf8ByteNumForWord firstCh) := by
  refine ⟨9, ?_⟩
  revert firstCh
  apply forall_uint8
  decide +kernel

end Lead

section Search

structure Window where
  first : Int
  last : Int

/-- Every product and sum stays far below the bounds of `int`. -/
def searchTurn (table : List UnicodeGb) (unicodeKey : UInt16) (w : Window) :
    Turn Window (Option UInt16) :=
  if w.first ≤ w.last then
    let mid := (w.first + w.last) / 2
    let entry := table.getD mid.toNat ⟨0, 0⟩
    if entry.unicode = unicodeKey then .leave (some entry.gb)
    else if entry.unicode > unicodeKey then .again { w with last := mid - 1 }
    else .again { w with first := mid + 1 }
  else .leave none

/-- The code of the key, if the search comes upon it; each turn shortens the window, so that the
turns are enough. -/
def search (table : List UnicodeGb) (unicodeKey : UInt16) : Option UInt16 :=
  (run (searchTurn table unicodeKey) (table.length + 1) ⟨0, table.length - 1⟩).join

def searchCodeTable (unicodeKey : UInt16) : UInt16 := (search codeTable unicodeKey).getD 0

structure Narrowed (table : List UnicodeGb) (key : UInt16) (w : Window) : Prop where
  first : 0 ≤ w.first
  last : w.last < table.length
  between : Between UnicodeGb.value table key.toNat w.first w.last

def Window.size (w : Window) : Nat := (w.last + 1 - w.first).toNat

def Found (table : List UnicodeGb) (key : UInt16) : Option UInt16 → Prop
  | some gb => ⟨key, gb⟩ ∈ table
  | none => ∀ e ∈ table, e.unicode ≠ key

theorem searchTurn_narrows {table : List UnicodeGb} {key : UInt16}
    (sorted : Sorted UnicodeGb.value table) (w : Window) (narrowed : Narrowed table key w) :
    (searchTurn table key w).Gives (fun v => Narrowed table key v ∧ v.size < w.size)
      (Found table key) := by
  have first := narrowed.first
  have last := narrowed.last
  unfold searchTurn
  split
  · rename_i more
    have inside : ((w.first + w.last) / 2).toNat < table.length := by omega
    have mid : (((w.first + w.last) / 2).toNat : Int) = (w.first + w.last) / 2 := by omega
    have entry : table.getD ((w.first + w.last) / 2).toNat ⟨0, 0⟩ =
        table[((w.first + w.last) / 2).toNat] := List.getD_eq_getElem _ _ inside
    simp only [entry]
    split_ifs with same high
    · subst same
      exact List.getElem_mem inside
    · have between := narrowed.between.below sorted inside (UInt16.lt_iff_toNat_lt.mp high)
      rw [mid] at between
      exact ⟨⟨first, by dsimp only; omega, between⟩, by dsimp only [Window.size]; omega⟩
    · have low : UnicodeGb.value table[((w.first + w.last) / 2).toNat] < key.toNat := by
        have other : table[((w.first + w.last) / 2).toNat].unicode.toNat ≠ key.toNat :=
          fun eq => same (UInt16.toNat_inj.mp eq)
        have notAbove := mt UInt16.lt_iff_toNat_lt.mpr high
        dsimp only [UnicodeGb.value]
        omega
      have between := narrowed.between.above sorted inside low
      rw [mid] at between
      exact ⟨⟨by dsimp only; omega, last, between⟩, by dsimp only [Window.size]; omega⟩
  · rename_i empty
    have absent := narrowed.between.none (Int.not_le.mp empty)
    exact fun e member same => absent e member (congrArg UInt16.toNat same)

theorem search_ends {table : List UnicodeGb} (sorted : Sorted UnicodeGb.value table)
    (key : UInt16) : Ends (searchTurn table key) ⟨0, table.length - 1⟩ (search table key) ∧
      Found table key (search table key) := by
  have start : Narrowed table key ⟨0, table.length - 1⟩ :=
    ⟨Int.le_refl _, by dsimp only; omega, between_all⟩
  have turns := @searchTurn_narrows table key sorted
  obtain ⟨r, enough, found⟩ := run_of_measure (n := table.length + 1) Window.size turns start
    (by dsimp only [Window.size]; omega)
  have result : search table key = r := by
    rw [search, enough, Option.join_some]
  rw [result]
  exact ⟨⟨_, enough⟩, found⟩

end Search

section Convert

/-- A value of `int`. -/
def int32 (x : Int) : Int := x.bmod 4294967296

/-- The arrays are read and written at `int` indices; `reads` and `writes` list those used. -/
structure St where
  i : Int
  j : Int
  byteCount : Nat
  temp : Int → UInt8
  reads : List Int
  writes : List Int

def halfword (temp : Int → UInt8) (j : Int) : UInt16 :=
  (temp j).toUInt16 ||| (temp (j + 1)).toUInt16 <<< 8

def put (temp : Int → UInt8) (j : Int) : List UInt8 → Int → UInt8
  | [] => temp
  | b :: bytes => put (Function.update temp j b) (j + 1) bytes

def case2 (utf8 : Int → UInt8) (s : St) : St :=
  { s with
    temp := put s.temp s.j [utf8 s.i, utf8 (s.i + 1)]
    byteCount := 2
    reads := s.reads ++ [s.i, s.i + 1]
    writes := s.writes ++ [s.j, s.j + 1] }

def case3 (utf8 : Int → UInt8) (s : St) : St :=
  let high := ((utf8 s.i &&& 0x0F) <<< 4) ||| ((utf8 (s.i + 1) >>> 2) &&& 0x0F)
  let low := ((utf8 (s.i + 1) &&& 0x03) <<< 6) + (utf8 (s.i + 2) &&& 0x3F)
  let temp := Function.update (Function.update s.temp (s.j + 1) high) s.j low
  let reads := s.reads ++ [s.i, s.i + 1, s.i + 1, s.i + 2]
  let gbKey := searchCodeTable (halfword temp s.j)
  if gbKey ≠ 0 then
    let swapped := (gbKey >>> 8) ||| (gbKey <<< 8)
    { s with
      temp := put temp s.j [swapped.toUInt8, (swapped >>> 8).toUInt8]
      byteCount := 3
      reads := reads
      writes := s.writes ++ [s.j + 1, s.j, s.j, s.j + 1] }
  else
    { s with
      temp := temp
      byteCount := 3
      reads := reads
      writes := s.writes ++ [s.j + 1, s.j] }

/-- The `switch`, whose value is read from the text first. -/
def convert (utf8 : Int → UInt8) (s : St) : St :=
  let s := { s with reads := s.reads ++ [s.i] }
  match getUtf8ByteNumForWord (utf8 s.i) with
  | 0 =>
    { s with
      temp := put s.temp s.j [utf8 s.i]
      byteCount := 1
      reads := s.reads ++ [s.i]
      writes := s.writes ++ [s.j] }
  | 2 => case2 utf8 s
  | 3 => case3 utf8 s
  | 4 => { s with byteCount := 4 }
  | 5 => { s with byteCount := 5 }
  | 6 => { s with byteCount := 6 }
  | _ => s

def advance (s : St) : St :=
  { s with
    i := int32 (s.i + s.byteCount)
    j := if s.byteCount = 1 then int32 (s.j + 1) else int32 (s.j + 2) }

def utf8ToGb2312 (utf8 : Int → UInt8) (len : Int) (s : St) : Turn St St :=
  if s.i < len then .again (advance (convert utf8 s)) else .leave s

def start (temp : Int → UInt8) : St := ⟨0, 0, 0, temp, [], []⟩

end Convert

section Bounds

/-- How far a character reaches; a lead byte without a case keeps the count of the one before. -/
def charLen (before : Nat) (lead : UInt8) : Nat :=
  match getUtf8ByteNumForWord lead with
  | 0 => 1
  | 2 => 2
  | 3 => 3
  | 4 => 4
  | 5 => 5
  | 6 => 6
  | _ => before

def lookedAt (lead : UInt8) : Nat :=
  match getUtf8ByteNumForWord lead with
  | 2 => 2
  | 3 => 3
  | _ => 1

/-- A character of the text starts at `i`, behind one of `n` bytes. -/
inductive CharAt (utf8 : Int → UInt8) (len : Int) : Int → Nat → Prop
  | first : CharAt utf8 len 0 0
  | next {i : Int} {n : Nat} (here : CharAt utf8 len i n) (inside : i < len) :
      CharAt utf8 len (i + charLen n (utf8 i)) (charLen n (utf8 i))

/-- No character is empty, none is looked at behind the end of the text, and the end of each
is a value of `int`. -/
def WellCut (utf8 : Int → UInt8) (len : Int) : Prop :=
  ∀ i n, CharAt utf8 len i n → i < len →
    0 < charLen n (utf8 i) ∧ i + lookedAt (utf8 i) ≤ len ∧ i + charLen n (utf8 i) < 2147483648

def Inside (len : Int) (indices : List Int) : Prop := ∀ k ∈ indices, 0 ≤ k ∧ k < len

/-- All loops end, and both arrays are used below `len` only. -/
structure Bounded (utf8 : Int → UInt8) (len : Int) (temp : Int → UInt8) : Prop where
  counts : ∀ b, ∃ num, Ends (countTurn b) (0x80, 0) num
  searches : ∀ key, ∃ gb, Ends (searchTurn codeTable key) ⟨0, codeTableSize - 1⟩ gb
  converts : ∃ r, Ends (utf8ToGb2312 utf8 len) (start temp) r ∧ Inside len r.reads ∧
    Inside len r.writes

theorem int32_of {x : Int} (low : 0 ≤ x) (high : x < 2147483648) : int32 x = x := by
  unfold int32 Int.bmod
  dsimp only
  split <;> omega

theorem int32_overflow {x : Int} (low : 2147483648 ≤ x) (high : x < 4294967296) : int32 x < 0 := by
  unfold int32 Int.bmod
  dsimp only
  split <;> omega

theorem charLen_eq_zero {n : Nat} {lead : UInt8} (empty : charLen n lead = 0) : n = 0 := by
  unfold charLen at empty
  split at empty <;> omega

theorem charLen_le {n : Nat} {lead : UInt8} (small : n ≤ 6) : charLen n lead ≤ 6 := by
  unfold charLen
  split <;> omega

structure Converts (utf8 : Int → UInt8) (s t : St) : Prop where
  i : t.i = s.i
  j : t.j = s.j
  byteCount : t.byteCount = charLen s.byteCount (utf8 s.i)
  kept : s.reads ⊆ t.reads
  lead : s.i ∈ t.reads
  last : s.i + lookedAt (utf8 s.i) - 1 ∈ t.reads
  reads : ∀ k ∈ t.reads, k ∈ s.reads ∨ s.i ≤ k ∧ k < s.i + lookedAt (utf8 s.i)
  writes : ∀ k ∈ t.writes, k ∈ s.writes ∨ s.j ≤ k ∧ k < s.j + lookedAt (utf8 s.i)

theorem convert_converts (utf8 : Int → UInt8) (s : St) : Converts utf8 s (convert utf8 s) := by
  unfold convert
  dsimp only
  -- one goal for each case of the `switch`
  split <;> rename_i lead
  case h_3 =>
    unfold case3
    dsimp only
    split <;> constructor <;> grind [charLen, lookedAt]
  all_goals constructor <;> grind [case2, charLen, lookedAt]

variable {utf8 : Int → UInt8} {len : Int}

structure Scanning (utf8 : Int → UInt8) (len : Int) (s : St) : Prop where
  char : CharAt utf8 len s.i s.byteCount
  i : 0 ≤ s.i ∧ s.i < 2147483648
  j : 0 ≤ s.j ∧ s.j ≤ s.i
  reads : Inside len s.reads
  writes : Inside len s.writes

theorem scanning_turn (cut : WellCut utf8 len) (s : St) (scanning : Scanning utf8 len s) :
    (utf8ToGb2312 utf8 len s).Gives
      (fun t => Scanning utf8 len t ∧ (len - t.i).toNat < (len - s.i).toNat)
      (fun r => Inside len r.reads ∧ Inside len r.writes) := by
  have i := scanning.i
  have j := scanning.j
  unfold utf8ToGb2312
  split
  · rename_i inside
    have done := convert_converts utf8 s
    obtain ⟨advances, looked, fits⟩ := cut s.i s.byteCount scanning.char inside
    have next : (advance (convert utf8 s)).i = s.i + charLen s.byteCount (utf8 s.i) := by
      rw [advance, done.i, done.byteCount]
      exact int32_of (by omega) fits
    have filled : 0 ≤ (advance (convert utf8 s)).j ∧
        (advance (convert utf8 s)).j ≤ s.i + charLen s.byteCount (utf8 s.i) := by
      rw [advance, done.j, done.byteCount]
      dsimp only
      split
      · rw [int32_of (by omega) (by omega)]
        omega
      · rw [int32_of (by omega) (by omega)]
        omega
    constructor
    · constructor
      · rw [next]
        have char := CharAt.next scanning.char inside
        rwa [← done.byteCount] at char ⊢
      · omega
      · rw [next]
        exact filled
      · intro k used
        rcases done.reads k used with old | new
        · exact scanning.reads k old
        · omega
      · intro k used
        rcases done.writes k used with old | new
        · exact scanning.writes k old
        · omega
    · omega
  · exact ⟨scanning.reads, scanning.writes⟩

theorem start_scanning (temp : Int → UInt8) : Scanning utf8 len (start temp) := by
  constructor <;> simp [start, Inside, CharAt.first]

theorem turn_inside {s : St} (inside : s.i < len) :
    utf8ToGb2312 utf8 len s = .again (advance (convert utf8 s)) := by
  rw [utf8ToGb2312, if_pos inside]

theorem reads_kept {s r : St} (ends : Ends (utf8ToGb2312 utf8 len) s r) (inside : s.i < len) :
    (convert utf8 s).reads ⊆ r.reads := by
  apply ((ends_again (turn_inside inside)).mp ends).gives (I := ((convert utf8 s).reads ⊆ ·.reads))
  · intro t kept
    unfold utf8ToGb2312
    split
    · exact fun k read => (convert_converts utf8 t).kept (kept read)
    · exact kept
  · exact fun k read => read

theorem cut_of_bounded {s r : St} (ends : Ends (utf8ToGb2312 utf8 len) s r)
    (reads : Inside len r.reads) (i : 0 ≤ s.i ∧ s.i < 2147483648) (small : s.byteCount ≤ 6)
    (inside : s.i < len) :
    0 < charLen s.byteCount (utf8 s.i) ∧ s.i + lookedAt (utf8 s.i) ≤ len ∧
      s.i + charLen s.byteCount (utf8 s.i) < 2147483648 := by
  have done := convert_converts utf8 s
  have kept := reads_kept ends inside
  refine ⟨?_, ?_, ?_⟩
  · by_contra empty
    have stays : charLen s.byteCount (utf8 s.i) = 0 := by omega
    have first := charLen_eq_zero stays
    rw [first] at stays
    apply not_ends (I := fun t => t.i = s.i ∧ t.byteCount = 0) _ ⟨rfl, first⟩ r ends
    rintro t ⟨place, zero⟩
    have pass := convert_converts utf8 t
    have count : (convert utf8 t).byteCount = 0 := by
      rw [pass.byteCount, place, zero, stays]
    have on : t.i < len := by omega
    rw [turn_inside on]
    refine ⟨?_, count⟩
    rw [advance, pass.i, count, place, Int.natCast_zero, Int.add_zero]
    exact int32_of i.1 i.2
  · have last := reads _ (kept done.last)
    omega
  · by_contra overflow
    have short : charLen s.byteCount (utf8 s.i) ≤ 6 := charLen_le small
    have negative : (advance (convert utf8 s)).i < 0 := by
      rw [advance, done.i, done.byteCount]
      exact int32_overflow (by omega) (by omega)
    have again := reads_kept ((ends_again (turn_inside inside)).mp ends) (by omega)
    have first := reads _ (again (convert_converts utf8 _).lead)
    omega

theorem reaches_char {temp : Int → UInt8} {r : St}
    (ends : Ends (utf8ToGb2312 utf8 len) (start temp) r) (reads : Inside len r.reads) {i : Int}
    {n : Nat} (char : CharAt utf8 len i n) : ∃ s, Reaches (utf8ToGb2312 utf8 len) (start temp) s ∧
      s.i = i ∧ s.byteCount = n ∧ 0 ≤ i ∧ i < 2147483648 ∧ n ≤ 6 := by
  induction char with
  | first => exact ⟨start temp, .refl, rfl, rfl, by decide, by decide, by decide⟩
  | next here inside ih =>
    obtain ⟨s, way, rfl, rfl, low, high, small⟩ := ih
    have cut := cut_of_bounded ((ends_reaches way).mp ends) reads ⟨low, high⟩ small inside
    have done := convert_converts utf8 s
    refine ⟨advance (convert utf8 s), way.tail (turn_inside inside), ?_, done.byteCount, by omega,
      cut.2.2, charLen_le small⟩
    rw [advance, done.i, done.byteCount]
    exact int32_of (by omega) cut.2.2

theorem codeTable_sorted : Sorted UnicodeGb.value codeTable :=
  codeTable_ascending.imp (fun before => Nat.le_of_lt (UInt16.lt_iff_toNat_lt.mp before))

/-- The conversion ends and keeps to `len` bytes exactly for the texts that are cut well. -/
theorem utf8ToGb2312_bounded_iff (utf8 : Int → UInt8) (len : Int) (temp : Int → UInt8) :
    Bounded utf8 len temp ↔ WellCut utf8 len := by
  constructor
  · intro bounded
    obtain ⟨r, ends, reads, -⟩ := bounded.converts
    intro i n char inside
    obtain ⟨s, way, rfl, rfl, low, high, small⟩ := reaches_char ends reads char
    exact cut_of_bounded ((ends_reaches way).mp ends) reads ⟨low, high⟩ small inside
  · intro cut
    constructor
    · exact fun b => ⟨_, count_ends b⟩
    · intro key
      have found := (search_ends codeTable_sorted key).1
      rw [codeTable_length] at found
      exact ⟨_, found⟩
    · exact ends_of_measure (fun s => (len - s.i).toNat) (scanning_turn cut) (start_scanning temp)

/-- A stray continuation byte at the front is scanned for ever, and the second byte of a
character that is cut off is looked for behind the text. -/
theorem utf8ToGb2312_unbounded :
    ¬ Bounded (fun _ => 0x80) 1 (fun _ => 0) ∧ ¬ Bounded (fun _ => 0xC3) 1 (fun _ => 0) := by
  constructor <;> intro bounded <;> obtain ⟨r, ends, reads, -⟩ := bounded.converts
  · have cut := cut_of_bounded ends reads (by decide) (by decide) (by decide)
    exact absurd cut.1 (by decide)
  · have cut := cut_of_bounded ends reads (by decide) (by decide) (by decide)
    exact absurd cut.2.1 (by decide)

end Bounds

section Text

/-- The bytes stand in the array from `i` on. -/
def Holds (array : Int → UInt8) (i : Int) : List UInt8 → Prop
  | [] => True
  | b :: bytes => array i = b ∧ Holds array (i + 1) bytes

def utf8Of (text : List Char) : List UInt8 := text.flatMap String.utf8EncodeChar

/-- An ASCII character, or the code of the table with its high byte first. -/
def gbOf (c : Char) : List UInt8 :=
  if c.toNat < 0x80 then [.ofNat c.toNat]
  else
    match codeTable.find? (fun e => e.value = c.toNat) with
    | some e => [(e.gb >>> 8).toUInt8, e.gb.toUInt8]
    | none => []

def Convertible (c : Char) : Prop := c.toNat < 0x80 ∨ ∃ e ∈ codeTable, e.value = c.toNat

theorem lead_three {v : Nat} : getUtf8ByteNumForWord (.ofNat (v / 4096 % 16 + 224)) = 3 := by
  have all : ∀ d : Fin 16, getUtf8ByteNumForWord (.ofNat (d + 224)) = 3 := by decide +kernel
  exact all ⟨v / 4096 % 16, by omega⟩

theorem lead_ascii {v : Nat} (ascii : v < 128) : getUtf8ByteNumForWord (.ofNat v) = 0 := by
  have all : ∀ d : Fin 128, getUtf8ByteNumForWord (.ofNat d) = 0 := by decide +kernel
  exact all ⟨v, ascii⟩

theorem high_byte {v : Nat} (small : v < 65536) :
    (((.ofNat (v / 4096 % 16 + 224) : UInt8) &&& 0x0F) <<< 4) |||
      (((.ofNat (v / 64 % 64 + 128) : UInt8) >>> 2) &&& 0x0F) = .ofNat (v / 256) := by
  have all : ∀ (a : Fin 16) (b : Fin 64), (((.ofNat (a + 224) : UInt8) &&& 0x0F) <<< 4) |||
      (((.ofNat (b + 128) : UInt8) >>> 2) &&& 0x0F) = .ofNat (16 * a + b / 4) := by decide +kernel
  have sum : 16 * (v / 4096 % 16) + v / 64 % 64 / 4 = v / 256 := by omega
  rw [← sum]
  exact all ⟨v / 4096 % 16, by omega⟩ ⟨v / 64 % 64, by omega⟩

theorem low_byte (v : Nat) :
    (((.ofNat (v / 64 % 64 + 128) : UInt8) &&& 0x03) <<< 6) +
      ((.ofNat (v % 64 + 128) : UInt8) &&& 0x3F) = .ofNat (v % 256) := by
  have all : ∀ b c : Fin 64, (((.ofNat (b + 128) : UInt8) &&& 0x03) <<< 6) +
      ((.ofNat (c + 128) : UInt8) &&& 0x3F) = .ofNat (b % 4 * 64 + c) := by decide +kernel
  have sum : v / 64 % 64 % 4 * 64 + v % 64 = v % 256 := by omega
  rw [← sum]
  exact all ⟨v / 64 % 64, by omega⟩ ⟨v % 64, by omega⟩

theorem or_bytes (n : Nat) : n % 256 ||| n / 256 * 256 = n := by
  have low := Nat.mod_lt n (by decide : 0 < 2 ^ 8)
  have sum := Nat.shiftLeft_add_eq_or_of_lt low (n / 256)
  simp only [Nat.shiftLeft_eq, Nat.reducePow] at sum
  rw [Nat.or_comm, ← sum]
  omega

theorem halfword_bytes {temp : Int → UInt8} {j : Int} (w : UInt16)
    (low : temp j = .ofNat (w.toNat % 256)) (high : temp (j + 1) = .ofNat (w.toNat / 256)) :
    halfword temp j = w := by
  have size := w.toNat_lt
  have small : w.toNat / 256 < 256 := by omega
  have fits : w.toNat / 256 * 256 < 65536 := by omega
  apply UInt16.toNat_inj.mp
  rw [halfword, low, high]
  simp [Nat.shiftLeft_eq, Nat.mod_eq_of_lt small, Nat.mod_eq_of_lt fits, or_bytes]

theorem swapped_low (gb : UInt16) :
    ((gb >>> 8) ||| (gb <<< 8)).toUInt8 = (gb >>> 8).toUInt8 := by
  apply UInt8.toNat_inj.mp
  simp [Nat.shiftLeft_eq]

theorem swapped_high (gb : UInt16) :
    (((gb >>> 8) ||| (gb <<< 8)) >>> 8).toUInt8 = gb.toUInt8 := by
  apply UInt8.eq_of_toBitVec_eq
  ext i h
  have beyond : gb.toBitVec.getLsbD (8 + (8 + i)) = false := BitVec.getLsbD_of_ge _ _ (by omega)
  have inside : 8 + i < 16 := by omega
  have low : i < 16 := by omega
  simp [beyond, inside, BitVec.getLsbD_eq_getElem low]

theorem holds_append (array : Int → UInt8) (i : Int) (xs ys : List UInt8) :
    Holds array i (xs ++ ys) ↔ Holds array i xs ∧ Holds array (i + xs.length) ys := by
  induction xs generalizing i with
  | nil => simp [Holds]
  | cons b xs ih =>
    rw [List.cons_append, Holds, Holds, ih, and_assoc, List.length_cons]
    have place : i + 1 + (xs.length : Int) = i + ((xs.length + 1 : Nat) : Int) := by omega
    rw [place]

theorem put_append (temp : Int → UInt8) (j : Int) (xs ys : List UInt8) :
    put temp j (xs ++ ys) = put (put temp j xs) (j + xs.length) ys := by
  induction xs generalizing temp j with
  | nil => simp [put]
  | cons b xs ih =>
    rw [List.cons_append, put, put, ih, List.length_cons]
    have place : j + 1 + (xs.length : Int) = j + ((xs.length + 1 : Nat) : Int) := by omega
    rw [place]

theorem put_outside (temp : Int → UInt8) (bytes : List UInt8) {j k : Int}
    (out : k < j ∨ j + bytes.length ≤ k) : put temp j bytes k = temp k := by
  induction bytes generalizing temp j with
  | nil => rfl
  | cons b bytes ih =>
    rw [List.length_cons] at out
    rw [put, ih _ (by omega), Function.update_of_ne (by omega)]

theorem put_holds (temp : Int → UInt8) (j : Int) (bytes : List UInt8) :
    Holds (put temp j bytes) j bytes := by
  induction bytes generalizing temp j with
  | nil => trivial
  | cons b bytes ih =>
    refine ⟨?_, ih _ _⟩
    rw [put, put_outside _ _ (Or.inl (by omega)), Function.update_self]

theorem entry_unique {e f : UnicodeGb} (one : e ∈ codeTable) (other : f ∈ codeTable)
    (same : e.value = f.value) : e = f := by
  have distinct : (codeTable.map UnicodeGb.value).Nodup :=
    List.pairwise_map.mpr (codeTable_ascending.imp (fun before =>
      Nat.ne_of_lt (UInt16.lt_iff_toNat_lt.mp before)))
  exact List.inj_on_of_nodup_map distinct one other same

theorem searchCodeTable_entry {e : UnicodeGb} (member : e ∈ codeTable) :
    searchCodeTable e.unicode = e.gb := by
  obtain ⟨-, found⟩ := search_ends codeTable_sorted e.unicode
  unfold searchCodeTable
  cases look : search codeTable e.unicode with
  | none =>
    rw [look] at found
    exact absurd rfl (found e member)
  | some gb =>
    rw [look] at found
    exact congrArg UnicodeGb.gb (entry_unique found member rfl)

theorem gbOf_entry {c : Char} {e : UnicodeGb} (member : e ∈ codeTable) (value : e.value = c.toNat) :
    gbOf c = [(e.gb >>> 8).toUInt8, e.gb.toUInt8] := by
  have wide := UInt16.le_iff_toNat_le.mp (codeTable_entries member).1
  have large : ¬ c.toNat < 0x80 := by
    rw [← value]
    simp only [UnicodeGb.value, UInt16.reduceToNat] at wide ⊢
    omega
  have found : codeTable.find? (fun f => f.value = c.toNat) = some e := by
    cases look : codeTable.find? (fun f => f.value = c.toNat) with
    | none =>
      have absent := List.find?_eq_none.mp look e member
      simp [value] at absent
    | some f =>
      have same : f.value = c.toNat := by simpa using List.find?_some look
      rw [entry_unique (List.mem_of_find?_eq_some look) member (same.trans value.symm)]
  rw [gbOf, if_neg large, found]

theorem utf8_ascii {c : Char} (ascii : c.toNat < 0x80) :
    String.utf8EncodeChar c = [.ofNat c.toNat] := by
  have small : c.val.toNat ≤ 0x7F := Nat.le_of_lt_succ ascii
  rw [String.utf8EncodeChar, if_pos small]
  rfl

theorem utf8_three {c : Char} (low : 0x800 ≤ c.toNat) (high : c.toNat < 65536) :
    String.utf8EncodeChar c = [.ofNat (c.toNat / 4096 % 16 + 224),
      .ofNat (c.toNat / 64 % 64 + 128), .ofNat (c.toNat % 64 + 128)] := by
  have value : c.val.toNat = c.toNat := rfl
  have one : ¬ c.toNat ≤ 0x7F := by omega
  have two : ¬ c.toNat ≤ 0x7FF := by omega
  have three : c.toNat ≤ 0xFFFF := by omega
  simp only [String.utf8EncodeChar, value, one, two, three, if_true, if_false]

theorem case3_entry {utf8 : Int → UInt8} {s : St} {c : Char} {e : UnicodeGb}
    (member : e ∈ codeTable) (value : e.value = c.toNat) (wide : 0x800 ≤ c.toNat)
    (given : Holds utf8 s.i (String.utf8EncodeChar c)) :
    (case3 utf8 s).temp = put s.temp s.j [(e.gb >>> 8).toUInt8, e.gb.toUInt8] := by
  have small : c.toNat < 65536 := by
    rw [← value]
    exact e.unicode.toNat_lt
  rw [utf8_three wide small] at given
  obtain ⟨first, second, third, -⟩ := given
  have place : s.i + 1 + 1 = s.i + 2 := by omega
  rw [place] at third
  unfold case3
  dsimp only
  rw [first, second, third, high_byte small, low_byte]
  have key : halfword (Function.update (Function.update s.temp (s.j + 1)
      (.ofNat (c.toNat / 256))) s.j (.ofNat (c.toNat % 256))) s.j = e.unicode := by
    apply halfword_bytes
    · rw [Function.update_self]
      exact congrArg (fun n => UInt8.ofNat (n % 256)) value.symm
    · rw [Function.update_of_ne (by omega), Function.update_self]
      exact congrArg (fun n => UInt8.ofNat (n / 256)) value.symm
  rw [key, searchCodeTable_entry member, if_pos (codeTable_entries member).2, swapped_low,
    swapped_high]
  dsimp only [put]
  rw [Function.update_idem]
  funext k
  by_cases second : k = s.j + 1
  · rw [second, Function.update_self, Function.update_self]
  · rw [Function.update_of_ne second, Function.update_of_ne second]
    by_cases first : k = s.j
    · rw [first, Function.update_self, Function.update_self]
    · rw [Function.update_of_ne first, Function.update_of_ne first, Function.update_of_ne second]

structure Passed (utf8 : Int → UInt8) (s : St) (c : Char) : Prop where
  temp : (convert utf8 s).temp = put s.temp s.j (gbOf c)
  taken : charLen s.byteCount (utf8 s.i) = (String.utf8EncodeChar c).length
  given : (gbOf c).length = if charLen s.byteCount (utf8 s.i) = 1 then 1 else 2

theorem convert_ascii {s : St} {c : Char} {utf8 : Int → UInt8} (ascii : c.toNat < 0x80)
    (given : Holds utf8 s.i (String.utf8EncodeChar c)) : Passed utf8 s c := by
  rw [utf8_ascii ascii] at given
  have lead : getUtf8ByteNumForWord (utf8 s.i) = 0 := by
    rw [given.1]
    exact lead_ascii ascii
  have code : gbOf c = [utf8 s.i] := by
    rw [gbOf, if_pos ascii, given.1]
  constructor
  · simp only [convert, lead, code]
  · rw [utf8_ascii ascii, charLen, lead]
    rfl
  · rw [code, charLen, lead]
    rfl

theorem convert_entry {s : St} {c : Char} {e : UnicodeGb} {utf8 : Int → UInt8}
    (member : e ∈ codeTable) (value : e.value = c.toNat)
    (given : Holds utf8 s.i (String.utf8EncodeChar c)) : Passed utf8 s c := by
  have wide : 0x800 ≤ c.toNat := by
    rw [← value]
    exact UInt16.le_iff_toNat_le.mp (codeTable_entries member).1
  have small : c.toNat < 65536 := by
    rw [← value]
    exact e.unicode.toNat_lt
  have bytes := utf8_three wide small
  have lead : getUtf8ByteNumForWord (utf8 s.i) = 3 := by
    rw [bytes] at given
    rw [given.1]
    exact lead_three
  constructor
  · simp only [convert, lead, gbOf_entry member value]
    exact case3_entry member value wide given
  · rw [bytes, charLen, lead]
    rfl
  · rw [gbOf_entry member value, charLen, lead]
    rfl

theorem convert_char {s : St} {c : Char} {utf8 : Int → UInt8} (known : Convertible c)
    (given : Holds utf8 s.i (String.utf8EncodeChar c)) : Passed utf8 s c := by
  rcases known with ascii | ⟨e, member, value⟩
  · exact convert_ascii ascii given
  · exact convert_entry member value given

theorem utf8EncodeChar_pos (c : Char) : 0 < (String.utf8EncodeChar c).length := by
  unfold String.utf8EncodeChar
  dsimp only
  split_ifs <;> simp

theorem text_ends {utf8 : Int → UInt8} {len : Int} (fits : len < 2147483648) {text : List Char}
    (known : ∀ c ∈ text, Convertible c) {s : St} (given : Holds utf8 s.i (utf8Of text))
    (rest : s.i + (utf8Of text).length = len) (i : 0 ≤ s.i) (j : 0 ≤ s.j ∧ s.j ≤ s.i) :
    ∃ r, Ends (utf8ToGb2312 utf8 len) s r ∧ r.j = s.j + (text.flatMap gbOf).length ∧
      r.temp = put s.temp s.j (text.flatMap gbOf) := by
  induction text generalizing s with
  | nil =>
    have whole : ¬ s.i < len := by
      simp only [utf8Of, List.flatMap_nil, List.length_nil] at rest
      omega
    refine ⟨s, ends_leave (if_neg whole), ?_, rfl⟩
    simp
  | cons c text ih =>
    have split : utf8Of (c :: text) = String.utf8EncodeChar c ++ utf8Of text := rfl
    rw [split, holds_append] at given
    rw [split, List.length_append] at rest
    have positive := utf8EncodeChar_pos c
    have passed := convert_char (known c List.mem_cons_self) given.1
    have done := convert_converts utf8 s
    have inside : s.i < len := by omega
    have next : (advance (convert utf8 s)).i = s.i + (String.utf8EncodeChar c).length := by
      rw [advance, done.i, done.byteCount, passed.taken]
      exact int32_of (by omega) (by omega)
    have count : (gbOf c).length ≤ (String.utf8EncodeChar c).length := by
      rw [passed.given, passed.taken]
      split <;> omega
    have filled : (advance (convert utf8 s)).j = s.j + (gbOf c).length := by
      rw [advance, done.j, done.byteCount, passed.given]
      dsimp only
      rw [passed.given] at count
      split
      · exact int32_of (by omega) (by omega)
      · rename_i wide
        rw [if_neg wide] at count
        exact int32_of (by omega) (by omega)
    have temp : (advance (convert utf8 s)).temp = put s.temp s.j (gbOf c) := passed.temp
    rw [← next] at given
    obtain ⟨r, ends, last, out⟩ := ih (fun d later => known d (List.mem_cons_of_mem c later))
      given.2 (by omega) (by omega) (by omega)
    refine ⟨r, (ends_again (turn_inside inside)).mpr ends, ?_, ?_⟩
    · rw [last, filled, List.flatMap_cons, List.length_append]
      omega
    · rw [out, temp, filled, List.flatMap_cons, put_append]

/-- A text of ASCII characters and characters of the table becomes their codes, in order; a
search in any sorted table finds a key if and only if an entry has it. -/
theorem utf8ToGb2312_text (text : List Char) (known : ∀ c ∈ text, Convertible c)
    (utf8 : Int → UInt8) (given : Holds utf8 0 (utf8Of text))
    (fits : (utf8Of text).length < 2147483648) (temp : Int → UInt8) :
    (∃ r, Ends (utf8ToGb2312 utf8 (utf8Of text).length) (start temp) r ∧
      r.j = (text.flatMap gbOf).length ∧ Holds r.temp 0 (text.flatMap gbOf) ∧
      ∀ k, k < 0 ∨ r.j ≤ k → r.temp k = temp k) ∧
    ∀ table, Sorted UnicodeGb.value table → ∀ key,
      Ends (searchTurn table key) ⟨0, table.length - 1⟩ (search table key) ∧
        ((search table key).isSome ↔ ∃ e ∈ table, e.unicode = key) ∧
        ∀ gb, search table key = some gb → ⟨key, gb⟩ ∈ table := by
  constructor
  · obtain ⟨r, ends, last, out⟩ := text_ends (s := start temp) (by omega) known given
      (Int.zero_add _) (Int.le_refl 0) ⟨Int.le_refl 0, Int.le_refl 0⟩
    rw [start, Int.zero_add] at last
    refine ⟨r, ends, last, ?_, ?_⟩
    · rw [out]
      exact put_holds temp 0 _
    · intro k outside
      rw [out]
      exact put_outside temp _ (by
        dsimp only [start]
        omega)
  · intro table sorted key
    obtain ⟨ends, found⟩ := search_ends sorted key
    refine ⟨ends, ?_, ?_⟩
    · cases look : search table key with
      | none =>
        rw [look] at found
        simpa [Found] using found
      | some gb =>
        rw [look] at found
        exact iff_of_true rfl ⟨_, found, rfl⟩
    · intro gb look
      rw [look] at found
      exact found

def sample : List Char := ['A', '\u4E00', '\uE814']

def sampleBytes (k : Int) : UInt8 := [0x41, 0xE4, 0xB8, 0x80, 0xEE, 0xA0, 0x94].getD k.toNat 0

theorem utf8ToGb2312_text_sample : (∃ r, Ends (utf8ToGb2312 sampleBytes 7) (start fun _ => 0) r ∧
    r.j = 5 ∧ Holds r.temp 0 [0x41, 0xD2, 0xBB, 0xD7, 0xFE]) ∧
    (search codeTable 0x4E00).isSome ∧ (search codeTable 0xE814).isSome := by
  have first : ⟨0x4E00, 0xD2BB⟩ ∈ codeTable := List.mem_of_getElem? (i := 0) (by decide +kernel)
  have last : ⟨0xE814, 0xD7FE⟩ ∈ codeTable := List.mem_of_getElem? (i := 6767) (by decide +kernel)
  have known : ∀ c ∈ sample, Convertible c := by
    simp only [sample, List.forall_mem_cons]
    exact ⟨Or.inl (by decide), Or.inr ⟨_, first, rfl⟩, Or.inr ⟨_, last, rfl⟩, by simp⟩
  have codes : sample.flatMap gbOf = [0x41, 0xD2, 0xBB, 0xD7, 0xFE] := by decide +kernel
  obtain ⟨⟨r, ends, length, bytes, -⟩, found⟩ := utf8ToGb2312_text sample known sampleBytes
    ⟨rfl, rfl, rfl, rfl, rfl, rfl, rfl, trivial⟩ (by decide) (fun _ => 0)
  rw [codes] at length bytes
  exact ⟨⟨r, ends, length, bytes⟩,
    (found codeTable codeTable_sorted 0x4E00).2.1.mpr ⟨_, first, rfl⟩,
    (found codeTable codeTable_sorted 0xE814).2.1.mpr ⟨_, last, rfl⟩⟩

end Text

end BoxFirmware.U2gbk
