import BoxFirmware.Loop
import Mathlib.Logic.Function.Basic
import Mathlib.Tactic.SplitIfs

/-! `stmflash.c`: words are written to the flash of the processor, where sectors that are not
blank are erased first. An operation of the flash completes, or it fails and leaves anything in
the sector or the word that it was about. -/
namespace BoxFirmware.Stmflash
open Loop

section Chip

/-- The words of the flash at their byte addresses. -/
abbrev Flash := Nat → UInt32

def stm32FlashBase : Nat := 0x08000000
def flashEnd : Nat := 0x08100000
def blank : UInt32 := 0xFFFFFFFF

def sectorSize (n : Nat) : Nat := if n < 4 then 0x4000 else if n = 4 then 0x10000 else 0x20000

def sectorBase : Nat → Nat
  | 0 => stm32FlashBase
  | n + 1 => sectorBase n + sectorSize n

def InSector (n a : Nat) : Prop := sectorBase n ≤ a ∧ a < sectorBase n + sectorSize n

instance (n a : Nat) : Decidable (InSector n a) := inferInstanceAs (Decidable (_ ∧ _))

inductive Outcome where
  | complete
  | failed (left : Flash)

def fillSector (n : Nat) (content mem : Flash) : Flash :=
  fun a => if InSector n a then content a else mem a

/-- The number of the sector stands from bit 3 on; `true` is `FLASH_COMPLETE`. -/
def flashEraseSector (outcome : Outcome) (flashSector : UInt16) (mem : Flash) : Bool × Flash :=
  let n := flashSector.toNat / 8
  match outcome with
  | .complete => (true, fillSector n (fun _ => blank) mem)
  | .failed left => (false, fillSector n left mem)

def flashProgramWord (outcome : Outcome) (address data : UInt32) (mem : Flash) : Bool × Flash :=
  let a := address.toNat
  match outcome with
  | .complete => (true, Function.update mem a (mem a &&& data))
  | .failed left => (false, Function.update mem a (left a))

end Chip

section Driver

def stmflashReadWord (mem : Flash) (faddr : UInt32) : UInt32 := mem faddr.toNat

def stmflashGetFlashSector (addr : UInt32) : UInt16 :=
  if addr < 0x08004000 then 0x0000
  else if addr < 0x08008000 then 0x0008
  else if addr < 0x0800C000 then 0x0010
  else if addr < 0x08010000 then 0x0018
  else if addr < 0x08020000 then 0x0020
  else if addr < 0x08040000 then 0x0028
  else if addr < 0x08060000 then 0x0030
  else if addr < 0x08080000 then 0x0038
  else if addr < 0x080A0000 then 0x0040
  else if addr < 0x080C0000 then 0x0048
  else if addr < 0x080E0000 then 0x0050
  else 0x0058

/-- The variables of the function, the flash, and how many operations were started. -/
structure St where
  addrx : UInt32
  writeAddr : UInt32
  pBuffer : Nat
  mem : Flash
  done : Nat

/-- `while (addrx < endaddr)`; the result says whether the status is still `FLASH_COMPLETE`. -/
def eraseTurn (ops : Nat → Outcome) (endaddr : UInt32) (s : St) : Turn St (Bool × St) :=
  if s.addrx < endaddr then
    if stmflashReadWord s.mem s.addrx ≠ 0xFFFFFFFF then
      let (status, mem) := flashEraseSector (ops s.done) (stmflashGetFlashSector s.addrx) s.mem
      let t := { s with mem := mem, done := s.done + 1 }
      if status then .again t else .leave (false, t)
    else .again { s with addrx := s.addrx + 4 }
  else .leave (true, s)

def programTurn (ops : Nat → Outcome) (buffer : Nat → UInt32) (endaddr : UInt32) (s : St) :
    Turn St St :=
  if s.writeAddr < endaddr then
    let (status, mem) := flashProgramWord (ops s.done) s.writeAddr (buffer s.pBuffer) s.mem
    let t := { s with mem := mem, done := s.done + 1 }
    if status then .again { t with writeAddr := t.writeAddr + 4, pBuffer := t.pBuffer + 1 }
    else .leave t
  else .leave s

/-- Both loops with a number of turns; `none` when these are not enough. -/
def stmflashWrite (turns : Nat) (ops : Nat → Outcome) (writeAddr : UInt32) (buffer : Nat → UInt32)
    (numToWrite : UInt32) (mem : Flash) : Option St :=
  let s : St := ⟨writeAddr, writeAddr, 0, mem, 0⟩
  if writeAddr < 0x08000000 ∨ writeAddr % 4 ≠ 0 then some s
  else
    let endaddr := writeAddr + numToWrite * 4
    let erased :=
      if s.addrx < 0x1FFF0000 then run (eraseTurn ops endaddr) turns s else some (true, s)
    match erased with
    | none => none
    | some (true, s) => run (programTurn ops buffer endaddr) turns s
    | some (false, s) => some s

end Driver

section Sectors

theorem inSector_of (n lo hi : Nat) {a : Nat} (base : sectorBase n = lo)
    (top : sectorBase (n + 1) = hi) (low : lo ≤ a) (high : a < hi) : InSector n a := by
  subst base top
  exact ⟨low, high⟩

theorem stmflashGetFlashSector_inSector {addr : UInt32} (low : stm32FlashBase ≤ addr.toNat)
    (high : addr.toNat < flashEnd) : ∃ n < 12, (stmflashGetFlashSector addr).toNat = 8 * n ∧
      InSector n addr.toNat := by
  unfold stmflashGetFlashSector
  simp only [UInt32.lt_iff_toNat_lt, UInt32.reduceToNat]
  by_cases below : addr.toNat < 0x08004000
  · rw [if_pos below]
    exact ⟨0, by decide, rfl, inSector_of 0 0x08000000 0x08004000 rfl rfl low below⟩
  rw [if_neg below]
  by_cases below : addr.toNat < 0x08008000
  · rw [if_pos below]
    exact ⟨1, by decide, rfl, inSector_of 1 0x08004000 0x08008000 rfl rfl (by omega) below⟩
  rw [if_neg below]
  by_cases below : addr.toNat < 0x0800C000
  · rw [if_pos below]
    exact ⟨2, by decide, rfl, inSector_of 2 0x08008000 0x0800C000 rfl rfl (by omega) below⟩
  rw [if_neg below]
  by_cases below : addr.toNat < 0x08010000
  · rw [if_pos below]
    exact ⟨3, by decide, rfl, inSector_of 3 0x0800C000 0x08010000 rfl rfl (by omega) below⟩
  rw [if_neg below]
  by_cases below : addr.toNat < 0x08020000
  · rw [if_pos below]
    exact ⟨4, by decide, rfl, inSector_of 4 0x08010000 0x08020000 rfl rfl (by omega) below⟩
  rw [if_neg below]
  by_cases below : addr.toNat < 0x08040000
  · rw [if_pos below]
    exact ⟨5, by decide, rfl, inSector_of 5 0x08020000 0x08040000 rfl rfl (by omega) below⟩
  rw [if_neg below]
  by_cases below : addr.toNat < 0x08060000
  · rw [if_pos below]
    exact ⟨6, by decide, rfl, inSector_of 6 0x08040000 0x08060000 rfl rfl (by omega) below⟩
  rw [if_neg below]
  by_cases below : addr.toNat < 0x08080000
  · rw [if_pos below]
    exact ⟨7, by decide, rfl, inSector_of 7 0x08060000 0x08080000 rfl rfl (by omega) below⟩
  rw [if_neg below]
  by_cases below : addr.toNat < 0x080A0000
  · rw [if_pos below]
    exact ⟨8, by decide, rfl, inSector_of 8 0x08080000 0x080A0000 rfl rfl (by omega) below⟩
  rw [if_neg below]
  by_cases below : addr.toNat < 0x080C0000
  · rw [if_pos below]
    exact ⟨9, by decide, rfl, inSector_of 9 0x080A0000 0x080C0000 rfl rfl (by omega) below⟩
  rw [if_neg below]
  by_cases below : addr.toNat < 0x080E0000
  · rw [if_pos below]
    exact ⟨10, by decide, rfl, inSector_of 10 0x080C0000 0x080E0000 rfl rfl (by omega) below⟩
  rw [if_neg below]
  exact ⟨11, by decide, rfl, inSector_of 11 0x080E0000 0x08100000 rfl rfl (by omega) high⟩

def Intersects (lo hi n : Nat) : Prop := ∃ t, lo ≤ t ∧ t < hi ∧ InSector n t

/-- Only sectors that intersect the range from `lo` to `hi` may differ. -/
def Frame (lo hi : Nat) (mem mem' : Flash) : Prop :=
  ∀ a, (∀ n < 12, Intersects lo hi n → ¬ InSector n a) → mem' a = mem a

variable {lo hi : Nat} {mem mem' : Flash}

theorem Frame.refl : Frame lo hi mem mem := fun _ _ => rfl

theorem Frame.fill (frame : Frame lo hi mem mem') {n : Nat} (sector : n < 12)
    (meets : Intersects lo hi n) (content : Flash) :
    Frame lo hi mem (fillSector n content mem') := by
  intro a out
  rw [fillSector, if_neg (out n sector meets)]
  exact frame a out

theorem Frame.update (frame : Frame lo hi mem mem') {n a : Nat} (sector : n < 12)
    (inside : InSector n a) (low : lo ≤ a) (high : a < hi) (v : UInt32) :
    Frame lo hi mem (Function.update mem' a v) := by
  intro b out
  have other : b ≠ a := by
    intro same
    exact out n sector ⟨a, low, high, inside⟩ (same ▸ inside)
  rw [Function.update_of_ne other]
  exact frame b out

end Sectors

section Write

/-- The words of the range before `addrx` are blank, the rest of the sectors is as it was. -/
structure Erasing (lo hi : Nat) (mem : Flash) (s : St) : Prop where
  addrx : lo ≤ s.addrx.toNat ∧ s.addrx.toNat ≤ hi
  aligned : s.addrx.toNat % 4 = 0
  erased : ∀ a, lo ≤ a → a < s.addrx.toNat → a % 4 = 0 → s.mem a = blank
  frame : Frame lo hi mem s.mem
  writeAddr : s.writeAddr.toNat = lo
  pBuffer : s.pBuffer = 0

structure Erased (ops : Nat → Outcome) (lo hi : Nat) (mem : Flash) (r : Bool × St) : Prop where
  frame : Frame lo hi mem r.2.mem
  failed : r.1 = false → ∃ k < r.2.done, ops k ≠ .complete
  erased : r.1 = true → ∀ a, lo ≤ a → a < hi → a % 4 = 0 → r.2.mem a = blank
  writeAddr : r.2.writeAddr.toNat = lo
  pBuffer : r.2.pBuffer = 0

def eraseMeasure (hi : Nat) (s : St) : Nat :=
  2 * (hi - s.addrx.toNat) + if s.mem s.addrx.toNat = blank then 0 else 1

variable {ops : Nat → Outcome} {lo hi : Nat} {mem : Flash} {s : St}

theorem Erasing.erase (erasing : Erasing lo hi mem s) {n : Nat} (sector : n < 12)
    (meets : Intersects lo hi n) :
    Erasing lo hi mem
      { s with mem := fillSector n (fun _ => blank) s.mem, done := s.done + 1 } := by
  constructor
  · exact erasing.addrx
  · exact erasing.aligned
  · intro a after before word
    dsimp only [fillSector]
    split
    · rfl
    · exact erasing.erased a after before word
  · exact erasing.frame.fill sector meets _
  · exact erasing.writeAddr
  · exact erasing.pBuffer

theorem Erasing.pass (erasing : Erasing lo hi mem s) (more : s.addrx.toNat < hi)
    (even : hi % 4 = 0) (word : s.mem s.addrx.toNat = blank)
    (next : (s.addrx + 4).toNat = s.addrx.toNat + 4) :
    Erasing lo hi mem { s with addrx := s.addrx + 4 } := by
  have addrx := erasing.addrx
  have aligned := erasing.aligned
  constructor
  · dsimp only
    omega
  · dsimp only
    omega
  · intro a after before four
    dsimp only at before ⊢
    rcases Nat.lt_or_ge a s.addrx.toNat with earlier | here
    · exact erasing.erased a after earlier four
    · obtain rfl : a = s.addrx.toNat := by omega
      exact word
  · exact erasing.frame
  · exact erasing.writeAddr
  · exact erasing.pBuffer

theorem word_next {a hi : UInt32} (more : a.toNat < hi.toNat) (high : hi.toNat ≤ flashEnd) :
    (a + 4).toNat = a.toNat + 4 := by
  have small : flashEnd < 4294967290 := by decide
  have sum := UInt32.toNat_add a 4
  simp only [UInt32.reduceToNat] at sum
  omega

theorem eraseTurn_erases {endaddr : UInt32} (low : stm32FlashBase ≤ lo)
    (high : endaddr.toNat ≤ flashEnd) (even : endaddr.toNat % 4 = 0) (s : St)
    (erasing : Erasing lo endaddr.toNat mem s) :
    (eraseTurn ops endaddr s).Gives
      (fun t => Erasing lo endaddr.toNat mem t ∧
        eraseMeasure endaddr.toNat t < eraseMeasure endaddr.toNat s)
      (Erased ops lo endaddr.toNat mem) := by
  have addrx := erasing.addrx
  unfold eraseTurn
  split
  · rename_i more
    rw [UInt32.lt_iff_toNat_lt] at more
    obtain ⟨n, sector, number, inside⟩ :=
      stmflashGetFlashSector_inSector (by omega) (Nat.lt_of_lt_of_le more high)
    have meets : Intersects lo endaddr.toNat n := ⟨s.addrx.toNat, addrx.1, more, inside⟩
    have index : (stmflashGetFlashSector s.addrx).toNat / 8 = n := by omega
    split
    · rename_i dirty
      cases outcome : ops s.done with
      | complete =>
        simp only [flashEraseSector, index, if_true]
        refine ⟨erasing.erase sector meets, ?_⟩
        have now : fillSector n (fun _ => blank) s.mem s.addrx.toNat = blank := if_pos inside
        have was : ¬ s.mem s.addrx.toNat = blank := dirty
        dsimp only [eraseMeasure]
        rw [if_pos now, if_neg was]
        omega
      | failed left =>
        simp only [flashEraseSector, index]
        constructor
        · exact erasing.frame.fill sector meets left
        · intro _
          exact ⟨s.done, Nat.lt_succ_self _, by simp [outcome]⟩
        · intro wrong
          cases wrong
        · exact erasing.writeAddr
        · exact erasing.pBuffer
    · rename_i clean
      have word : s.mem s.addrx.toNat = blank := Decidable.not_not.mp clean
      have next := word_next more high
      refine ⟨erasing.pass more even word next, ?_⟩
      dsimp only [eraseMeasure]
      rw [next, if_pos word]
      split <;> omega
  · rename_i past
    rw [UInt32.lt_iff_toNat_lt] at past
    constructor
    · exact erasing.frame
    · intro wrong
      cases wrong
    · intro _ a after before four
      exact erasing.erased a after (by omega) four
    · exact erasing.writeAddr
    · exact erasing.pBuffer

structure Programming (buffer : Nat → UInt32) (lo hi : Nat) (mem : Flash) (s : St) : Prop where
  writeAddr : s.writeAddr.toNat = lo + 4 * s.pBuffer ∧ lo + 4 * s.pBuffer ≤ hi
  written : ∀ k < s.pBuffer, s.mem (lo + 4 * k) = buffer k
  erased : ∀ k, s.pBuffer ≤ k → lo + 4 * k < hi → s.mem (lo + 4 * k) = blank
  frame : Frame lo hi mem s.mem

def Programmed (ops : Nat → Outcome) (buffer : Nat → UInt32) (lo hi : Nat) (mem : Flash)
    (s : St) : Prop :=
  Frame lo hi mem s.mem ∧
    ((∀ k < s.done, ops k = .complete) → ∀ k, lo + 4 * k < hi → s.mem (lo + 4 * k) = buffer k)

theorem blank_and (data : UInt32) : blank &&& data = data := by
  have ones : blank.toBitVec = BitVec.allOnes 32 := by decide
  apply UInt32.eq_of_toBitVec_eq
  rw [UInt32.toBitVec_and, ones, BitVec.allOnes_and]

theorem programTurn_programs {buffer : Nat → UInt32} {endaddr : UInt32}
    (low : stm32FlashBase ≤ lo) (high : endaddr.toNat ≤ flashEnd)
    (even : (endaddr.toNat - lo) % 4 = 0) (s : St)
    (programming : Programming buffer lo endaddr.toNat mem s) :
    (programTurn ops buffer endaddr s).Gives
      (fun t => Programming buffer lo endaddr.toNat mem t ∧
        endaddr.toNat - t.writeAddr.toNat < endaddr.toNat - s.writeAddr.toNat)
      (Programmed ops buffer lo endaddr.toNat mem) := by
  have place := programming.writeAddr
  unfold programTurn
  split
  · rename_i more
    rw [UInt32.lt_iff_toNat_lt] at more
    obtain ⟨n, sector, -, inside⟩ :=
      stmflashGetFlashSector_inSector (by omega) (Nat.lt_of_lt_of_le more high)
    have frame := programming.frame.update sector inside (by omega) more
    cases outcome : ops s.done with
    | complete =>
      simp only [flashProgramWord, if_true]
      have next := word_next more high
      have was := programming.erased s.pBuffer (Nat.le_refl _) (by omega)
      rw [← place.1] at was
      rw [was, blank_and]
      refine ⟨⟨by dsimp only; omega, ?_, ?_, frame _⟩, by dsimp only; omega⟩
      · intro k earlier
        dsimp only at earlier ⊢
        by_cases now : k = s.pBuffer
        · rw [now, ← place.1, Function.update_self]
        · rw [Function.update_of_ne (by omega)]
          exact programming.written k (by omega)
      · intro k later inside
        dsimp only at later ⊢
        rw [Function.update_of_ne (by omega)]
        exact programming.erased k (by omega) inside
    | failed left =>
      simp only [flashProgramWord]
      refine ⟨frame _, fun all => ?_⟩
      have wrong := all s.done (Nat.lt_succ_self _)
      rw [outcome] at wrong
      cases wrong
  · rename_i past
    rw [UInt32.lt_iff_toNat_lt] at past
    exact ⟨programming.frame, fun _ k inside => programming.written k (by omega)⟩

/-- The loops end whatever becomes of the operations, and change only sectors that intersect the
target range; when all operations complete, the range holds the buffer. -/
theorem stmflashWrite_target (ops : Nat → Outcome) (mem : Flash) (writeAddr numToWrite : UInt32)
    (buffer : Nat → UInt32) (low : stm32FlashBase ≤ writeAddr.toNat)
    (aligned : writeAddr.toNat % 4 = 0)
    (fits : writeAddr.toNat + 4 * numToWrite.toNat ≤ flashEnd) :
    ∃ turns r, (∀ more, stmflashWrite (turns + more) ops writeAddr buffer numToWrite mem = some r) ∧
      Frame writeAddr.toNat (writeAddr.toNat + 4 * numToWrite.toNat) mem r.mem ∧
      ((∀ k < r.done, ops k = .complete) →
        ∀ k < numToWrite.toNat, r.mem (writeAddr.toNat + 4 * k) = buffer k) := by
  have small : flashEnd < 0x1FFF0000 := by decide
  have base : stm32FlashBase = 0x08000000 := rfl
  have top : (writeAddr + numToWrite * 4).toNat = writeAddr.toNat + 4 * numToWrite.toNat := by
    have sum := UInt32.toNat_add writeAddr (numToWrite * 4)
    have product := UInt32.toNat_mul numToWrite 4
    simp only [UInt32.reduceToNat] at product
    omega
  have legal : ¬ (writeAddr < 0x08000000 ∨ writeAddr % 4 ≠ 0) := by
    rw [UInt32.lt_iff_toNat_lt, not_or, Decidable.not_not, ← UInt32.toNat_inj, UInt32.toNat_mod]
    simp only [UInt32.reduceToNat]
    omega
  have main : writeAddr < 0x1FFF0000 := by
    rw [UInt32.lt_iff_toNat_lt]
    simp only [UInt32.reduceToNat]
    omega
  have start : Erasing writeAddr.toNat (writeAddr + numToWrite * 4).toNat mem
      ⟨writeAddr, writeAddr, 0, mem, 0⟩ := by
    refine ⟨⟨Nat.le_refl _, ?_⟩, aligned, ?_, Frame.refl, rfl, rfl⟩
    · dsimp only
      omega
    · intro a after before
      dsimp only at before
      omega
  obtain ⟨⟨status, s⟩, ⟨n, enough⟩, erased⟩ := ends_of_measure (eraseMeasure _)
    (@eraseTurn_erases ops _ _ _ low (by omega) (by omega)) start
  cases status with
  | false =>
    refine ⟨n, s, ?_, top ▸ erased.frame, ?_⟩
    · intro more
      simp only [stmflashWrite, if_neg legal, if_pos main, run_more enough more]
    · intro all
      obtain ⟨k, started, failed⟩ := erased.failed rfl
      exact absurd (all k started) failed
  | true =>
    have ready : Programming buffer writeAddr.toNat (writeAddr + numToWrite * 4).toNat mem s := by
      have writeAddr' := erased.writeAddr
      have pBuffer := erased.pBuffer
      dsimp only at writeAddr' pBuffer
      refine ⟨by omega, fun k earlier => by omega, ?_, erased.frame⟩
      intro k _ inside
      exact erased.erased rfl _ (by omega) inside (by omega)
    obtain ⟨r, ⟨m, last⟩, programmed⟩ := ends_of_measure _
      (@programTurn_programs ops _ _ buffer _ low (by omega) (by omega)) ready
    refine ⟨n + m, r, ?_, top ▸ programmed.1, fun all k inside =>
      programmed.2 all k (by omega)⟩
    intro more
    have front : n + m + more = n + (m + more) := by omega
    have back : n + (m + more) = m + (n + more) := by omega
    simp only [stmflashWrite, if_neg legal, if_pos main, front, run_more enough]
    rw [back]
    exact run_more last _

theorem stmflashWrite_target_dirty : ∃ turns r,
    (∀ more, stmflashWrite (turns + more) (fun _ => .complete) 0x08003FFC (fun k => .ofNat k) 2
      (fun _ => 0x12345678) = some r) ∧ r.mem 0x08003FFC = 0 ∧ r.mem 0x08004000 = 1 ∧
      r.mem 0x08008000 = 0x12345678 := by
  obtain ⟨turns, r, runs, frame, target⟩ := stmflashWrite_target (fun _ => .complete)
    (fun _ => 0x12345678) 0x08003FFC 2 (fun k => .ofNat k) (by decide) (by decide) (by decide)
  refine ⟨turns, r, runs, target (fun _ _ => rfl) 0 (by decide), target (fun _ _ => rfl) 1
    (by decide), frame _ ?_⟩
  intro n sector meets inside
  have third : ∀ n < 12, InSector n 0x08008000 → n = 2 := by decide
  rw [third n sector inside] at meets
  obtain ⟨t, -, high, third, -⟩ := meets
  have base : sectorBase 2 = 0x08008000 := rfl
  simp only [UInt32.reduceToNat] at high
  omega

end Write

end BoxFirmware.Stmflash
