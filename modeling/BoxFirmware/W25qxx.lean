import BoxFirmware.ByteMem

/-! The W25Qxx driver over its SPI commands. The chip is a byte array with a
write-enable latch; a transaction is the bytes sent while chip select is low.
`W25QXX_Wait_Busy` returns once the chip has finished, so a program or an erase
is complete when its function returns. Counters and addresses are naturals,
reduced where the source's `u16` and `u32` could wrap. A loop of the source
that has no bound of its own runs on fuel, and `none` means it ran out. -/
namespace BoxFirmware.W25qxx
open ByteMem

def w25xWriteEnable : UInt8 := 0x06
def w25xReadData : UInt8 := 0x03
def w25xPageProgram : UInt8 := 0x02
def w25xSectorErase : UInt8 := 0x20

structure Chip where
  cells : Mem
  wel : Bool

def addr24 (a2 a1 a0 : UInt8) : Nat := a2.toNat * 65536 + a1.toNat * 256 + a0.toNat

def Chip.select (c : Chip) : List UInt8 → Chip
  | [] => c
  | op :: args =>
    if op = w25xWriteEnable then { c with wel := true }
    else match args with
      | a2 :: a1 :: a0 :: data =>
        if op = w25xPageProgram ∧ c.wel then
          ⟨program 256 data.length c.cells (addr24 a2 a1 a0) (fun i => data.getD i 0), false⟩
        else if op = w25xSectorErase ∧ c.wel then
          ⟨eraseSector 4096 c.cells (addr24 a2 a1 a0 / 4096), false⟩
        else c
      | _ => c

def Chip.shiftOut (c : Chip) : List UInt8 → Mem
  | op :: a2 :: a1 :: a0 :: _ =>
    fun i => if op = w25xReadData then c.cells ((addr24 a2 a1 a0 + i) % 2^24) else 0xFF
  | _ => fun _ => 0xFF

def addressBytes (a : Nat) : List UInt8 :=
  [UInt8.ofNat (a / 65536), UInt8.ofNat (a / 256), UInt8.ofNat a]

def w25qxxWriteEnable (c : Chip) : Chip := c.select [w25xWriteEnable]

def w25qxxRead (c : Chip) (pBuffer : Mem) (readAddr numByteToRead : Nat) : Mem :=
  store pBuffer 0 (c.shiftOut (w25xReadData :: addressBytes readAddr)) numByteToRead

def w25qxxWritePage (c : Chip) (pBuffer : Mem) (writeAddr numByteToWrite : Nat) : Chip :=
  (w25qxxWriteEnable c).select
    (w25xPageProgram :: addressBytes writeAddr ++ (List.range numByteToWrite).map pBuffer)

def w25qxxEraseSector (c : Chip) (dstAddr : Nat) : Chip :=
  (w25qxxWriteEnable c).select (w25xSectorErase :: addressBytes (dstAddr * 4096 % 2^32))

def writeNoCheckLoop : (fuel : Nat) → Chip → (pBuffer : Mem) →
    (writeAddr numByteToWrite pageremain : Nat) → Option Chip
  | 0, _, _, _, _, _ => none
  | fuel + 1, c, pBuffer, writeAddr, numByteToWrite, pageremain =>
    let c := w25qxxWritePage c pBuffer writeAddr pageremain
    if numByteToWrite = pageremain then some c
    else
      let pBuffer := shift pBuffer pageremain
      let writeAddr := (writeAddr + pageremain) % 2^32
      let numByteToWrite := (numByteToWrite + 2^16 - pageremain) % 2^16
      let pageremain := if numByteToWrite > 256 then 256 else numByteToWrite
      writeNoCheckLoop fuel c pBuffer writeAddr numByteToWrite pageremain

def w25qxxWriteNoCheck (c : Chip) (pBuffer : Mem) (writeAddr numByteToWrite : Nat) :
    Option Chip :=
  let pageremain := 256 - writeAddr % 256
  let pageremain := if numByteToWrite ≤ pageremain then numByteToWrite else pageremain
  writeNoCheckLoop (numByteToWrite + 1) c pBuffer writeAddr numByteToWrite pageremain

def eraseScan (buf : Mem) (secoff : Nat) : (secremain : Nat) → Nat
  | 0 => 0
  | secremain + 1 =>
    let i := eraseScan buf secoff secremain
    if i = secremain ∧ buf (secoff + secremain) = 0xFF then secremain + 1 else i

def writeSector (c : Chip) (pBuffer : Mem) (writeAddr secpos secoff secremain : Nat) :
    Option Chip :=
  let buf := w25qxxRead c (fun _ => 0) (secpos * 4096 % 2^32) 4096
  if eraseScan buf secoff secremain < secremain then
    let c := w25qxxEraseSector c secpos
    let buf := store buf secoff pBuffer secremain
    w25qxxWriteNoCheck c buf (secpos * 4096 % 2^32) 4096
  else w25qxxWriteNoCheck c pBuffer writeAddr secremain

def writeLoop : (fuel : Nat) → Chip → (pBuffer : Mem) →
    (writeAddr numByteToWrite secpos secoff secremain : Nat) → Option Chip
  | 0, _, _, _, _, _, _, _ => none
  | fuel + 1, c, pBuffer, writeAddr, numByteToWrite, secpos, secoff, secremain =>
    (writeSector c pBuffer writeAddr secpos secoff secremain).bind fun c =>
      if numByteToWrite = secremain then some c
      else
        let pBuffer := shift pBuffer secremain
        let writeAddr := (writeAddr + secremain) % 2^32
        let numByteToWrite := (numByteToWrite + 2^16 - secremain) % 2^16
        let secremain := if numByteToWrite > 4096 then 4096 else numByteToWrite
        writeLoop fuel c pBuffer writeAddr numByteToWrite (secpos + 1) 0 secremain

def w25qxxWrite (c : Chip) (pBuffer : Mem) (writeAddr numByteToWrite : Nat) : Option Chip :=
  let secpos := writeAddr / 4096
  let secoff := writeAddr % 4096
  let secremain := 4096 - secoff
  let secremain := if numByteToWrite ≤ secremain then numByteToWrite else secremain
  writeLoop (numByteToWrite + 1) c pBuffer writeAddr numByteToWrite secpos secoff secremain

theorem addr24_bytes (a : Nat) :
    addr24 (UInt8.ofNat (a / 65536)) (UInt8.ofNat (a / 256)) (UInt8.ofNat a) = a % 2^24 := by
  simp only [addr24, UInt8.toNat_ofNat']
  omega

theorem shiftOut_read (c : Chip) (a i : Nat) :
    c.shiftOut (w25xReadData :: addressBytes a) i = c.cells ((a % 2^24 + i) % 2^24) := by
  simp only [Chip.shiftOut, addressBytes, addr24_bytes, if_true]

theorem w25qxxRead_apply (c : Chip) (p : Mem) (a n i : Nat) (hi : i < n) (ha : a + n ≤ 2^24) :
    w25qxxRead c p a n i = c.cells (a + i) := by
  have h := store_inside p 0 (c.shiftOut (w25xReadData :: addressBytes a)) n hi
  rw [Nat.zero_add] at h
  rw [w25qxxRead, h, shiftOut_read, Nat.mod_eq_of_lt (show a < 2^24 by omega),
    Nat.mod_eq_of_lt (show a + i < 2^24 by omega)]

theorem program_congr (page n : Nat) (m : Mem) (a : Nat) (p q : Mem) (h : ∀ i < n, p i = q i) :
    program page n m a p = program page n m a q := by
  induction n generalizing m a p q with
  | zero => rfl
  | succ n ih =>
    rw [program, program, h 0 (by omega)]
    exact ih _ _ _ _ (fun i hi => h (1 + i) (by omega))

theorem w25qxxWritePage_cells (c : Chip) (p : Mem) (a n : Nat) (ha : a < 2^24)
    (fit : a % 256 + n ≤ 256) : (w25qxxWritePage c p a n).cells = andRange c.cells a p n := by
  have enabled : w25qxxWriteEnable c = ⟨c.cells, true⟩ := by
    simp [w25qxxWriteEnable, Chip.select]
  have opcode : ¬ w25xPageProgram = w25xWriteEnable := by decide
  have data : ∀ i < n, ((List.range n).map p).getD i 0 = p i := by
    intro i hi
    simp [List.getD, hi]
  simp only [w25qxxWritePage, enabled, addressBytes, List.cons_append, List.nil_append,
    Chip.select, opcode, if_false, and_self, if_true, addr24_bytes, List.length_map,
    List.length_range]
  rw [Nat.mod_eq_of_lt ha, program_congr 256 n _ _ _ p data, program_eq_andRange _ _ _ _ _ fit]

theorem w25qxxEraseSector_cells (c : Chip) (k : Nat) (hk : k < 4096) :
    (w25qxxEraseSector c k).cells = eraseSector 4096 c.cells k := by
  have enabled : w25qxxWriteEnable c = ⟨c.cells, true⟩ := by
    simp [w25qxxWriteEnable, Chip.select]
  have program : ¬ w25xSectorErase = w25xPageProgram := by decide
  have opcode : ¬ w25xSectorErase = w25xWriteEnable := by decide
  have sector : k * 4096 % 2^32 % 2^24 / 4096 = k := by omega
  simp only [w25qxxEraseSector, enabled, addressBytes, Chip.select, opcode, program,
    false_and, if_false, and_self, if_true, addr24_bytes, sector]

/-- The page loop programs the whole range, whatever its alignment: every pass
but the last ends on a page boundary. -/
theorem writeNoCheckLoop_spec (fuel : Nat) (c : Chip) (p : Mem) (a n r : Nat)
    (fuelled : n < fuel) (some_left : r ≤ n) (pos : 0 < n → 0 < r)
    (fit : a % 256 + r ≤ 256) (page : r < n → (a + r) % 256 = 0)
    (small : n < 2^16) (inside : a + n ≤ 2^24) (ha : a < 2^24) :
    ∃ c', writeNoCheckLoop fuel c p a n r = some c' ∧ c'.cells = andRange c.cells a p n := by
  induction fuel generalizing c p a n r with
  | zero => omega
  | succ fuel ih =>
    have cells := w25qxxWritePage_cells c p a r ha fit
    by_cases last : n = r
    · subst last
      exact ⟨_, by simp [writeNoCheckLoop], cells⟩
    · have addr : (a + r) % 2^32 = a + r := by omega
      have left : (n + 2^16 - r) % 2^16 = n - r := by omega
      have boundary := page (by omega)
      have hr := pos (by omega)
      simp only [writeNoCheckLoop, last, if_false, addr, left]
      obtain ⟨c', run, result⟩ := ih (w25qxxWritePage c p a r) (shift p r) (a + r) (n - r)
        (if n - r > 256 then 256 else n - r) (by omega) (by split_ifs <;> omega)
        (by split_ifs <;> omega) (by split_ifs <;> omega) (by split_ifs <;> omega)
        (by omega) (by omega) (by omega)
      refine ⟨c', run, ?_⟩
      rw [result, cells, andRange_append, Nat.add_sub_cancel' some_left]

theorem w25qxxWriteNoCheck_spec (c : Chip) (p : Mem) (a n : Nat) (small : n < 2^16)
    (inside : a + n ≤ 2^24) (ha : a < 2^24) :
    ∃ c', w25qxxWriteNoCheck c p a n = some c' ∧ c'.cells = andRange c.cells a p n := by
  apply writeNoCheckLoop_spec _ _ _ _ _ _ (Nat.lt_succ_self n) ?_ ?_ ?_ ?_ small inside ha
  all_goals split_ifs <;> omega

theorem eraseScan_le (buf : Mem) (off n : Nat) : eraseScan buf off n ≤ n := by
  induction n with
  | zero => exact Nat.le_refl 0
  | succ n ih =>
    simp only [eraseScan]
    split_ifs <;> omega

theorem eraseScan_eq (buf : Mem) (off n : Nat) :
    eraseScan buf off n = n ↔ ∀ i < n, buf (off + i) = 0xFF := by
  induction n with
  | zero => simp [eraseScan]
  | succ n ih =>
    have bound := eraseScan_le buf off n
    simp only [eraseScan]
    constructor
    · intro h i hi
      split_ifs at h with all
      · rcases Nat.lt_succ_iff_lt_or_eq.mp hi with before | rfl
        · exact ih.mp all.1 i before
        · exact all.2
      · omega
    · intro erased
      have before := ih.mpr (fun i hi => erased i (by omega))
      simp only [before, erased n (by omega), and_self, if_true]

theorem writeSector_erase (c : Chip) (p : Mem) (k off n : Nat) (hk : k < 4096)
    (fit : off + n ≤ 4096) :
    ∃ c', w25qxxWriteNoCheck (w25qxxEraseSector c k)
        (store (w25qxxRead c (fun _ => 0) (k * 4096) 4096) off p n) (k * 4096) 4096 = some c' ∧
      c'.cells = store c.cells (k * 4096 + off) p n := by
  obtain ⟨c', run, cells⟩ := w25qxxWriteNoCheck_spec (w25qxxEraseSector c k)
    (store (w25qxxRead c (fun _ => 0) (k * 4096) 4096) off p n) (k * 4096) 4096
    (by omega) (by omega) (by omega)
  have erased : ∀ i < 4096, (w25qxxEraseSector c k).cells (k * 4096 + i) = 0xFF := by
    intro i hi
    have sector : (k * 4096 + i) / 4096 = k := by omega
    simp only [w25qxxEraseSector_cells c k hk, eraseSector, sector, if_true]
  refine ⟨c', run, ?_⟩
  rw [cells, andRange_erased _ _ _ _ erased]
  funext j
  by_cases sector : k * 4096 ≤ j ∧ j < k * 4096 + 4096
  · obtain ⟨i, rfl⟩ := Nat.exists_eq_add_of_le sector.1
    rw [store_inside _ _ _ _ (show i < 4096 by omega)]
    by_cases inside : off ≤ i ∧ i < off + n
    · obtain ⟨d, rfl⟩ := Nat.exists_eq_add_of_le inside.1
      rw [store_inside _ _ _ _ (show d < n by omega), ← Nat.add_assoc,
        store_inside _ _ _ _ (show d < n by omega)]
    · rw [store_outside _ _ _ _ (by omega), store_outside _ _ _ _ (by omega),
        w25qxxRead_apply _ _ _ _ _ (by omega) (by omega)]
  · have other : ¬ j / 4096 = k := by omega
    rw [store_outside _ _ _ _ (by omega), store_outside _ _ _ _ (by omega),
      w25qxxEraseSector_cells c k hk]
    simp only [eraseSector, other, if_false]

theorem writeSector_spec (c : Chip) (p : Mem) (k off n : Nat) (hk : k < 4096)
    (pos : 0 < n) (fit : off + n ≤ 4096) :
    ∃ c', writeSector c p (k * 4096 + off) k off n = some c' ∧
      c'.cells = store c.cells (k * 4096 + off) p n := by
  have base : k * 4096 % 2^32 = k * 4096 := by omega
  simp only [writeSector, base]
  by_cases used : eraseScan (w25qxxRead c (fun _ => 0) (k * 4096) 4096) off n < n
  · simp only [used, if_true]
    exact writeSector_erase c p k off n hk fit
  · simp only [used, if_false]
    have all : eraseScan (w25qxxRead c (fun _ => 0) (k * 4096) 4096) off n = n := by
      have bound := eraseScan_le (w25qxxRead c (fun _ => 0) (k * 4096) 4096) off n
      omega
    have blank := (eraseScan_eq _ off n).mp all
    have erased : ∀ i < n, c.cells (k * 4096 + off + i) = 0xFF := by
      intro i hi
      have cell := blank i hi
      rw [w25qxxRead_apply c _ (k * 4096) 4096 (off + i) (by omega) (by omega)] at cell
      rw [Nat.add_assoc]
      exact cell
    obtain ⟨c', run, cells⟩ := w25qxxWriteNoCheck_spec c p (k * 4096 + off) n
      (by omega) (by omega) (by omega)
    exact ⟨c', run, by rw [cells, andRange_erased _ _ _ _ erased]⟩

/-- Every pass starts on the first byte of a sector or inside the first sector, and
ends the sector unless it is the last. -/
theorem writeLoop_spec (fuel : Nat) (c : Chip) (p : Mem) (a n k off r : Nat)
    (addr : a = k * 4096 + off) (fuelled : n < fuel) (some_left : r ≤ n) (pos : 0 < r)
    (fit : off + r ≤ 4096) (sector : r < n → off + r = 4096) (small : n < 2^16)
    (inside : a + n ≤ 2^24) :
    ∃ c', writeLoop fuel c p a n k off r = some c' ∧ c'.cells = store c.cells a p n := by
  induction fuel generalizing c p a n k off r with
  | zero => omega
  | succ fuel ih =>
    obtain ⟨c₁, run₁, cells₁⟩ := writeSector_spec c p k off r (by omega) pos fit
    rw [← addr] at run₁ cells₁
    by_cases last : n = r
    · subst last
      exact ⟨c₁, by simp [writeLoop, run₁], cells₁⟩
    · have full := sector (by omega)
      have next : (a + r) % 2^32 = a + r := by omega
      have left : (n + 2^16 - r) % 2^16 = n - r := by omega
      obtain ⟨c', run, cells⟩ := ih c₁ (shift p r) (a + r) (n - r) (k + 1) 0
        (if n - r > 4096 then 4096 else n - r) (by omega) (by omega) (by split_ifs <;> omega)
        (by split_ifs <;> omega) (by split_ifs <;> omega) (by split_ifs <;> omega)
        (by omega) (by omega)
      refine ⟨c', ?_, ?_⟩
      · simp only [writeLoop, run₁, Option.bind_some, last, if_false, next, left]
        exact run
      · rw [cells, cells₁, store_append, Nat.add_sub_cancel' some_left]

theorem w25qxxWrite_store (c : Chip) (p : Mem) (a n : Nat) (pos : 0 < n) (small : n < 2^16)
    (inside : a + n ≤ 2^24) :
    ∃ c', w25qxxWrite c p a n = some c' ∧ c'.cells = store c.cells a p n := by
  apply writeLoop_spec (n + 1) c p a n (a / 4096) (a % 4096) _ (by omega) (by omega)
    ?_ ?_ ?_ ?_ small inside
  all_goals split_ifs <;> omega

/-- After `W25QXX_Write` the target holds the buffer and nothing else has changed,
for every alignment and every earlier content. -/
theorem w25qxxWrite_correct (c : Chip) (pBuffer : Mem) (writeAddr numByteToWrite : Nat)
    (pos : 1 ≤ numByteToWrite) (small : numByteToWrite ≤ 65535)
    (inside : writeAddr + numByteToWrite ≤ 2^24) :
    ∃ c', w25qxxWrite c pBuffer writeAddr numByteToWrite = some c' ∧
      (∀ i < numByteToWrite, c'.cells (writeAddr + i) = pBuffer i) ∧
      ∀ j, (j < writeAddr ∨ writeAddr + numByteToWrite ≤ j) → c'.cells j = c.cells j := by
  obtain ⟨c', run, cells⟩ :=
    w25qxxWrite_store c pBuffer writeAddr numByteToWrite pos (by omega) inside
  refine ⟨c', run, ?_, ?_⟩
  · intro i hi
    rw [cells, store_inside _ _ _ _ hi]
  · intro j hj
    rw [cells, store_outside _ _ _ _ hj]

theorem w25qxxWrite_correct_crossing :
    ∃ c', w25qxxWrite ⟨fun _ => 0, false⟩ (fun i => UInt8.ofNat (i + 1)) 4095 2 = some c' ∧
      (∀ i < 2, c'.cells (4095 + i) = UInt8.ofNat (i + 1)) ∧
      ∀ j, (j < 4095 ∨ 4095 + 2 ≤ j) → c'.cells j = 0 :=
  w25qxxWrite_correct ⟨fun _ => 0, false⟩ (fun i => UInt8.ofNat (i + 1)) 4095 2
    (by decide) (by decide) (by decide)

end BoxFirmware.W25qxx
