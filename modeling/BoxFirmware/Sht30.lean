import BoxFirmware.ByteMem
import BoxFirmware.Crc

/-! The SHT30 sensor of `sht30.c` on the two-wire bus of `myiic.c`. What the sensor does is the
level of SDA at each look, after all that was done on the bus before: whether a byte is
acknowledged and what a byte reads as follows from it. The check byte is a remainder over the
field of two elements. -/
namespace BoxFirmware.Sht30
open ByteMem Crc Polynomial

section CheckCrc

def crcShift (crc : UInt8) : UInt8 :=
  if crc &&& 0x80 ≠ 0 then ((crc.toUInt16 <<< 1) ^^^ 0x131).toUInt8 else crc <<< 1

def crcLoop (data : Mem) : Nat → UInt8
  | 0 => 0xFF
  | byteCtr + 1 => crcShift^[8] (crcLoop data byteCtr ^^^ data byteCtr)

def sht2xCheckCrc (data : Mem) (nbrOfBytes checksum : UInt8) : UInt8 :=
  if crcLoop data nbrOfBytes.toNat ≠ checksum then 0 else 1

theorem crcShift_toBitVec (crc : UInt8) :
    (crcShift crc).toBitVec = shiftStep 0x31#8 crc.toBitVec :=
  forall_uint8 (P := fun crc => (crcShift crc).toBitVec = shiftStep 0x31#8 crc.toBitVec)
    (by decide +kernel) crc

abbrev words (data : Mem) (i : Nat) : BitVec 8 := (data i).toBitVec

theorem crcLoop_register (data : Mem) (n : Nat) :
    (crcLoop data n).toBitVec = register 0x31#8 0xFF#8 (words data) n := by
  have shifts : Function.Semiconj UInt8.toBitVec crcShift (shiftStep 0x31#8) := crcShift_toBitVec
  induction n with
  | zero => rfl
  | succ n ih =>
    rw [crcLoop, shifts.iterate_right 8, UInt8.toBitVec_xor, ih]
    rfl

theorem checkCrc_iff (data : Mem) (nbrOfBytes checksum : UInt8) :
    sht2xCheckCrc data nbrOfBytes checksum = 1 ↔
      register 0x31#8 0xFF#8 (words data) nbrOfBytes.toNat = checksum.toBitVec := by
  rw [← crcLoop_register, UInt8.toBitVec_inj, sht2xCheckCrc]
  by_cases same : crcLoop data nbrOfBytes.toNat = checksum <;> simp [same]

theorem checkCrc_rejects {data : Mem} {nbrOfBytes checksum : UInt8}
    (other : sht2xCheckCrc data nbrOfBytes checksum ≠ 1) :
    sht2xCheckCrc data nbrOfBytes checksum = 0 := by
  rw [sht2xCheckCrc] at other ⊢
  split_ifs at other ⊢
  · rfl
  · exact absurd rfl other

/-- `x^8 + x^5 + x^4 + 1` -/
noncomputable def crcPolynomial : (ZMod 2)[X] := X ^ 8 + X ^ 5 + X ^ 4 + 1

theorem generator_eq : generator 0x31#8 = crcPolynomial := by
  have low : ofWord 0x31#8 = X ^ 5 + X ^ 4 + 1 := by
    simp [ofWord, stream, bit, BitVec.getMsbD]
    ring
  rw [generator, low, crcPolynomial]
  ring

/-- The check byte is the remainder of the message with the initial value 0xFF. -/
def Remainder (data : Mem) (n : Nat) (checksum : UInt8) : Prop :=
  ofWord checksum.toBitVec =
    (ofWord 0xFF#8 * X ^ (8 * n) + stream (bitsOf (words data)) (8 * n) * X ^ 8) %ₘ crcPolynomial

theorem remainder_iff (data : Mem) (nbrOfBytes checksum : UInt8) :
    sht2xCheckCrc data nbrOfBytes checksum = 1 ↔
      Remainder data nbrOfBytes.toNat checksum := by
  rw [checkCrc_iff, Remainder, ← generator_eq, ← register_eq_mod, ofWord_inj, eq_comm]

/-- The bits of the message and of the check byte behind it, in the order of sending. -/
def sentBit (data : Mem) (n : Nat) (checksum : UInt8) (p : Nat) : Bool :=
  (if p / 8 < n then data (p / 8) else checksum).toBitVec.getMsbD (p % 8)

theorem sentBit_frame (data : Mem) (n : Nat) (checksum : UInt8) (p : Nat) :
    sentBit data n checksum p = bitsOf (frame (words data) n checksum.toBitVec) p := by
  rw [sentBit, bitsOf, frame, apply_ite UInt8.toBitVec]

/-- Of `m` bits some are flipped, and only within 8 in a row. -/
structure Burst (sent came : Nat → Bool) (m : Nat) : Prop where
  flipped : ∃ p < m, sent p ≠ came p
  window : ∃ start, ∀ p < m, sent p ≠ came p → start ≤ p ∧ p < start + 8

/-- A message of up to 255 bytes is accepted just with its remainder, and no longer when a
burst hits it or its check byte. -/
theorem sht2xCheckCrc_remainder (data : Mem) (nbrOfBytes checksum : UInt8) :
    (sht2xCheckCrc data nbrOfBytes checksum = 1 ↔
        Remainder data nbrOfBytes.toNat checksum) ∧
      ∀ data' checksum', sht2xCheckCrc data nbrOfBytes checksum = 1 →
        Burst (sentBit data nbrOfBytes.toNat checksum)
          (sentBit data' nbrOfBytes.toNat checksum') (8 * (nbrOfBytes.toNat + 1)) →
        sht2xCheckCrc data' nbrOfBytes checksum' = 0 := by
  refine ⟨remainder_iff data nbrOfBytes checksum, fun data' checksum' accepted burst => ?_⟩
  obtain ⟨start, window⟩ := burst.window
  have flipped := burst.flipped
  simp only [sentBit_frame] at flipped window
  rw [checkCrc_iff] at accepted
  apply checkCrc_rejects
  rw [ne_eq, checkCrc_iff]
  exact register_burst (by decide) start flipped window accepted

theorem sht2xCheckCrc_remainder_beef :
    Remainder (ofList [0xBE, 0xEF]) 2 0x92 ∧ sht2xCheckCrc (ofList [0xBE, 0xE0]) 2 0x62 = 0 := by
  have accepted : sht2xCheckCrc (ofList [0xBE, 0xEF]) 2 0x92 = 1 := by decide +kernel
  have burst : Burst (sentBit (ofList [0xBE, 0xEF]) 2 0x92) (sentBit (ofList [0xBE, 0xE0]) 2 0x62)
      (8 * (2 + 1)) := ⟨⟨12, by decide +kernel⟩, 12, by decide +kernel⟩
  have settled := sht2xCheckCrc_remainder (ofList [0xBE, 0xEF]) 2 0x92
  exact ⟨settled.1.mp accepted, settled.2 _ _ accepted burst⟩

end CheckCrc

section Iic

inductive Iic
  | start
  | stop
  | send (txd : UInt8)
  | waitAck
  | read (ack : Bool)
deriving DecidableEq, Repr

/-- The level of SDA at each look, after what was done. -/
abbrev Bus := List Iic → Nat → Bool

def waitAckLoop (sda : Nat → Bool) : Nat → UInt8
  | 0 => 1
  | left + 1 => if sda (500 - left) then waitAckLoop sda left else 0

def iicStart (log : List Iic) : List Iic := log ++ [.start]

def iicStop (log : List Iic) : List Iic := log ++ [.stop]

def iicSendByte (txd : UInt8) (log : List Iic) : List Iic := log ++ [.send txd]

def iicWaitAck (bus : Bus) (log : List Iic) : UInt8 × List Iic :=
  let log := log ++ [.waitAck]
  let error := waitAckLoop (bus log) 501
  (error, if error ≠ 0 then iicStop log else log)

def receiveLoop (sda : Nat → Bool) : Nat → UInt8
  | 0 => 0
  | i + 1 =>
    let receive := receiveLoop sda i <<< 1
    if sda i then receive + 1 else receive

def iicReadByte (bus : Bus) (ack : Bool) (log : List Iic) : UInt8 × List Iic :=
  let log := log ++ [.read ack]
  (receiveLoop (bus log) 8, log)

/-- The byte sent last is acknowledged. -/
def Acks (bus : Bus) (log : List Iic) : Prop := ∃ i < 501, bus (log ++ [.waitAck]) i = false

theorem waitAckLoop_eq_zero (sda : Nat → Bool) {left : Nat} (within : left ≤ 501) :
    waitAckLoop sda left = 0 ↔ ∃ i < 501, 501 - left ≤ i ∧ sda i = false := by
  induction left with
  | zero =>
    apply iff_of_false
    · rw [waitAckLoop]
      decide
    · intro found
      obtain ⟨i, low, high, _⟩ := found
      omega
  | succ left ih =>
    rw [waitAckLoop]
    cases level : sda (500 - left) with
    | false =>
      exact iff_of_true rfl ⟨500 - left, by omega, by omega, level⟩
    | true =>
      rw [if_pos rfl, ih (by omega)]
      apply exists_congr
      intro i
      refine and_congr_right (fun low => and_congr_left (fun clear => ?_))
      have other : i ≠ 500 - left := by
        intro same
        rw [same, level] at clear
        cases clear
      omega

theorem waitAck_iff (bus : Bus) (log : List Iic) :
    waitAckLoop (bus (log ++ [.waitAck])) 501 = 0 ↔ Acks bus log := by
  have looks := waitAckLoop_eq_zero (bus (log ++ [.waitAck])) (Nat.le_refl 501)
  simpa [Acks] using looks

theorem iicWaitAck_acked {bus : Bus} {log : List Iic} (acks : Acks bus log) :
    iicWaitAck bus log = (0, log ++ [.waitAck]) := by
  simp [iicWaitAck, (waitAck_iff bus log).mpr acks]

theorem iicWaitAck_silent {bus : Bus} {log : List Iic} (silent : ¬ Acks bus log) :
    (iicWaitAck bus log).1 ≠ 0 ∧ (iicWaitAck bus log).2 = log ++ [.waitAck, .stop] := by
  have error := mt (waitAck_iff bus log).mp silent
  simp [iicWaitAck, iicStop, error]

end Iic

section ReadMeasure

structure Raw where
  wRawTemperature : UInt16
  wRawHumidity : UInt16
deriving DecidableEq, Repr

structure Measures where
  fRawTemperature : Float32
  fRawHumidity : Float32

def bSlave : UInt8 := (0x44 : UInt8) <<< 1

/-- Up to `iPollWaitCount` polls, until one is acknowledged. -/
def pollLoop (bus : Bus) : Nat → List Iic → List Iic
  | 0, log => log
  | iPollWaitCount + 1, log =>
    let (error, log) := iicWaitAck bus (iicSendByte (bSlave ||| 0x01) (iicStart log))
    if error = 0 then log else pollLoop bus iPollWaitCount (iicStop log)

structure Data where
  bMeasureData : Mem
  bCheckSum : Mem

def readData (bus : Bus) (log : List Iic) : Data × List Iic :=
  let (data0, log) := iicReadByte bus true log
  let (data1, log) := iicReadByte bus true log
  let (check0, log) := iicReadByte bus true log
  let (data2, log) := iicReadByte bus true log
  let (data3, log) := iicReadByte bus true log
  let (check1, log) := iicReadByte bus false log
  ({ bMeasureData := ofList [data0, data1, data2, data3], bCheckSum := ofList [check0, check1] },
    log)

def crcStatus (data : Data) : UInt8 :=
  if sht2xCheckCrc data.bMeasureData 2 (data.bCheckSum 0) = 0 then 0xfc
  else if sht2xCheckCrc (shift data.bMeasureData 2) 2 (data.bCheckSum 1) = 0 then 0xfb
  else 0

def rawOf (data : Data) : Raw where
  wRawTemperature := (data.bMeasureData 0).toUInt16 <<< 8 ||| (data.bMeasureData 1).toUInt16
  wRawHumidity := (data.bMeasureData 2).toUInt16 <<< 8 ||| (data.bMeasureData 3).toUInt16

/-- The locals of the caller are `raw` before. -/
def internalReadSht3xMeasure (bus : Bus) (raw : Raw) : UInt8 × Raw × List Iic :=
  let (error, log) := iicWaitAck bus (iicSendByte bSlave (iicStart []))
  if error ≠ 0 then (0xfe, raw, iicStop log)
  else
    let (error, log) := iicWaitAck bus (iicSendByte 0x24 log)
    if error ≠ 0 then (0xfd, raw, iicStop log)
    else
      let (error, log) := iicWaitAck bus (iicSendByte 0x16 log)
      if error ≠ 0 then (0xfd, raw, iicStop log)
      else
        let (data, log) := readData bus (pollLoop bus 50 (iicStop log))
        (crcStatus data, rawOf data, iicStop log)

def readSht3xMeasure (bus : Bus) (raw : Raw) (out : Measures) : UInt8 × Measures :=
  let (bStatus, raw, _) := internalReadSht3xMeasure bus raw
  if bStatus ≠ 0 then (bStatus, out)
  else
    (0, {
      fRawHumidity := (raw.wRawHumidity.toFloat32.toFloat / 65535.0 * 100.0).toFloat32
      fRawTemperature :=
        (raw.wRawTemperature.toFloat32.toFloat / 65535.0 * 175.0 - 45.0).toFloat32 })

def addressed : List Iic := [.start, .send 0x88]

def commanding : List Iic := addressed ++ [.waitAck, .send 0x24]

def commanded : List Iic := commanding ++ [.waitAck, .send 0x16]

/-- After `k` polls without an answer. The wait that gives up stops the bus by itself. -/
def unanswered : Nat → List Iic
  | 0 => commanded ++ [.waitAck, .stop]
  | k + 1 => unanswered k ++ [.start, .send 0x89, .waitAck, .stop, .stop]

/-- The read address of the poll behind them is sent. -/
def pollAt (k : Nat) : List Iic := unanswered k ++ [.start, .send 0x89]

structure Commanded (bus : Bus) : Prop where
  address : Acks bus addressed
  first : Acks bus commanding
  second : Acks bus commanded

structure Answered (bus : Bus) (k : Nat) : Prop where
  acks : Acks bus (pollAt k)
  first : ∀ j < k, ¬ Acks bus (pollAt j)

def Checked (data : Data) : Prop :=
  Remainder data.bMeasureData 2 (data.bCheckSum 0) ∧
    Remainder (shift data.bMeasureData 2) 2 (data.bCheckSum 1)

/-- The sensor has acknowledged one of the polls, and what came then has its check bytes. -/
def Trusted (bus : Bus) : Prop :=
  Commanded bus ∧ ∃ k < 50, Answered bus k ∧ Checked (readData bus (pollAt k ++ [.waitAck])).1

section Polls

variable {bus : Bus}

theorem poll_sent (k : Nat) :
    iicSendByte (bSlave ||| 0x01) (iicStart (unanswered k)) = pollAt k := by
  simp only [iicSendByte, iicStart, List.append_assoc, pollAt]
  rfl

theorem pollLoop_acked {k : Nat} (acks : Acks bus (pollAt k)) (n : Nat) :
    pollLoop bus (n + 1) (unanswered k) = pollAt k ++ [.waitAck] := by
  simp only [pollLoop, poll_sent, iicWaitAck_acked acks, if_true]

theorem pollLoop_silent {k : Nat} (silent : ¬ Acks bus (pollAt k)) (n : Nat) :
    pollLoop bus (n + 1) (unanswered k) = pollLoop bus n (unanswered (k + 1)) := by
  have gaveUp := iicWaitAck_silent silent
  have next : iicStop (pollAt k ++ [.waitAck, .stop]) = unanswered (k + 1) := by
    simp [iicStop, pollAt, unanswered]
  simp only [pollLoop, poll_sent, gaveUp.2, if_neg gaveUp.1, next]

/-- The loop ends at the first poll that is acknowledged, or with the last. -/
theorem pollLoop_cases (bus : Bus) (n k : Nat) (first : ∀ j < k, ¬ Acks bus (pollAt j)) :
    (∃ j < k + n, Answered bus j ∧ pollLoop bus n (unanswered k) = pollAt j ++ [.waitAck]) ∨
      ((∀ j < k + n, ¬ Acks bus (pollAt j)) ∧
        pollLoop bus n (unanswered k) = unanswered (k + n)) := by
  induction n generalizing k with
  | zero => exact Or.inr ⟨first, rfl⟩
  | succ n ih =>
    by_cases acks : Acks bus (pollAt k)
    · exact Or.inl ⟨k, by omega, ⟨acks, first⟩, pollLoop_acked acks n⟩
    · have silent : ∀ j < k + 1, ¬ Acks bus (pollAt j) := by
        intro j low
        rcases Nat.lt_succ_iff_lt_or_eq.mp low with before | same
        · exact first j before
        · rwa [same]
      have later := ih (k + 1) silent
      have sum : k + (n + 1) = k + 1 + n := by omega
      rw [pollLoop_silent acks n, sum]
      exact later

theorem Answered.unique {j k : Nat} (one : Answered bus j) (other : Answered bus k) : j = k := by
  rcases Nat.lt_trichotomy j k with less | same | more
  · exact absurd one.acks (other.first j less)
  · exact same
  · exact absurd other.acks (one.first k more)

end Polls

section Status

variable {bus : Bus} {raw : Raw} {out : Measures}

theorem checkCrc_eq_zero (data : Mem) (nbrOfBytes checksum : UInt8) :
    sht2xCheckCrc data nbrOfBytes checksum = 0 ↔
      ¬ Remainder data nbrOfBytes.toNat checksum := by
  rw [← remainder_iff]
  constructor
  · intro zero accepted
    rw [zero] at accepted
    cases accepted
  · exact checkCrc_rejects

theorem crcStatus_eq_zero (data : Data) : crcStatus data = 0 ↔ Checked data := by
  have first := checkCrc_eq_zero data.bMeasureData 2 (data.bCheckSum 0)
  have second := checkCrc_eq_zero (shift data.bMeasureData 2) 2 (data.bCheckSum 1)
  rw [crcStatus, Checked]
  split_ifs with wrong0 wrong1
  · exact iff_of_false (by decide) (fun both => first.mp wrong0 both.1)
  · exact iff_of_false (by decide) (fun both => second.mp wrong1 both.2)
  · exact iff_of_true rfl ⟨not_not.mp (mt first.mpr wrong0), not_not.mp (mt second.mpr wrong1)⟩

theorem sent_address : iicSendByte bSlave (iicStart []) = addressed := rfl

theorem sent_first : iicSendByte 0x24 (addressed ++ [.waitAck]) = commanding := rfl

theorem sent_second : iicSendByte 0x16 (commanding ++ [.waitAck]) = commanded := rfl

theorem stopped_command : iicStop (commanded ++ [.waitAck]) = unanswered 0 := rfl

theorem internalRead_refused (refused : ¬ Commanded bus) :
    (internalReadSht3xMeasure bus raw).1 ≠ 0 := by
  simp only [internalReadSht3xMeasure, sent_address]
  by_cases address : Acks bus addressed
  · simp only [iicWaitAck_acked address, sent_first]
    by_cases first : Acks bus commanding
    · have second : ¬ Acks bus commanded := fun second => refused ⟨address, first, second⟩
      simp [iicWaitAck_acked first, sent_second, (iicWaitAck_silent second).1]
    · simp [(iicWaitAck_silent first).1]
  · simp [(iicWaitAck_silent address).1]

def readOut (bus : Bus) : Data × List Iic := readData bus (pollLoop bus 50 (unanswered 0))

theorem internalRead_commanded (acked : Commanded bus) :
    internalReadSht3xMeasure bus raw =
      (crcStatus (readOut bus).1, rawOf (readOut bus).1, iicStop (readOut bus).2) := by
  simp only [internalReadSht3xMeasure, sent_address, iicWaitAck_acked acked.address, sent_first,
    iicWaitAck_acked acked.first, sent_second, iicWaitAck_acked acked.second, stopped_command,
    ne_eq, not_true_eq_false, if_false, readOut]

theorem internalRead_stops :
    (internalReadSht3xMeasure bus raw).2.2.getLast? = some .stop := by
  simp only [internalReadSht3xMeasure]
  split_ifs <;> simp [iicStop]

theorem internalRead_succeeds :
    (internalReadSht3xMeasure bus raw).1 = 0 ↔ Commanded bus ∧ Checked (readOut bus).1 := by
  by_cases acked : Commanded bus
  · rw [internalRead_commanded acked, crcStatus_eq_zero]
    exact (and_iff_right acked).symm
  · exact iff_of_false (internalRead_refused acked) (fun both => acked both.1)

theorem readSht3xMeasure_failed (failed : (internalReadSht3xMeasure bus raw).1 ≠ 0) :
    readSht3xMeasure bus raw out = ((internalReadSht3xMeasure bus raw).1, out) := by
  simp only [readSht3xMeasure, if_pos failed]

theorem readSht3xMeasure_succeeds :
    (readSht3xMeasure bus raw out).1 = 0 ↔ Commanded bus ∧ Checked (readOut bus).1 := by
  rw [← @internalRead_succeeds bus raw]
  by_cases success : (internalReadSht3xMeasure bus raw).1 = 0
  · simp [readSht3xMeasure, success]
  · rw [readSht3xMeasure_failed success]

theorem readOut_answered {k : Nat} (low : k < 50) (answered : Answered bus k) :
    readOut bus = readData bus (pollAt k ++ [.waitAck]) := by
  rcases pollLoop_cases bus 50 0 (by simp) with found | none
  · obtain ⟨j, _, other, log⟩ := found
    rw [readOut, log, other.unique answered]
  · exact absurd answered.acks (none.1 k (by omega))

theorem readOut_unanswered (none : ∀ k < 50, ¬ Acks bus (pollAt k)) :
    readOut bus = readData bus (unanswered 50) := by
  rcases pollLoop_cases bus 50 0 (by simp) with found | last
  · obtain ⟨j, low, answered, _⟩ := found
    exact absurd answered.acks (none j (by omega))
  · rw [readOut, last.2]

structure Meets (bus : Bus) (raw : Raw) (out : Measures) : Prop where
  only : (readSht3xMeasure bus raw out).1 = 0 ∨ (readSht3xMeasure bus raw out).2 ≠ out →
    Trusted bus
  otherwise : ¬ Trusted bus →
    (readSht3xMeasure bus raw out).1 ≠ 0 ∧ (readSht3xMeasure bus raw out).2 = out

theorem meets_iff :
    Meets bus raw out ↔ (Commanded bus ∧ Checked (readOut bus).1 → Trusted bus) := by
  constructor
  · intro meets success
    exact meets.only (Or.inl (readSht3xMeasure_succeeds.mpr success))
  · intro trusted
    have fails (other : ¬ Trusted bus) :
        readSht3xMeasure bus raw out = ((internalReadSht3xMeasure bus raw).1, out) ∧
          (internalReadSht3xMeasure bus raw).1 ≠ 0 := by
      have failed : (internalReadSht3xMeasure bus raw).1 ≠ 0 :=
        mt internalRead_succeeds.mp (mt trusted other)
      exact ⟨readSht3xMeasure_failed failed, failed⟩
    constructor
    · intro changed
      by_contra other
      rw [(fails other).1] at changed
      exact changed.elim (fails other).2 (fun moved => moved rfl)
    · intro other
      rw [(fails other).1]
      exact ⟨(fails other).2, rfl⟩

/-- Unless the bytes read behind 50 polls that were not acknowledged pass for a measurement,
the outputs change and success is reported only with a poll acknowledged and both check bytes
right. -/
theorem readSht3xMeasure_checked (bus : Bus) (raw : Raw) (out : Measures) :
    Meets bus raw out ↔
      (Commanded bus → (∀ k < 50, ¬ Acks bus (pollAt k)) →
        ¬ Checked (readData bus (unanswered 50)).1) := by
  rw [meets_iff]
  constructor
  · intro trusted acked none checked
    rw [← readOut_unanswered none] at checked
    obtain ⟨_, k, low, answered, _⟩ := trusted ⟨acked, checked⟩
    exact none k low answered.acks
  · intro unread success
    rcases pollLoop_cases bus 50 0 (by simp) with found | last
    · obtain ⟨k, low, answered, _⟩ := found
      have checked := success.2
      rw [readOut_answered (by omega) answered] at checked
      exact ⟨success.1, k, by omega, answered, checked⟩
    · have none : ∀ k < 50, ¬ Acks bus (pollAt k) := fun k low => last.1 k (by omega)
      have checked := success.2
      rw [readOut_unanswered none] at checked
      exact absurd checked (unread success.1 none)

def strayBus : Bus := fun log i =>
  match log.getLast? with
  | some .waitAck => decide (8 ≤ log.length)
  | some (.read _) => (0x2B#8).getMsbD i
  | _ => true

/-- The check byte of 0x2B 0x2B is 0x2B. -/
theorem readSht3xMeasure_stray : ¬ Meets strayBus ⟨0, 0⟩ ⟨0, 0⟩ := by
  have byte (ack : Bool) (log : List Iic) :
      iicReadByte strayBus ack log = (0x2B, log ++ [.read ack]) := by
    have bits : strayBus (log ++ [.read ack]) = (0x2B#8).getMsbD := by
      funext i
      simp [strayBus]
    rw [iicReadByte, bits]
    exact congrArg (Prod.mk · _) (by decide)
  have checked : Checked (readOut strayBus).1 := by
    rw [← crcStatus_eq_zero, readOut]
    simp only [readData, byte]
    decide +kernel
  have acked : Commanded strayBus :=
    ⟨⟨0, by decide, rfl⟩, ⟨0, by decide, rfl⟩, ⟨0, by decide, rfl⟩⟩
  have long (k : Nat) : 8 ≤ (unanswered k).length := by
    induction k with
    | zero => decide
    | succ k ih => simp [unanswered, Nat.le_add_right_of_le ih]
  rw [meets_iff]
  intro trusted
  obtain ⟨_, k, _, answered, _⟩ := trusted ⟨acked, checked⟩
  obtain ⟨i, _, low⟩ := answered.acks
  have high := long k
  simp [strayBus, pollAt] at low
  omega

end Status
end ReadMeasure
end BoxFirmware.Sht30
