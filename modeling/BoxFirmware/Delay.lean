import BoxFirmware.Loop
import Mathlib.Algebra.Group.Nat.Defs
import Mathlib.Logic.Function.Iterate
import Mathlib.Order.Monotone.Basic
import Mathlib.Tactic.SplitIfs

/-! `delay.c`: the readings of the SysTick counter that `delay_us` adds up, against the ticks
that pass. The counter runs down to 0 and is loaded again with the next tick. -/
namespace BoxFirmware.Delay
open Loop

section Counter

structure SysTick where
  load : UInt32
  val : UInt32
  within : val.toNat ≤ load.toNat

theorem pred_toNat {v : UInt32} (positive : v ≠ 0) : (v - 1).toNat + 1 = v.toNat := by
  have one := UInt32.toNat_sub v 1
  have some : v.toNat ≠ 0 := fun zero => positive (UInt32.toNat_inj.mp zero)
  have small := v.toNat_lt
  simp only [UInt32.reduceToNat] at one
  omega

def tick (c : SysTick) : SysTick :=
  if zero : c.val = 0 then { c with val := c.load, within := Nat.le_refl _ }
  else
    { c with
      val := c.val - 1
      within := by
        have one := pred_toNat zero
        have within := c.within
        omega }

def after (c : SysTick) (n : Nat) : SysTick := tick^[n] c

/-- How many of the next `n` ticks load the counter. -/
def reloads (c : SysTick) : Nat → Nat
  | 0 => 0
  | n + 1 => reloads c n + if (after c n).val = 0 then 1 else 0

theorem after_succ (c : SysTick) (n : Nat) : after c (n + 1) = tick (after c n) :=
  Function.iterate_succ_apply' tick n c

theorem tick_load (c : SysTick) : (tick c).load = c.load := by
  unfold tick
  split <;> rfl

theorem after_load (c : SysTick) (n : Nat) : (after c n).load = c.load := by
  induction n with
  | zero => rfl
  | succ n ih => rw [after_succ, tick_load, ih]

theorem tick_val (c : SysTick) :
    (tick c).val.toNat + 1 = c.val.toNat + if c.val = 0 then c.load.toNat + 1 else 0 := by
  unfold tick
  split
  · rename_i zero
    simp [zero]
  · rename_i positive
    exact pred_toNat positive

/-- A reload adds a period of `load + 1` ticks. -/
theorem after_val (c : SysTick) (n : Nat) :
    (after c n).val.toNat + n = c.val.toNat + (c.load.toNat + 1) * reloads c n := by
  induction n with
  | zero => rfl
  | succ n ih =>
    have step := tick_val (after c n)
    rw [after_load] at step
    rw [after_succ, reloads, Nat.mul_add]
    split_ifs at step ⊢ <;> omega

theorem reloads_mono (c : SysTick) : Monotone (reloads c) :=
  monotone_nat_of_le_succ (fun _ => Nat.le_add_right _ _)

end Counter

section Driver

def delayTickspersec : UInt32 := 200

/-- `fac_us`, `fac_ms` and the 24 bits of `LOAD`. -/
structure Factors where
  facUs : UInt8
  facMs : UInt16
  load : UInt32

def delayInit (sysclk : UInt8) : Factors :=
  let reload := (sysclk / 8).toUInt32 * (1000000 / delayTickspersec)
  ⟨sysclk / 8, (1000 / delayTickspersec).toUInt16, reload &&& 0xFFFFFF⟩

structure St where
  told : UInt32
  tcnt : UInt32
  reading : Nat
deriving DecidableEq

/-- `tcnt` with the difference of two readings added. -/
def addReading (reload told tnow tcnt : UInt32) : UInt32 :=
  if tnow < told then tcnt + (told - tnow) else tcnt + (reload - tnow + told)

/-- One turn of `while(1)`, which reads `SysTick->VAL` once. -/
def delayTurn (val : Nat → UInt32) (reload ticks : UInt32) (s : St) : Turn St St :=
  let tnow := val (s.reading + 1)
  if tnow ≠ s.told then
    let tcnt := addReading reload s.told tnow s.tcnt
    let t : St := ⟨tnow, tcnt, s.reading + 1⟩
    if tcnt ≥ ticks then .leave t else .again t
  else .again { s with reading := s.reading + 1 }

def delayStart (val : Nat → UInt32) : St := ⟨val 0, 0, 0⟩

def ticksOf (nus : UInt32) (facUs : UInt8) : UInt32 := nus * facUs.toUInt32

end Driver

section Elapsed

variable {c : SysTick} {time : Nat → Nat} {facUs : UInt8} {nus : UInt32}

def valAt (c : SysTick) (time : Nat → Nat) (k : Nat) : UInt32 := (after c (time k)).val

/-- Readings follow each other in less than a period. -/
def Close (c : SysTick) (time : Nat → Nat) : Prop :=
  ∀ k, time k ≤ time (k + 1) ∧ time (k + 1) - time k < c.load.toNat + 1

/-- What `tcnt` says of the ticks since the first reading. -/
structure Counts (c : SysTick) (time : Nat → Nat) (s : St) : Prop where
  atMost : s.tcnt.toNat ≤ time s.reading - time 0
  lag : time s.reading - time 0 ≤
    s.tcnt.toNat + (reloads c (time s.reading) - reloads c (time 0))

/-- Between two readings the counter is loaded at most once, and then it reads higher. -/
theorem readings (close : Close c time) (k : Nat) :
    (valAt c time k).toNat ≤ c.load.toNat ∧ (valAt c time (k + 1)).toNat ≤ c.load.toNat ∧
    ((reloads c (time (k + 1)) = reloads c (time k) ∧
        (valAt c time (k + 1)).toNat + (time (k + 1) - time k) = (valAt c time k).toNat) ∨
      reloads c (time (k + 1)) = reloads c (time k) + 1 ∧
        (valAt c time (k + 1)).toNat + (time (k + 1) - time k) =
          (valAt c time k).toNat + c.load.toNat + 1) := by
  have near := close k
  have now := after_val c (time k)
  have next := after_val c (time (k + 1))
  have low := (after c (time k)).within
  have low' := (after c (time (k + 1))).within
  rw [after_load] at low low'
  obtain ⟨e, more⟩ := Nat.exists_eq_add_of_le (reloads_mono c near.1)
  rw [more, Nat.mul_add] at next
  unfold valAt
  refine ⟨low, low', ?_⟩
  have few : e < 2 := by
    by_contra many
    have twice := Nat.mul_le_mul_left (c.load.toNat + 1) (Nat.le_of_not_lt many)
    omega
  have either : e = 0 ∨ e = 1 := by omega
  rcases either with rfl | rfl
  · left
    omega
  · right
    omega

/-- Before a reading: `told` is the last one, and the count has room for a whole counter. -/
structure Counting (c : SysTick) (time : Nat → Nat) (ticks : UInt32) (s : St) : Prop where
  told : s.told = valAt c time s.reading
  room : s.tcnt.toNat ≤ ticks.toNat
  counts : Counts c time s

theorem first_le (close : Close c time) (k : Nat) : time 0 ≤ time k :=
  monotone_nat_of_le_succ (fun n => (close n).1) (Nat.zero_le k)

/-- The difference that is added: the ticks between two readings, less one for a reload. -/
theorem addReading_toNat {told tnow tcnt load ticks : UInt32}
    (fits : ticks.toNat + load.toNat < 2 ^ 32) (room : tcnt.toNat ≤ ticks.toNat)
    (low : told.toNat ≤ load.toNat) (low' : tnow.toNat ≤ load.toNat) (other : tnow ≠ told) :
    (addReading load told tnow tcnt).toNat =
      if tnow.toNat < told.toNat then tcnt.toNat + (told.toNat - tnow.toNat)
      else tcnt.toNat + (load.toNat - tnow.toNat + told.toNat) := by
  have differ : tnow.toNat ≠ told.toNat := fun same => other (UInt32.toNat_inj.mp same)
  simp only [addReading, UInt32.lt_iff_toNat_lt]
  split
  · have sum := UInt32.toNat_add tcnt (told - tnow)
    have difference := UInt32.toNat_sub told tnow
    omega
  · have sum := UInt32.toNat_add tcnt (load - tnow + told)
    have inner := UInt32.toNat_add (load - tnow) told
    have difference := UInt32.toNat_sub load tnow
    omega

theorem delayTurn_counts (close : Close c time) {ticks : UInt32}
    (fits : ticks.toNat + c.load.toNat < 2 ^ 32) (s : St) (counting : Counting c time ticks s) :
    (delayTurn (valAt c time) c.load ticks s).Gives (Counting c time ticks)
      (fun r => Counts c time r ∧ ticks.toNat ≤ r.tcnt.toNat) := by
  obtain ⟨low, low', between⟩ := readings close s.reading
  have near := close s.reading
  have first := first_le close s.reading
  have atMost := counting.counts.atMost
  have lag := counting.counts.lag
  have mono := reloads_mono c first
  unfold delayTurn
  dsimp only
  rw [counting.told]
  split
  · rename_i other
    have differ : (valAt c time (s.reading + 1)).toNat ≠ (valAt c time s.reading).toNat :=
      fun same => other (UInt32.toNat_inj.mp same)
    have added := addReading_toNat fits counting.room low low' other
    have counts : Counts c time ⟨valAt c time (s.reading + 1),
        addReading c.load (valAt c time s.reading) (valAt c time (s.reading + 1)) s.tcnt,
        s.reading + 1⟩ := by
      constructor <;> dsimp only <;> rw [added] <;> split_ifs <;> omega
    split
    · rename_i enough
      exact ⟨counts, UInt32.le_iff_toNat_le.mp enough⟩
    · rename_i short
      refine ⟨rfl, ?_, counts⟩
      have less := mt UInt32.le_iff_toNat_le.mpr short
      exact Nat.le_of_not_le less
  · rename_i same
    have equal := congrArg UInt32.toNat (Decidable.not_not.mp same)
    refine ⟨(Decidable.not_not.mp same).symm, counting.room, ?_, ?_⟩
    · dsimp only
      omega
    · dsimp only
      omega

theorem delayStart_counting (c : SysTick) (time : Nat → Nat) (ticks : UInt32) :
    Counting c time ticks (delayStart (valAt c time)) := by
  refine ⟨rfl, Nat.zero_le _, ?_, ?_⟩ <;> simp [delayStart]

/-- The count never runs ahead of the time and loses at most a tick with each reload, so that
the delay is not cut short. -/
theorem delayUs_elapsed (c : SysTick) (time : Nat → Nat) (close : Close c time) (facUs : UInt8)
    (nus : UInt32) (fits : nus.toNat * facUs.toNat + c.load.toNat < 2 ^ 32) :
    (∀ s, Reaches (delayTurn (valAt c time) c.load (ticksOf nus facUs))
        (delayStart (valAt c time)) s → Counts c time s) ∧
      ∀ r, Ends (delayTurn (valAt c time) c.load (ticksOf nus facUs))
        (delayStart (valAt c time)) r →
          Counts c time r ∧ nus.toNat * facUs.toNat ≤ time r.reading - time 0 := by
  have ticks : (ticksOf nus facUs).toNat = nus.toNat * facUs.toNat := by
    rw [ticksOf, UInt32.toNat_mul, UInt8.toNat_toUInt32]
    exact Nat.mod_eq_of_lt (by omega)
  rw [← ticks] at fits ⊢
  have turns := delayTurn_counts close fits
  have start := delayStart_counting c time (ticksOf nus facUs)
  constructor
  · intro s way
    exact (reaches_turns turns way start).counts
  · intro r ends
    obtain ⟨counts, enough⟩ := ends.gives turns start
    exact ⟨counts, Nat.le_trans enough counts.atMost⟩

theorem delayUs_elapsed_ten : ∃ r,
    Ends (delayTurn (valAt ⟨9, 5, by decide⟩ (3 * ·)) 9 (ticksOf 4 2))
      (delayStart (valAt ⟨9, 5, by decide⟩ (3 * ·))) r ∧
      r.tcnt = 8 ∧ Counts ⟨9, 5, by decide⟩ (3 * ·) r ∧ 4 * 2 ≤ 3 * r.reading := by
  have ends : Ends (delayTurn (valAt ⟨9, 5, by decide⟩ (3 * ·)) 9 (ticksOf 4 2))
      (delayStart (valAt ⟨9, 5, by decide⟩ (3 * ·))) ⟨6, 8, 3⟩ := ⟨3, by decide +kernel⟩
  have close : Close ⟨9, 5, by decide⟩ (3 * ·) := by
    intro k
    simp only [UInt32.reduceToNat]
    omega
  obtain ⟨counts, -⟩ := (delayUs_elapsed ⟨9, 5, by decide⟩ (3 * ·) close 2 4 (by decide)).2 _ ends
  exact ⟨_, ends, rfl, counts, by decide⟩

theorem delayInit_fits (sysclk : UInt8) {nus : UInt32} (short : nus.toNat ≤ 138000000) :
    nus.toNat * (delayInit sysclk).facUs.toNat + (delayInit sysclk).load.toNat < 2 ^ 32 := by
  have bound : ∀ n : Fin 256, (delayInit (.ofFin n)).facUs.toNat ≤ 31 ∧
      (delayInit (.ofFin n)).load.toNat ≤ 155000 := by decide +kernel
  have most := bound sysclk.toFin
  have product := Nat.mul_le_mul short most.1
  exact Nat.lt_of_le_of_lt (Nat.add_le_add product most.2) (by decide)

end Elapsed

end BoxFirmware.Delay
