import Mathlib.Data.UInt
import Mathlib.Logic.Function.Iterate

/-! The time of the port of lwIP to the kernel, in `sys_arch.c`: the timeouts of
`sys_arch_mbox_fetch` and `sys_arch_sem_wait` in ticks, the time they report to have
waited, and `sys_now`. All of it is `u32_t` arithmetic. What the kernel's calls give
during one wait, the two readings of the tick counter among them, is an input. -/
namespace BoxFirmware.SysArch

def osTicksPerSec : UInt32 := 200

def sysArchTimeout : UInt32 := 0xffffffff

def osErrNone : UInt8 := 0
def osErrTimeout : UInt8 := 10

/-- One wait as the kernel serves it: `OSTimeGet` before, the message and the error of the
pend, and `OSTimeGet` behind it. -/
structure Wait where
  before : UInt32
  temp : UInt32
  ucErr : UInt8
  after : UInt32

/-- The ticks for a timeout, `0` for one that never ends. -/
def ucosTimeout (timeout : UInt32) : UInt32 :=
  if timeout ≠ 0 then
    let ucosTimeout := timeout * osTicksPerSec / 1000
    if ucosTimeout < 1 then 1 else ucosTimeout
  else 0

def elapsedMs (ticks : UInt32) : UInt32 := ticks * 1000 / osTicksPerSec + 1

structure Waited where
  ticks : UInt16
  msg : Option UInt32
  ret : UInt32

/-- `pvNullPointer` is the address that stands for an empty message; `wanted` says that
`msg` is not `NULL`. -/
def sysArchMboxFetch (pvNullPointer : UInt32) (wanted : Bool) (timeout : UInt32) (w : Wait) :
    Waited where
  ticks := (ucosTimeout timeout).toUInt16
  msg := if wanted then some (if w.temp = pvNullPointer then 0 else w.temp) else none
  ret :=
    if w.ucErr = osErrTimeout then sysArchTimeout
    else elapsedMs (if w.after > w.before then w.after - w.before
      else 0xffffffff - w.before + w.after)

def sysArchSemWait (timeout : UInt32) (w : Wait) : Waited where
  ticks := (ucosTimeout timeout).toUInt16
  msg := none
  ret :=
    if w.ucErr = osErrTimeout then sysArchTimeout
    else elapsedMs (if w.after ≥ w.before then w.after - w.before
      else 0xffffffff - w.before + w.after)

def osTimeTick (osTime : UInt32) : UInt32 := osTime + 1

def sysNow (osTime : UInt32) : UInt32 := osTime * 1000 / osTicksPerSec + 1

section Elapsed

theorem elapsedMs_toNat (ticks : UInt32) :
    (elapsedMs ticks).toNat = ticks.toNat * 1000 % 2^32 / 200 + 1 := by
  simp only [elapsedMs, osTicksPerSec, UInt32.toNat_add, UInt32.toNat_div, UInt32.toNat_mul,
    UInt32.reduceToNat]
  omega

theorem elapsedMs_small {ticks : UInt32} (small : 1000 * ticks.toNat < 2^32) :
    (elapsedMs ticks).toNat = ticks.toNat * 1000 / 200 + 1 := by
  rw [elapsedMs_toNat, Nat.mod_eq_of_lt (by omega)]

theorem elapsedMs_ne_timeout (ticks : UInt32) : elapsedMs ticks ≠ sysArchTimeout := by
  intro same
  have value := congrArg UInt32.toNat same
  rw [elapsedMs_toNat] at value
  simp only [sysArchTimeout, UInt32.reduceToNat] at value
  omega

theorem wrapped_toNat {t0 t1 : UInt32} (back : t1 ≤ t0) :
    (0xffffffff - t0 + t1).toNat = if t1 = t0 then 2^32 - 1 else (t1 - t0).toNat - 1 := by
  have order := UInt32.le_iff_toNat_le.mp back
  have high := t0.toNat_lt
  simp only [UInt32.toNat_add, UInt32.toNat_sub, UInt32.reduceToNat]
  by_cases same : t1 = t0
  · rw [if_pos same, same]
    omega
  · have other : t1.toNat ≠ t0.toNat := fun h => same (UInt32.toNat_inj.mp h)
    rw [if_neg same]
    omega

/-- What the branch reports is wrong for every elapsed time. -/
theorem elapsedMs_wrapped {t0 t1 : UInt32} (back : t1 ≤ t0)
    (small : 1000 * (t1 - t0).toNat < 2^32) :
    (elapsedMs (0xffffffff - t0 + t1)).toNat ≠ (t1 - t0).toNat * 1000 / 200 + 1 := by
  rw [elapsedMs_toNat, wrapped_toNat back]
  by_cases same : t1 = t0
  · subst same
    simp
  · have some : (t1 - t0).toNat ≠ 0 := by
      intro zero
      have order := UInt32.le_iff_toNat_le.mp back
      have other : t1.toNat ≠ t0.toNat := fun h => same (UInt32.toNat_inj.mp h)
      have high := t0.toNat_lt
      simp only [UInt32.toNat_sub] at zero
      omega
    rw [if_neg same]
    omega

/-- What a wait has to report. -/
def Reports (w : Wait) (ret : UInt32) : Prop :=
  ret.toNat = (w.after - w.before).toNat * 1000 / osTicksPerSec.toNat + 1 ∧
    ret ≠ sysArchTimeout

variable {w : Wait}

theorem reports_forward (small : 1000 * (w.after - w.before).toNat < 2^32) :
    Reports w (elapsedMs (w.after - w.before)) :=
  ⟨elapsedMs_small small, elapsedMs_ne_timeout _⟩

theorem not_reports_wrapped (back : w.after ≤ w.before)
    (small : 1000 * (w.after - w.before).toNat < 2^32) :
    ¬ Reports w (elapsedMs (0xffffffff - w.before + w.after)) :=
  fun reports => elapsedMs_wrapped back small reports.1

theorem sysArchMboxFetch_reports (pvNullPointer : UInt32) (wanted : Bool) (timeout : UInt32)
    (ok : w.ucErr = osErrNone) (small : 1000 * (w.after - w.before).toNat < 2^32) :
    Reports w (sysArchMboxFetch pvNullPointer wanted timeout w).ret ↔ w.before < w.after := by
  have success : ¬ osErrNone = osErrTimeout := by decide
  simp only [sysArchMboxFetch, ok, success, if_false, gt_iff_lt]
  by_cases forward : w.before < w.after
  · simp only [forward, if_true, iff_true]
    exact reports_forward small
  · simp only [forward, if_false, iff_false]
    exact not_reports_wrapped (UInt32.not_lt.mp forward) small

theorem sysArchSemWait_reports (timeout : UInt32) (ok : w.ucErr = osErrNone)
    (small : 1000 * (w.after - w.before).toNat < 2^32) :
    Reports w (sysArchSemWait timeout w).ret ↔ w.before ≤ w.after := by
  have success : ¬ osErrNone = osErrTimeout := by decide
  simp only [sysArchSemWait, ok, success, if_false, ge_iff_le]
  by_cases forward : w.before ≤ w.after
  · simp only [forward, if_true, iff_true]
    exact reports_forward small
  · simp only [forward, if_false, iff_false]
    have back := UInt32.le_of_lt (UInt32.not_le.mp forward)
    exact not_reports_wrapped back small

end Elapsed

/-- Both waits report the elapsed time just when the counter has moved on without wrapping:
the fetch takes equal readings for a wrap, and a wrap costs both of them a tick. -/
theorem sys_arch_wait_elapsed (pvNullPointer : UInt32) (wanted : Bool) (timeout : UInt32)
    (w : Wait) (ok : w.ucErr = osErrNone)
    (small : 1000 * (w.after - w.before).toNat < 2^32) :
    (Reports w (sysArchMboxFetch pvNullPointer wanted timeout w).ret ∧
        Reports w (sysArchSemWait timeout w).ret ↔ w.before < w.after) ∧
      (Reports w (sysArchSemWait timeout w).ret ↔ w.before ≤ w.after) := by
  rw [sysArchMboxFetch_reports pvNullPointer wanted timeout ok small,
    sysArchSemWait_reports timeout ok small]
  exact ⟨⟨And.left, fun forward => ⟨forward, UInt32.le_of_lt forward⟩⟩, Iff.rfl⟩

theorem sys_arch_wait_elapsed_thirty :
    Reports ⟨100, 0x20000000, osErrNone, 130⟩
        (sysArchMboxFetch 0x08000000 true 0 ⟨100, 0x20000000, osErrNone, 130⟩).ret ∧
      Reports ⟨100, 0x20000000, osErrNone, 130⟩
        (sysArchSemWait 0 ⟨100, 0x20000000, osErrNone, 130⟩).ret :=
  (sys_arch_wait_elapsed 0x08000000 true 0 ⟨100, 0x20000000, osErrNone, 130⟩ rfl
    (by decide)).1.mpr (by decide)

/-- A message that is there at once: the fetch reports almost six hours. -/
theorem sys_arch_wait_elapsed_none :
    ¬ ∀ (pvNullPointer : UInt32) (wanted : Bool) (timeout : UInt32) (w : Wait),
      w.ucErr = osErrNone → 1000 * (w.after - w.before).toNat < 2^32 →
        Reports w (sysArchMboxFetch pvNullPointer wanted timeout w).ret ∧
          Reports w (sysArchSemWait timeout w).ret := by
  intro all
  have fetch := (all 0x08000000 true 0 ⟨100, 0x20000000, osErrNone, 100⟩ rfl (by decide)).1.1
  exact absurd fetch (by decide)

section Timeout

theorem ucosTimeout_toNat {timeout : UInt32} (some : timeout ≠ 0) :
    (ucosTimeout timeout).toNat = max 1 (timeout.toNat * 200 % 2^32 / 1000) := by
  have division : (timeout * osTicksPerSec / 1000).toNat =
      timeout.toNat * 200 % 2^32 / 1000 := by
    simp only [osTicksPerSec, UInt32.toNat_div, UInt32.toNat_mul, UInt32.reduceToNat]
  simp only [ucosTimeout, ne_eq, some, not_false_eq_true, if_true, UInt32.lt_iff_toNat_lt,
    UInt32.reduceToNat]
  split_ifs with short
  · rw [division] at short
    simp only [UInt32.reduceToNat]
    omega
  · rw [division] at short ⊢
    omega

def exactTicks (timeout : UInt32) : Nat := max 1 (timeout.toNat * osTicksPerSec.toNat / 1000)

/-- The time rounded to a tick, or the longest pend there is. -/
def RoundedOrCapped (timeout : UInt32) (ticks : UInt16) : Prop :=
  (ticks.toNat * 1000 < (timeout.toNat + 5) * osTicksPerSec.toNat ∧
    timeout.toNat * osTicksPerSec.toNat < (ticks.toNat + 1) * 1000) ∨
  (ticks.toNat = 65535 ∧ 65535 * 1000 ≤ timeout.toNat * osTicksPerSec.toNat)

/-- What the pend has to be handed for a timeout: never `0`, which would mean to wait for
ever, and nothing lost in the 32 bits of the product or in the cast. -/
structure Waits (timeout : UInt32) (ticks : UInt16) : Prop where
  finite : 1 ≤ ticks.toNat
  value : RoundedOrCapped timeout ticks
  product : exactTicks timeout ≤ (ucosTimeout timeout).toNat
  cast : (ucosTimeout timeout).toNat ≤ ticks.toNat

theorem pendTicks_toNat {timeout : UInt32} (some : timeout ≠ 0) :
    (ucosTimeout timeout).toUInt16.toNat =
      max 1 (timeout.toNat * 200 % 2^32 / 1000) % 2^16 := by
  rw [UInt32.toNat_toUInt16, ucosTimeout_toNat some]

theorem waits_iff {timeout : UInt32} (some : timeout ≠ 0) :
    Waits timeout (ucosTimeout timeout).toUInt16 ↔ timeout.toNat < 327680 := by
  have pos : timeout.toNat ≠ 0 := fun zero => some (UInt32.toNat_inj.mp zero)
  have ticks := ucosTimeout_toNat some
  have cut := pendTicks_toNat some
  have rate : osTicksPerSec.toNat = 200 := rfl
  constructor
  · intro waits
    have product := waits.product
    have cast := waits.cast
    rw [exactTicks, rate] at product
    omega
  · intro short
    have fits : timeout.toNat * 200 % 2^32 = timeout.toNat * 200 := by omega
    rw [fits] at ticks cut
    refine ⟨by omega, .inl ⟨?_, ?_⟩, ?_, by omega⟩
    · rw [rate]
      omega
    · rw [rate]
      omega
    · rw [exactTicks, rate]
      omega

/-- A longer timeout can still come out as the longest pend, by chance. -/
theorem finite_roundedOrCapped_iff {timeout : UInt32} (some : timeout ≠ 0) :
    (1 ≤ (ucosTimeout timeout).toUInt16.toNat ∧
        RoundedOrCapped timeout (ucosTimeout timeout).toUInt16) ↔
      timeout.toNat < 327680 ∨ 65535000 ≤ timeout.toNat * 200 % 2^32 % 65536000 := by
  have cut := pendTicks_toNat some
  have rate : osTicksPerSec.toNat = 200 := rfl
  have round := Nat.mod_mul_right_div_self (timeout.toNat * 200 % 2^32) 1000 (2^16)
  rw [RoundedOrCapped, rate]
  constructor
  · rintro ⟨-, rounded | capped⟩
    · left
      omega
    · right
      omega
  · rintro (short | chance)
    · have waits := (waits_iff some).mpr short
      have value := waits.value
      rw [RoundedOrCapped, rate] at value
      exact ⟨waits.finite, value⟩
    · have last : timeout.toNat * 200 % 2^32 / 1000 % 2^16 = 65535 := by omega
      have longest : (ucosTimeout timeout).toUInt16.toNat = 65535 := by omega
      have product : 65535 * 1000 ≤ timeout.toNat * 200 :=
        (show 65535 * 1000 ≤ timeout.toNat * 200 % 2^32 by omega).trans (Nat.mod_le _ _)
      exact ⟨by omega, .inr ⟨longest, product⟩⟩

end Timeout

/-- Both waits hand the pend what they should just for timeouts below 327680 ms, whose ticks
fit 16 bits. The number alone, whatever was lost on the way to it, is also the longest pend
for the longer timeouts whose 32-bit product lies in the last 1000 of a round of the cast. -/
theorem sys_arch_wait_ticks (pvNullPointer : UInt32) (wanted : Bool) (timeout : UInt32)
    (w : Wait) (some : timeout ≠ 0) :
    (Waits timeout (sysArchMboxFetch pvNullPointer wanted timeout w).ticks ∧
        Waits timeout (sysArchSemWait timeout w).ticks ↔ timeout.toNat < 327680) ∧
      ((1 ≤ (sysArchMboxFetch pvNullPointer wanted timeout w).ticks.toNat ∧
          RoundedOrCapped timeout (sysArchMboxFetch pvNullPointer wanted timeout w).ticks) ↔
        timeout.toNat < 327680 ∨ 65535000 ≤ timeout.toNat * 200 % 2^32 % 65536000) := by
  simp only [sysArchMboxFetch, sysArchSemWait, and_self]
  exact ⟨waits_iff some, finite_roundedOrCapped_iff some⟩

theorem sys_arch_wait_ticks_250 :
    Waits 250 (sysArchMboxFetch 0x08000000 true 250 ⟨0, 0, osErrTimeout, 50⟩).ticks ∧
      Waits 250 (sysArchSemWait 250 ⟨0, 0, osErrTimeout, 50⟩).ticks :=
  (sys_arch_wait_ticks 0x08000000 true 250 ⟨0, 0, osErrTimeout, 50⟩ (by decide)).1.mpr (by decide)

/-- 327680 ms are 65536 ticks, which the cast makes 0: the wait never ends. -/
theorem sys_arch_wait_ticks_zero :
    ¬ ∀ (pvNullPointer : UInt32) (wanted : Bool) (timeout : UInt32) (w : Wait), timeout ≠ 0 →
      Waits timeout (sysArchMboxFetch pvNullPointer wanted timeout w).ticks ∧
        Waits timeout (sysArchSemWait timeout w).ticks := by
  intro all
  have finite := (all 0x08000000 true 327680 ⟨0, 0, osErrNone, 0⟩ (by decide)).1.finite
  exact absurd finite (by decide)

section Now

def lost (wraps : Nat) : Nat := (2^29 * wraps + 24) / 25

theorem scaled_add_lost (t : Nat) :
    1000 * t % 2^32 / 200 + 2^32 * (1000 * t / 2^32 / 200) + lost (1000 * t / 2^32 % 200) =
      5 * t := by
  rw [lost]
  omega

theorem lost_lt {wraps : Nat} (few : wraps < 200) : lost wraps < 2^32 := by
  rw [lost]
  omega

theorem lost_inj {v w : Nat} (same : lost v = lost w) : v = w := by
  simp only [lost] at same
  omega

theorem sysNow_toNat (osTime : UInt32) :
    (sysNow osTime).toNat = 1000 * osTime.toNat % 2^32 / 200 + 1 := by
  rw [Nat.mul_comm]
  exact elapsedMs_toNat osTime

theorem osTimeTick_iterate (t : UInt32) (d : Nat) : osTimeTick^[d] t = t + UInt32.ofNat d := by
  induction d with
  | zero => simp
  | succ d ih =>
    rw [Function.iterate_succ_apply', ih, osTimeTick, UInt32.ofNat_add, ← UInt32.add_assoc]
    rfl

end Now

/-- `d` ticks later `sys_now` has moved on by `d` tick periods just when the product has
wrapped as often, up to multiples of 200, at both readings. -/
theorem sys_now_elapsed (t : UInt32) (d : Nat) :
    sysNow (osTimeTick^[d] t) = sysNow t + UInt32.ofNat (d * (1000 / osTicksPerSec.toNat)) ↔
      1000 * (osTimeTick^[d] t).toNat / 2^32 % 200 = 1000 * t.toNat / 2^32 % 200 := by
  have later : (osTimeTick^[d] t).toNat = (t.toNat + d) % 2^32 := by
    rw [osTimeTick_iterate, UInt32.toNat_add, UInt32.toNat_ofNat']
    omega
  have period : 1000 / osTicksPerSec.toNat = 5 := rfl
  rw [← UInt32.toNat_inj, UInt32.toNat_add, UInt32.toNat_ofNat', sysNow_toNat, sysNow_toNat,
    period]
  generalize (osTimeTick^[d] t).toNat = u at later ⊢
  have now := scaled_add_lost t.toNat
  have then' := scaled_add_lost u
  constructor
  · intro moved
    apply lost_inj
    have fewU : lost (1000 * u / 2^32 % 200) < 2^32 := lost_lt (Nat.mod_lt _ (by decide))
    have fewT : lost (1000 * t.toNat / 2^32 % 200) < 2^32 := lost_lt (Nat.mod_lt _ (by decide))
    omega
  · intro same
    rw [same] at then'
    omega

/-- At tick 4294968, after about six hours, the product has just wrapped: the time starts over. -/
theorem sys_now_elapsed_wrap :
    ¬ ∀ (t : UInt32) (d : Nat), sysNow (osTimeTick^[d] t) =
      sysNow t + UInt32.ofNat (d * (1000 / osTicksPerSec.toNat)) := by
  intro all
  exact absurd (all 4294967 1) (by decide)

end BoxFirmware.SysArch
