import BoxFirmware.ByteMem
import BoxFirmware.GuardedRun
import Mathlib.Data.UInt
import Mathlib.Logic.Function.Iterate

/-! The pulses of the fan, from the input of `TIM1` to the width that `fan_task` prints:
channel 4 of the timer, `TIM1_CC_IRQHandler` of `timer.c` and the variables it shares with
`main.c`. Only the capture vector is enabled, so the handler is entered when a capture is
pending and finds there whether the counter has overflowed since. The status has a byte
behind it that `main.c`, which declares it a `u16`, reads and clears with it. -/
namespace BoxFirmware.FanCapture
open ByteMem GuardedRun

inductive Edge
  | rising
  | falling
deriving DecidableEq, Repr

/-- The counter, the two flags, the capture register and the polarity of channel 4, then
`TIM1CH4_CAPTURE_STA` with the byte behind it and `TIM1CH4_CAPTURE_VAL`. -/
structure St where
  cnt : Nat
  uif : Bool
  cc4if : Bool
  ccr4 : UInt16
  pol : Edge
  sta : UInt8
  behind : UInt8
  val : UInt16
deriving DecidableEq, Repr

/-- `TIM_Period`, the last count before the overflow. -/
def timPeriod : Nat := 0xFFFF - 1

/-- As `TIM1_Int_Init` leaves it: the first update comes from setting the time base. -/
def tim1IntInit : St := ⟨0, true, false, 0, .rising, 0, 0, 0⟩

def tick (s : St) : St :=
  if s.cnt = timPeriod then { s with cnt := 0, uif := true } else { s with cnt := s.cnt + 1 }

/-- An edge on the input is captured when it is of the polarity programmed. -/
def edge (e : Edge) (s : St) : St :=
  if e = s.pol then { s with ccr4 := UInt16.ofNat s.cnt, cc4if := true } else s

def onUpdate (s : St) : St :=
  if s.uif = true then
    if s.sta &&& 0x40 ≠ 0 then
      if s.sta &&& 0x3F = 0x3F then { s with sta := s.sta ||| 0x80, val := 0xFFFF }
      else { s with sta := s.sta + 1 }
    else s
  else s

def onCapture (s : St) : St :=
  if s.cc4if = true then
    if s.sta &&& 0x40 ≠ 0 then
      { s with sta := s.sta ||| 0x80, val := s.ccr4, pol := .rising }
    else { s with sta := 0 ||| 0x40, val := 0, cnt := 0, pol := .falling }
  else s

def tim1CcIrqHandler (s : St) : St :=
  let s := if s.sta &&& 0x80 = 0 then onCapture (onUpdate s) else s
  { s with uif := false, cc4if := false }

def resetSta (s : St) : St := { s with sta := 0, behind := 0 }

section Bits

def Measuring (sta : UInt8) : Prop := sta &&& 0x40 ≠ 0 ∧ sta &&& 0x80 = 0

instance (sta : UInt8) : Decidable (Measuring sta) := inferInstanceAs (Decidable (_ ∧ _))

theorem measuring_succ (sta : UInt8) (measuring : Measuring sta) (more : sta &&& 0x3F ≠ 0x3F) :
    Measuring (sta + 1) :=
  forall_uint8 (P := fun sta => Measuring sta → sta &&& 0x3F ≠ 0x3F → Measuring (sta + 1))
    (by decide +kernel) sta measuring more

theorem not_measuring_done (sta : UInt8) : ¬ Measuring (sta ||| 0x80) :=
  forall_uint8 (P := fun sta => ¬ Measuring (sta ||| 0x80)) (by decide +kernel) sta

end Bits

section Polarity

/-- What the handler and the task can do, in any order: the handler with any flags pending and
any capture, and the reset of the status. -/
inductive Op
  | irq (uif cc4if : Bool) (ccr4 : UInt16)
  | reset

def pend (uif cc4if : Bool) (ccr4 : UInt16) (s : St) : St :=
  { s with uif := uif, cc4if := cc4if, ccr4 := ccr4 }

def step (op : Op) (s : St) : St :=
  match op with
  | .irq uif cc4if ccr4 => tim1CcIrqHandler (pend uif cc4if ccr4 s)
  | .reset => resetSta s

def Agrees (s : St) : Prop := s.pol = .falling ↔ Measuring s.sta

instance (s : St) : Decidable (Agrees s) := inferInstanceAs (Decidable (_ ↔ _))

/-- The edge whose capture the handler takes for the start of a measurement. -/
def startsOn (op : Op) (s : St) : Option Edge :=
  match op with
  | .irq _ true _ => if s.sta &&& 0x80 = 0 ∧ s.sta &&& 0x40 = 0 then some s.pol else none
  | _ => none

/-- The edge whose capture the handler takes for the end of one. -/
def endsOn (op : Op) (s : St) : Option Edge :=
  match op with
  | .irq _ true _ => if Measuring s.sta then some s.pol else none
  | _ => none

structure Right (op : Op) (s : St) : Prop where
  agrees : Agrees (step op s)
  starts : ∀ e ∈ startsOn op s, e = .rising
  ends : ∀ e ∈ endsOn op s, e = .falling

/-- No overflow alone is one too many, and no reset falls into a measurement. -/
def Kept (op : Op) (s : St) : Prop :=
  match op with
  | .irq uif cc4if _ => ¬ (Measuring s.sta ∧ s.sta &&& 0x3F = 0x3F ∧ uif = true ∧ cc4if = false)
  | .reset => ¬ Measuring s.sta

theorem handler_pol (s : St) : (tim1CcIrqHandler s).pol =
    (if s.sta &&& 0x80 = 0 then onCapture (onUpdate s) else s).pol := rfl

theorem handler_sta (s : St) : (tim1CcIrqHandler s).sta =
    (if s.sta &&& 0x80 = 0 then onCapture (onUpdate s) else s).sta := rfl

theorem handler_done (s : St) (done : s.sta &&& 0x80 ≠ 0) : (tim1CcIrqHandler s).sta = s.sta := by
  rw [handler_sta, if_neg done]

theorem onUpdate_cases (s : St) (open' : s.sta &&& 0x80 = 0) :
    (onUpdate s = s ∧ ¬ (s.uif = true ∧ s.sta &&& 0x40 ≠ 0)) ∨
    (s.uif = true ∧ Measuring s.sta ∧ s.sta &&& 0x3F ≠ 0x3F ∧
      onUpdate s = { s with sta := s.sta + 1 }) ∨
    (s.uif = true ∧ Measuring s.sta ∧ s.sta &&& 0x3F = 0x3F ∧
      onUpdate s = { s with sta := s.sta ||| 0x80, val := 0xFFFF }) := by
  by_cases update : s.uif = true
  · by_cases high : s.sta &&& 0x40 ≠ 0
    · by_cases limit : s.sta &&& 0x3F = 0x3F
      · exact .inr (.inr ⟨update, ⟨high, open'⟩, limit, by simp only [onUpdate, update, high, limit,
          if_true, ne_eq, not_false_eq_true]⟩)
      · exact .inr (.inl ⟨update, ⟨high, open'⟩, limit, by simp only [onUpdate, update, high, limit,
          if_true, if_false, ne_eq, not_false_eq_true]⟩)
    · exact .inl ⟨by simp only [onUpdate, update, high, if_true, if_false], fun both => high both.2⟩
  · exact .inl ⟨by simp only [onUpdate, update, if_false, Bool.false_eq_true],
      fun both => update both.1⟩

theorem onUpdate_pol (s : St) : (onUpdate s).pol = s.pol := by
  rw [onUpdate]
  split_ifs <;> rfl

theorem onUpdate_cc4if (s : St) : (onUpdate s).cc4if = s.cc4if := by
  rw [onUpdate]
  split_ifs <;> rfl

/-- A capture leaves polarity and status in agreement, whatever they were. -/
theorem onCapture_agrees (s : St) (captured : s.cc4if = true) : Agrees (onCapture s) := by
  by_cases high : s.sta &&& 0x40 ≠ 0
  · have ended : onCapture s =
        { s with sta := s.sta ||| 0x80, val := s.ccr4, pol := .rising } := by
      simp only [onCapture, captured, high, if_true, ne_eq, not_false_eq_true]
    rw [ended]
    simp [Agrees, not_measuring_done]
  · have started : onCapture s = { s with sta := 0 ||| 0x40, val := 0, cnt := 0, pol := .falling } := by
      simp only [onCapture, captured, high, if_true, if_false]
    have measuring : Measuring (0 ||| 0x40) := by decide
    rw [started]
    exact iff_of_true rfl measuring

theorem onCapture_none (s : St) (none : s.cc4if = false) : onCapture s = s := by
  simp only [onCapture, none, Bool.false_eq_true, if_false]

theorem handler_agrees (s : St) (agrees : Agrees s) : Agrees (tim1CcIrqHandler s) ↔
    ¬ (Measuring s.sta ∧ s.sta &&& 0x3F = 0x3F ∧ s.uif = true ∧ s.cc4if = false) := by
  simp only [Agrees, handler_pol, handler_sta]
  by_cases open' : s.sta &&& 0x80 = 0
  · rw [if_pos open']
    cases captured : s.cc4if with
    | true =>
      have kept := onCapture_agrees (onUpdate s) ((onUpdate_cc4if s).trans captured)
      simpa [Agrees] using kept
    | false =>
      rw [onCapture_none _ ((onUpdate_cc4if s).trans captured), onUpdate_pol]
      rcases onUpdate_cases s open' with ⟨same, quiet⟩ | ⟨update, measuring, more, eq⟩ |
        ⟨update, measuring, limit, eq⟩
      · rw [same]
        refine iff_of_true agrees (fun bad => quiet ⟨bad.2.2.1, bad.1.1⟩)
      · rw [eq]
        have next := measuring_succ s.sta measuring more
        have falling := agrees.mpr measuring
        exact iff_of_true ⟨fun _ => next, fun _ => falling⟩ (fun bad => more bad.2.1)
      · rw [eq]
        have falling := agrees.mpr measuring
        exact iff_of_false (fun same => not_measuring_done s.sta (same.mp falling))
          (fun good => good ⟨measuring, limit, update, rfl⟩)
  · rw [if_neg open']
    exact iff_of_true agrees (fun bad => open' bad.1.2)

theorem reset_agrees (s : St) (agrees : Agrees s) :
    Agrees (resetSta s) ↔ ¬ Measuring s.sta := by
  have idle : ¬ Measuring 0 := by decide
  have rising : Agrees (resetSta s) ↔ s.pol ≠ .falling :=
    ⟨fun same falling => idle (same.mp falling), fun other => iff_of_false other idle⟩
  rw [rising]
  exact not_congr agrees

theorem step_agrees (op : Op) (s : St) (agrees : Agrees s) :
    Agrees (step op s) ↔ Kept op s := by
  cases op with
  | irq uif cc4if ccr4 => exact handler_agrees (pend uif cc4if ccr4 s) agrees
  | reset => exact reset_agrees s agrees

theorem startsOn_rising (op : Op) (s : St) (agrees : Agrees s) :
    ∀ e ∈ startsOn op s, e = .rising := by
  intro e member
  cases op with
  | reset => simp [startsOn] at member
  | irq uif cc4if ccr4 =>
    cases cc4if with
    | false => simp [startsOn] at member
    | true =>
      simp only [startsOn, Option.mem_def, Option.ite_none_right_eq_some,
        Option.some.injEq] at member
      obtain ⟨⟨-, low⟩, rfl⟩ := member
      cases pol : s.pol with
      | rising => rfl
      | falling => exact absurd low (agrees.mp pol).1

theorem endsOn_falling (op : Op) (s : St) (agrees : Agrees s) :
    ∀ e ∈ endsOn op s, e = .falling := by
  intro e member
  cases op with
  | reset => simp [endsOn] at member
  | irq uif cc4if ccr4 =>
    cases cc4if with
    | false => simp [endsOn] at member
    | true =>
      simp only [endsOn, Option.mem_def, Option.ite_none_right_eq_some,
        Option.some.injEq] at member
      obtain ⟨measuring, rfl⟩ := member
      exact agrees.mpr measuring

theorem right_iff_kept (op : Op) (s : St) (agrees : Agrees s) : Right op s ↔ Kept op s :=
  ⟨fun right => (step_agrees op s agrees).mp right.agrees, fun kept =>
    ⟨(step_agrees op s agrees).mpr kept, startsOn_rising op s agrees, endsOn_falling op s agrees⟩⟩

end Polarity

/-- Over every order of handler calls and resets, polarity and status agree, and measurements
run from a rising to a falling edge, just when no overflow comes alone to a measurement that has
counted 63, and no reset falls into a measurement. -/
theorem tim1_polarity (ops : List Op) :
    Along step Right ops tim1IntInit ↔ Along step Kept ops tim1IntInit :=
  along_exact (I := Agrees) (fun op s kept agrees => (step_agrees op s agrees).mpr kept)
    right_iff_kept (by decide)

/-- A rising edge and 64 overflows that come alone: the status is complete, the polarity still
falling, and behind the reset the next measurement starts on a falling edge. -/
theorem tim1_polarity_limit : ¬ ∀ ops : List Op, Along step Right ops tim1IntInit := by
  intro all
  have measured := along_iff.mp (all (.irq false true 0 :: List.replicate 64 (.irq true false 0) ++
    [.reset, .irq false true 0])) (.irq false true 0 :: List.replicate 64 (.irq true false 0) ++
    [.reset]) (.irq false true 0) (by simp)
  exact absurd (measured.starts .falling (by decide +kernel)) (by decide)

section Width

def enter (s : St) : St := if s.cc4if then tim1CcIrqHandler s else s

/-- A pulse of `width` counts. The handler takes the rising edge `latency` counts behind it, in
time for the falling edge or not, and is due once more `late` counts behind the last of these. -/
def pulse (latency width late : Nat) (s : St) : St :=
  if latency ≤ width then
    enter (tick^[late] (edge .falling
      (tick^[width - latency] (enter (tick^[latency] (edge .rising s))))))
  else
    enter (tick^[late] (enter
      (tick^[latency - width] (edge .falling (tick^[width] (edge .rising s))))))

/-- `extern u16 TIM1CH4_CAPTURE_STA`. -/
def externSta (s : St) : UInt16 := s.sta.toUInt16 ||| s.behind.toUInt16 <<< 8

/-- `extern u8 TIM1CH4_CAPTURE_VAL`. -/
def externVal (s : St) : UInt8 := s.val.toUInt8

/-- `temp` of `fan_task`, when it finds a complete capture. -/
def fanWidth (s : St) : Option Nat :=
  if externSta s &&& 0x80 ≠ 0 then
    some ((externSta s &&& 0x3F).toNat * 0xFFFF + (externVal s).toNat)
  else none

def Started (s : St) : Prop :=
  s.cnt = 0 ∧ s.uif = false ∧ s.cc4if = false ∧ s.pol = .falling ∧ s.sta = 0x40

theorem tick_frame (n : Nat) (s : St) :
    tick^[n] s = { s with cnt := (tick^[n] s).cnt, uif := (tick^[n] s).uif } := by
  induction n with
  | zero => rfl
  | succ n ih =>
    rw [Function.iterate_succ_apply']
    generalize tick^[n] s = t at ih ⊢
    rw [ih, tick]
    split_ifs <;> rfl

theorem tick_iterate (n : Nat) (s : St) (inside : s.cnt < 0xFFFF) :
    (tick^[n] s).cnt = (s.cnt + n) % 0xFFFF ∧
      ((tick^[n] s).uif = true ↔ s.uif = true ∨ 0xFFFF ≤ s.cnt + n) := by
  induction n with
  | zero =>
    have low : ¬ 0xFFFF ≤ s.cnt := by omega
    exact ⟨(Nat.mod_eq_of_lt inside).symm, by simp [low]⟩
  | succ n ih =>
    rw [Function.iterate_succ_apply', tick, timPeriod]
    by_cases last : (tick^[n] s).cnt = 0xFFFF - 1
    · rw [if_pos last]
      have overflow : 0xFFFF ≤ s.cnt + (n + 1) := by omega
      exact ⟨by dsimp only; omega, by simp [overflow]⟩
    · rw [if_neg last]
      refine ⟨by dsimp only; omega, ?_⟩
      dsimp only
      rw [ih.2]
      have same : 0xFFFF ≤ s.cnt + (n + 1) ↔ 0xFFFF ≤ s.cnt + n := by omega
      rw [same]

theorem handler_starts (s : St) (captured : s.cc4if = true) (idle : s.sta &&& 0xC0 = 0) :
    tim1CcIrqHandler s = { s with
      cnt := 0, uif := false, cc4if := false, pol := .falling, sta := 0x40, val := 0 } := by
  have bits : s.sta &&& 0x80 = 0 ∧ s.sta &&& 0x40 = 0 :=
    forall_uint8 (P := fun sta => sta &&& 0xC0 = 0 → sta &&& 0x80 = 0 ∧ sta &&& 0x40 = 0)
      (by decide +kernel) s.sta idle
  have low : ¬ s.sta &&& 0x40 ≠ 0 := fun high => high bits.2
  have quiet : onUpdate s = s := by
    rw [onUpdate, if_neg low, ite_self]
  rw [tim1CcIrqHandler, if_pos bits.1, quiet, onCapture, if_pos captured, if_neg low]
  rfl

theorem handler_ends (s : St) (captured : s.cc4if = true) (measuring : s.sta = 0x40) :
    tim1CcIrqHandler s = { s with
      uif := false, cc4if := false, pol := .rising, val := s.ccr4,
      sta := if s.uif = true then 0xC1 else 0xC0 } := by
  have open' : s.sta &&& 0x80 = 0 := by rw [measuring]; decide
  have high : s.sta &&& 0x40 ≠ 0 := by rw [measuring]; decide
  have few : ¬ s.sta &&& 0x3F = 0x3F := by rw [measuring]; decide
  have more : s.sta + 1 &&& 0x40 ≠ 0 := by rw [measuring]; decide
  by_cases overflow : s.uif = true
  · have update : onUpdate s = { s with sta := s.sta + 1 } := by
      rw [onUpdate, if_pos overflow, if_pos high, if_neg few]
    have one : s.sta + 1 ||| 0x80 = 0xC1 := by rw [measuring]; decide
    rw [tim1CcIrqHandler, if_pos open', update, onCapture, if_pos captured, if_pos more, one,
      if_pos overflow]
  · have update : onUpdate s = s := by rw [onUpdate, if_neg overflow]
    have zero : s.sta ||| 0x80 = 0xC0 := by rw [measuring]; decide
    rw [tim1CcIrqHandler, if_pos open', update, onCapture, if_pos captured, if_pos high, zero,
      if_neg overflow]

theorem started_rising (latency : Nat) (s : St) (idle : s.sta &&& 0xC0 = 0)
    (rising : s.pol = .rising) : Started (enter (tick^[latency] (edge .rising s))) := by
  have captured : edge .rising s = { s with ccr4 := UInt16.ofNat s.cnt, cc4if := true } := by
    rw [edge, if_pos rising.symm]
  have frame := tick_frame latency (edge .rising s)
  have pending : (tick^[latency] (edge .rising s)).cc4if = true := by rw [frame, captured]
  have status : (tick^[latency] (edge .rising s)).sta = s.sta := by rw [frame, captured]
  rw [enter, if_pos pending, handler_starts _ pending (by rw [status, idle])]
  exact ⟨rfl, rfl, rfl, rfl, rfl⟩

theorem ended_falling (high late : Nat) (s : St) (started : Started s) :
    (enter (tick^[late] (edge .falling (tick^[high] s)))).sta =
        (if 0xFFFF ≤ high + late then 0xC1 else 0xC0) ∧
      (enter (tick^[late] (edge .falling (tick^[high] s)))).val = UInt16.ofNat (high % 0xFFFF) := by
  obtain ⟨zero, clear, -, falling, measuring⟩ := started
  have first := tick_iterate high s (by omega)
  have front := tick_frame high s
  generalize tick^[high] s = t at first front ⊢
  have captured : edge .falling t = { t with ccr4 := UInt16.ofNat t.cnt, cc4if := true } := by
    rw [edge, if_pos (by rw [front, falling])]
  rw [captured]
  have second := tick_iterate late { t with ccr4 := UInt16.ofNat t.cnt, cc4if := true }
    (by dsimp only; omega)
  have back := tick_frame late { t with ccr4 := UInt16.ofNat t.cnt, cc4if := true }
  generalize tick^[late] { t with ccr4 := UInt16.ofNat t.cnt, cc4if := true } = u at second back ⊢
  have pending : u.cc4if = true := by rw [back]
  have status : u.sta = 0x40 := by rw [back, front, measuring]
  have count : u.ccr4 = UInt16.ofNat (high % 0xFFFF) := by
    rw [back]
    dsimp only
    rw [first.1, zero, Nat.zero_add]
  -- the flag is set by an overflow before the edge as by one behind it
  have overflow : u.uif = true ↔ 0xFFFF ≤ high + late := by
    rw [second.2, first.2, clear]
    have edgeCount := first.1
    dsimp only
    simp only [Bool.false_eq_true, false_or]
    omega
  rw [enter, if_pos pending, handler_ends u pending status, count]
  exact ⟨if_congr overflow rfl rfl, rfl⟩

/-- The byte behind the status stays out of the masks. -/
theorem extern_and (sta behind mask : UInt8) :
    (sta.toUInt16 ||| behind.toUInt16 <<< 8) &&& mask.toUInt16 = (sta &&& mask).toUInt16 := by
  apply UInt16.toBitVec_inj.mp
  ext i hi
  simp only [UInt16.toBitVec_and, UInt16.toBitVec_or, UInt16.toBitVec_shiftLeft,
    UInt8.toBitVec_toUInt16, UInt8.toBitVec_and, BitVec.getElem_and, BitVec.getElem_or,
    BitVec.getElem_setWidth]
  by_cases low : i < 8
  · simp [low]
  · simp [BitVec.getLsbD_of_ge mask.toBitVec i (by omega)]

theorem fanWidth_eq (s : St) : fanWidth s =
    if s.sta &&& 0x80 ≠ 0 then some ((s.sta &&& 0x3F).toNat * 0xFFFF + s.val.toNat % 256)
    else none := by
  have mark : externSta s &&& 0x80 = (s.sta &&& 0x80).toUInt16 := extern_and s.sta s.behind 0x80
  have count : externSta s &&& 0x3F = (s.sta &&& 0x3F).toUInt16 := extern_and s.sta s.behind 0x3F
  have low : (externVal s).toNat = s.val.toNat % 256 := UInt16.toNat_toUInt8 s.val
  have zero : (s.sta &&& 0x80).toUInt16 = 0 ↔ s.sta &&& 0x80 = 0 :=
    ⟨fun wide => UInt8.toUInt16_inj.mp (wide.trans (by decide)), fun narrow => by rw [narrow]; decide⟩
  rw [fanWidth, mark, count, low, UInt8.toNat_toUInt16]
  exact if_congr (not_congr zero) rfl rfl

/-- A falling edge that comes before the handler is not captured, and the measurement goes on. -/
theorem missed_falling (latency width late : Nat) (s : St) (idle : s.sta &&& 0xC0 = 0)
    (rising : s.pol = .rising) (missed : width < latency) :
    (pulse latency width late s).sta = 0x40 := by
  have unseen : edge .falling (tick^[width] (edge .rising s)) = tick^[width] (edge .rising s) := by
    rw [tick_frame, edge, edge, if_pos rising.symm, if_neg (by rw [rising]; decide)]
  have sum : latency - width + width = latency := by omega
  have started := started_rising latency s idle rising
  rw [pulse, if_neg (Nat.not_le.mpr missed), unseen, ← Function.iterate_add_apply, sum]
  generalize enter (tick^[latency] (edge .rising s)) = t at started ⊢
  obtain ⟨-, -, quiet, -, measuring⟩ := started
  have frame := tick_frame late t
  rw [enter, if_neg (by rw [frame, quiet]; decide), frame, measuring]

theorem fanWidth_pulse (latency width late : Nat) (s : St) (idle : s.sta &&& 0xC0 = 0)
    (rising : s.pol = .rising) : fanWidth (pulse latency width late s) =
      if latency ≤ width then
        some ((if 0xFFFF ≤ width - latency + late then 0xFFFF else 0) +
          (width - latency) % 0xFFFF % 256)
      else none := by
  rw [fanWidth_eq]
  by_cases seen : latency ≤ width
  · have ended := ended_falling (width - latency) late _ (started_rising latency s idle rising)
    have word : (UInt16.ofNat ((width - latency) % 0xFFFF)).toNat = (width - latency) % 0xFFFF := by
      rw [UInt16.toNat_ofNat']
      omega
    rw [pulse, if_pos seen, if_pos seen, ended.1, ended.2, word]
    by_cases counted : 0xFFFF ≤ width - latency + late
    · have mark : (0xC1 : UInt8) &&& 0x80 ≠ 0 := by decide
      have one : ((0xC1 : UInt8) &&& 0x3F).toNat = 1 := by decide
      rw [if_pos counted, if_pos mark, one, if_pos counted, Nat.one_mul]
    · have mark : (0xC0 : UInt8) &&& 0x80 ≠ 0 := by decide
      have zero : ((0xC0 : UInt8) &&& 0x3F).toNat = 0 := by decide
      rw [if_neg counted, if_pos mark, zero, if_neg counted, Nat.zero_mul]
  · have clear : ¬ (0x40 : UInt8) &&& 0x80 ≠ 0 := by decide
    rw [missed_falling latency width late s idle rising (Nat.not_le.mp seen), if_neg clear,
      if_neg seen]

end Width

/-- The reader has the width of a pulse just when the handler starts the measurement with the
edge and the pulse is shorter than 256 counts, none of them an overflow before the handler takes
the falling edge, or lasts one timer period and fewer than 256 counts; and when the handler was
late for the rising edge by what an overflow behind the falling one adds, above the low byte. -/
theorem fan_pulse_width (latency width late : Nat) (s : St) (idle : s.sta &&& 0xC0 = 0)
    (rising : s.pol = .rising) :
    fanWidth (pulse latency width late s) = some width ↔
      (latency = 0 ∧ width < 256 ∧ width + late < 0xFFFF) ∨
      (latency = 0 ∧ 0xFFFF ≤ width ∧ width < 0xFFFF + 256) ∨
      (latency ≤ width ∧ width - latency < 0xFFFF ∧ 0xFFFF ≤ width - latency + late ∧
        latency + (width - latency) / 256 * 256 = 0xFFFF) := by
  rw [fanWidth_pulse latency width late s idle rising]
  by_cases seen : latency ≤ width
  · obtain ⟨high, rfl⟩ := Nat.exists_eq_add_of_le seen
    rw [if_pos seen, Option.some.injEq, Nat.add_sub_cancel_left]
    split_ifs with counted
    · by_cases early : high < 0xFFFF
      · have low : high % 0xFFFF % 256 = high % 256 := by rw [Nat.mod_eq_of_lt early]
        rw [low]
        omega
      · omega
    · omega
  · rw [if_neg seen]
    refine iff_of_false (by simp) ?_
    omega

theorem fan_pulse_width_200 : fanWidth (pulse 0 200 3 tim1IntInit) = some 200 :=
  (fan_pulse_width 0 200 3 tim1IntInit (by decide) rfl).mpr
    (.inl ⟨rfl, by decide, by decide⟩)

/-- A pulse of 256 counts, handled at once: its width reads as 0. -/
theorem fan_pulse_width_256 :
    ¬ ∀ (latency width late : Nat) (s : St), s.sta &&& 0xC0 = 0 → s.pol = .rising →
      width < 63 * 0xFFFF → fanWidth (pulse latency width late s) = some width := by
  intro all
  have read := all 0 256 0 tim1IntInit (by decide) rfl (by decide)
  rw [fanWidth_pulse 0 256 0 tim1IntInit (by decide) rfl, if_pos (Nat.zero_le _)] at read
  exact absurd (Option.some.inj read) (by decide)

end BoxFirmware.FanCapture
