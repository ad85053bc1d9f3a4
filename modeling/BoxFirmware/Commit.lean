import BoxFirmware.ByteMem
import BoxFirmware.GuardedRun

/-! The receive interrupt of the GPS UART in `commit.c`. Addresses count from `Save_Data`,
which `USART2_RX_BUF` and then `USART3_RX_BUF` follow in the linker's map, so that a store
behind an array has the effect it has on the box. -/
namespace BoxFirmware.Commit
open ByteMem GuardedRun

def usart2RecLen : Nat := 200
def gpsBufferLength : Nat := 80

def gpsBuffer : Nat := 0
def isGetData : Nat := 80
def usart2RxBuf : Nat := 136

abbrev dollar : UInt8 := 0x24
abbrev newline : UInt8 := 0x0a
abbrev letterM : UInt8 := 0x4d
abbrev letterC : UInt8 := 0x43

structure St where
  mem : Mem
  point1 : Nat

/-- The handler's writes to the two objects, in their order. -/
inductive Write
  | rxByte (i : Nat)
  | gpsClear
  | gpsCopy (n : Nat)
  | getData
  | rxClear
  deriving DecidableEq

def Write.range : Write → Nat × Nat
  | .rxByte i => (usart2RxBuf + i, 1)
  | .gpsClear => (gpsBuffer, gpsBufferLength)
  | .gpsCopy n => (gpsBuffer, n)
  | .getData => (isGetData, 1)
  | .rxClear => (usart2RxBuf, usart2RecLen)

/-- The test for `$GPRMC` or `$GNRMC`. -/
def marked (mem : Mem) : Bool :=
  mem usart2RxBuf = dollar && mem (usart2RxBuf + 4) = letterM && mem (usart2RxBuf + 5) = letterC

def rxStore (res : UInt8) (s : St) : St where
  mem := Function.update s.mem (usart2RxBuf + s.point1) res
  point1 := (s.point1 + 1) % 2^16

/-- The sentence goes to `GPS_Buffer` and the receive buffer is wiped. The `memcpy` runs
upwards to a lower address, so it reads no byte that it has written. -/
def deliver (s : St) : St :=
  let cleared := store s.mem gpsBuffer (fun _ => 0) gpsBufferLength
  let copied := store cleared gpsBuffer (shift cleared usart2RxBuf) s.point1
  let flagged := Function.update copied isGetData 1
  { mem := store flagged usart2RxBuf (fun _ => 0) usart2RecLen, point1 := 0 }

def clamp (s : St) : St :=
  { s with point1 := if s.point1 ≥ usart2RecLen then usart2RecLen else s.point1 }

def receive (res : UInt8) (s : St) : List Write × St :=
  let s := if res = dollar then { s with point1 := 0 } else s
  let stored := rxStore res s
  if marked stored.mem ∧ res = newline then
    ([.rxByte s.point1, .gpsClear, .gpsCopy stored.point1, .getData, .rxClear],
      clamp (deliver stored))
  else ([.rxByte s.point1], clamp stored)

def usart2IrqHandler (dr : Option UInt8) (s : St) : List Write × St :=
  match dr with
  | some res => receive res s
  | none => ([], s)

/-- An interrupt: what the other code has left in the rest of the memory, and the byte
if there is one. -/
structure Irq where
  others : Mem
  dr : Option UInt8

/-- The other code may change all of the memory but `USART2_RX_BUF`. The course of a sentence that
`Get_Gps` copies behind the end of its array, and so into that buffer, is left out. -/
def St.meanwhile (others : Mem) (s : St) : St :=
  { s with mem := store others usart2RxBuf (shift s.mem usart2RxBuf) usart2RecLen }

def writes (irq : Irq) (s : St) : List Write :=
  (usart2IrqHandler irq.dr (s.meanwhile irq.others)).1

def step (irq : Irq) (s : St) : St := (usart2IrqHandler irq.dr (s.meanwhile irq.others)).2

def start : St := ⟨fun _ => 0, 0⟩

def stream (irqs : List Irq) : List UInt8 := irqs.filterMap Irq.dr

section Receive

variable (res : UInt8) (s : St)

/-- What the handler does: it starts a sentence, delivers one, or gathers a byte. -/
theorem receive_cases :
    (res = dollar ∧ receive res s =
      ([.rxByte 0], clamp (rxStore dollar { s with point1 := 0 }))) ∨
    (res = newline ∧ marked (rxStore newline s).mem = true ∧ receive res s =
      ([.rxByte s.point1, .gpsClear, .gpsCopy (rxStore newline s).point1, .getData, .rxClear],
        clamp (deliver (rxStore newline s)))) ∨
    (res ≠ dollar ∧ ¬ (res = newline ∧ marked (rxStore newline s).mem = true) ∧
      receive res s = ([.rxByte s.point1], clamp (rxStore res s))) := by
  by_cases plain : res = dollar
  · subst plain
    have other : dollar ≠ newline := by decide
    exact .inl ⟨rfl, by simp only [receive, if_true, other, and_false, if_false]⟩
  · by_cases now : res = newline ∧ marked (rxStore newline s).mem = true
    · obtain ⟨rfl, now⟩ := now
      exact .inr (.inl ⟨rfl, now, by simp only [receive, if_neg plain, now, and_self, if_true]⟩)
    · have quiet : ¬ (marked (rxStore res s).mem = true ∧ res = newline) := by
        rintro ⟨marks, rfl⟩
        exact now ⟨rfl, marks⟩
      exact .inr (.inr ⟨plain, now, by simp only [receive, if_neg plain, if_neg quiet]⟩)

@[simp] theorem clamp_mem : (clamp s).mem = s.mem := rfl

theorem clamp_point1 : (clamp s).point1 = min s.point1 usart2RecLen := by
  unfold clamp
  dsimp only
  split <;> omega

theorem deliver_frame {a : Nat} (gps : gpsBufferLength ≤ a) (copied : s.point1 ≤ a)
    (flag : a ≠ isGetData) (rx : a < usart2RxBuf ∨ usart2RxBuf + usart2RecLen ≤ a) :
    (deliver s).mem a = s.mem a := by
  simp only [deliver]
  rw [store_outside _ _ _ _ rx, Function.update_of_ne flag, store_outside _ _ _ _ (.inr _),
    store_outside _ _ _ _ (.inr _)] <;> simpa [gpsBuffer]

theorem receive_frame {a : Nat}
    (outside : ∀ w ∈ (receive res s).1, ¬ (w.range.1 ≤ a ∧ a < w.range.1 + w.range.2)) :
    (receive res s).2.mem a = s.mem a := by
  have stored : ∀ res (s : St), ¬ (usart2RxBuf + s.point1 ≤ a ∧ a < usart2RxBuf + s.point1 + 1) →
      (rxStore res s).mem a = s.mem a := fun _ _ out => Function.update_of_ne (by omega) _ _
  obtain ⟨-, eq⟩ | ⟨-, -, eq⟩ | ⟨-, -, eq⟩ := receive_cases res s
  · rw [eq] at outside ⊢
    exact stored _ { s with point1 := 0 } (outside (.rxByte 0) (by simp))
  · rw [eq] at outside ⊢
    simp only [List.forall_mem_cons, Write.range, gpsBuffer] at outside
    obtain ⟨byte, clear, copy, flag, wipe, -⟩ := outside
    have kept := deliver_frame (rxStore newline s) (a := a) (by omega) (by omega) (by omega)
      (by omega)
    exact kept.trans (stored _ s byte)
  · rw [eq] at outside ⊢
    exact stored _ s (outside (.rxByte s.point1) (by simp))

theorem receive_point1 : (receive res s).2.point1 ≤ usart2RecLen := by
  obtain ⟨-, eq⟩ | ⟨-, -, eq⟩ | ⟨-, -, eq⟩ := receive_cases res s <;>
  · rw [eq, clamp_point1]
    exact Nat.min_le_right _ _

end Receive

section Bounds

/-- A byte goes into the receive buffer, and a copy leaves room for its NUL. The other
writes are of an array's own length. -/
def Write.Fits : Write → Prop
  | .rxByte i => i < usart2RecLen
  | .gpsCopy n => n + 1 ≤ gpsBufferLength
  | _ => True

/-- A byte other than a dollar sign finds room, and a newline that ends a marked buffer
comes with room for itself and the NUL. -/
def Bounded (irq : Irq) (s : St) : Prop :=
  ∀ res ∈ irq.dr, (res = dollar ∨ s.point1 < usart2RecLen) ∧
    (res = newline → marked s.mem = true → s.point1 + 2 ≤ gpsBufferLength)

theorem meanwhile_mem (others : Mem) (s : St) {i : Nat} (inside : i < usart2RecLen) :
    (s.meanwhile others).mem (usart2RxBuf + i) = s.mem (usart2RxBuf + i) :=
  store_inside _ _ _ _ inside

theorem marked_meanwhile (others : Mem) (s : St) :
    marked (s.meanwhile others).mem = marked s.mem := by
  have zero := meanwhile_mem others s (i := 0) (by decide)
  rw [Nat.add_zero] at zero
  unfold marked
  rw [zero, meanwhile_mem others s (by decide), meanwhile_mem others s (by decide)]

/-- A newline leaves the marks as they are unless it takes the place of one. -/
theorem marked_newline (s : St) : marked (rxStore newline s).mem = true ↔
    marked s.mem = true ∧ s.point1 ≠ 0 ∧ s.point1 ≠ 4 ∧ s.point1 ≠ 5 := by
  have at_ : ∀ i, (rxStore newline s).mem (usart2RxBuf + i) =
      if i = s.point1 then newline else s.mem (usart2RxBuf + i) := by
    intro i
    simp only [rxStore, Function.update_apply, Nat.add_left_cancel_iff]
  have plain : newline ≠ dollar ∧ newline ≠ letterM ∧ newline ≠ letterC := by decide
  have zero := at_ 0
  rw [Nat.add_zero] at zero
  simp only [marked, zero, at_, Bool.and_eq_true, decide_eq_true_eq]
  by_cases first : 0 = s.point1
  · simp [← first, plain]
  · by_cases fifth : 4 = s.point1
    · simp [← fifth, plain]
    · by_cases sixth : 5 = s.point1
      · simp [← sixth, plain]
      · simp [first, fifth, sixth, Ne.symm first, Ne.symm fifth, Ne.symm sixth]

theorem receive_fits (res : UInt8) {s : St} (bound : s.point1 ≤ usart2RecLen) :
    (∀ w ∈ (receive res s).1, w.Fits) ↔ (res = dollar ∨ s.point1 < usart2RecLen) ∧
      (res = newline → marked s.mem = true → s.point1 + 2 ≤ gpsBufferLength) := by
  have room : usart2RecLen = 200 ∧ gpsBufferLength = 80 := ⟨rfl, rfl⟩
  have other : newline ≠ dollar := by decide
  obtain ⟨rfl, eq⟩ | ⟨rfl, now, eq⟩ | ⟨plain, quiet, eq⟩ := receive_cases res s
  · rw [eq]
    simp [Write.Fits, other.symm, room]
  · have count : (rxStore newline s).point1 = s.point1 + 1 := Nat.mod_eq_of_lt (by omega)
    have marks := ((marked_newline s).mp now).1
    have fits : (∀ w ∈ [Write.rxByte s.point1, .gpsClear, .gpsCopy (s.point1 + 1), .getData,
        .rxClear], w.Fits) ↔ s.point1 < usart2RecLen ∧ s.point1 + 1 + 1 ≤ gpsBufferLength := by
      simp [Write.Fits]
    rw [eq, count]
    refine fits.trans ⟨fun both => ⟨.inr both.1, fun _ _ => both.2⟩, fun held => ?_⟩
    exact ⟨held.1.resolve_left other, held.2 rfl marks⟩
  · rw [eq]
    have fits : (∀ w ∈ [Write.rxByte s.point1], w.Fits) ↔ s.point1 < usart2RecLen := by
      simp [Write.Fits]
    refine fits.trans ⟨fun inside => ⟨.inr inside, ?_⟩, fun held => held.1.resolve_left plain⟩
    rintro rfl marks
    -- the newline took the place of a mark
    have place : s.point1 = 0 ∨ s.point1 = 4 ∨ s.point1 = 5 := by
      by_contra none
      exact quiet ⟨rfl, (marked_newline s).mpr ⟨marks, by omega⟩⟩
    omega

@[simp] theorem meanwhile_point1 (others : Mem) (s : St) :
    (s.meanwhile others).point1 = s.point1 := rfl

theorem step_fits (irq : Irq) {s : St} (bound : s.point1 ≤ usart2RecLen) :
    (∀ w ∈ writes irq s, w.Fits) ↔ Bounded irq s := by
  obtain ⟨others, dr⟩ := irq
  cases dr with
  | none => simp [writes, usart2IrqHandler, Bounded]
  | some res =>
    have fits := receive_fits res (s := s.meanwhile others) bound
    rw [marked_meanwhile, meanwhile_point1] at fits
    simpa [writes, usart2IrqHandler, Bounded] using fits

theorem run_point1 (irqs : List Irq) : (run step irqs start).point1 ≤ usart2RecLen := by
  refine run_invariant (I := fun s : St => s.point1 ≤ usart2RecLen) (fun irq s _ bound => ?_)
    (along_true step irqs start) (Nat.zero_le _)
  obtain ⟨others, dr⟩ := irq
  cases dr with
  | none => exact bound
  | some res => exact receive_point1 res _

/-- The handler stays inside its two buffers in a run just when every byte but a dollar sign
meets room in the receive buffer, and every newline behind the marks of a sentence short
enough for `GPS_Buffer`. -/
theorem receive_in_bounds (irqs : List Irq) :
    (∀ pre irq, pre ++ [irq] <+: irqs → ∀ w ∈ writes irq (run step pre start), w.Fits) ↔
      Along step Bounded irqs start := by
  rw [along_iff]
  exact forall₃_congr (fun pre irq _ => step_fits irq (run_point1 pre))

def arrive (bytes : List UInt8) : List Irq := bytes.map (fun res => ⟨fun _ => 0, some res⟩)

/-- With 201 bytes and no dollar sign the last goes behind the receive buffer. -/
theorem receive_overruns : ¬ ∀ irqs irq, ∀ w ∈ writes irq (run step irqs start), w.Fits := by
  intro all
  have fits := all (arrive (List.replicate 200 0x61)) ⟨fun _ => 0, some 0x61⟩ (.rxByte 200)
    (by decide +kernel)
  exact Nat.lt_irrefl _ fits

end Bounds

section Sentences

/-- A sentence of the stream that ends with its last byte. -/
structure RmcSentence (stream sentence : List UInt8) : Prop where
  consecutive : sentence <:+ stream
  dollar : sentence.head? = some dollar
  newline : sentence.getLast? = some newline
  single : Commit.dollar ∉ sentence.tail
  typeM : sentence[4]? = some letterM
  typeC : sentence[5]? = some letterC

/-- `GPS_Buffer` holds the sentence, and zeros behind it. -/
def Holds (mem : Mem) (sentence : List UInt8) : Prop :=
  sentence.length ≤ gpsBufferLength ∧ slice mem gpsBuffer gpsBufferLength =
    sentence ++ List.replicate (gpsBufferLength - sentence.length) 0

/-- A newline that finds the marks comes behind them, and not too late for `GPS_Buffer`. In
the place of a mark it takes the mark away. -/
def Whole (irq : Irq) (s : St) : Prop :=
  irq.dr = some newline → marked s.mem = true →
    4 ≤ s.point1 ∧ s.point1 + 1 ≤ gpsBufferLength

/-- What the receive buffer holds of the stream: the bytes since the last dollar sign or
delivery, as far as there is room. -/
structure Gathered (stream current : List UInt8) (s : St) : Prop where
  consecutive : current <:+ stream
  point1 : s.point1 = min current.length usart2RecLen
  kept : ∀ i < s.point1, current[i]? = some (s.mem (usart2RxBuf + i))
  single : dollar ∉ current.tail
  fresh : current = [] → s.mem usart2RxBuf ≠ dollar

variable {bytes current : List UInt8} {s : St}

theorem gathered_start : Gathered [] [] start :=
  ⟨List.suffix_refl _, rfl, fun i inside => absurd inside (Nat.not_lt_zero i), nofun,
    fun _ => by decide⟩

theorem gathered_meanwhile (gathered : Gathered bytes current s) (others : Mem) :
    Gathered bytes current (s.meanwhile others) := by
  have bound : s.point1 ≤ usart2RecLen := gathered.point1 ▸ Nat.min_le_right _ _
  refine ⟨gathered.consecutive, gathered.point1, fun i inside => ?_, gathered.single,
    fun none => ?_⟩
  · rw [meanwhile_mem others s (Nat.lt_of_lt_of_le inside bound)]
    exact gathered.kept i inside
  · have first := meanwhile_mem others s (i := 0) (by decide)
    rw [Nat.add_zero] at first
    rw [first]
    exact gathered.fresh none

theorem suffix_byte (suffix : current <:+ bytes) (res : UInt8) :
    current ++ [res] <:+ bytes ++ [res] := by
  obtain ⟨before, rfl⟩ := suffix
  exact ⟨before, (List.append_assoc _ _ _).symm⟩

theorem gathered_byte (gathered : Gathered bytes current s) {res : UInt8} (plain : res ≠ dollar) :
    Gathered (bytes ++ [res]) (current ++ [res]) (clamp (rxStore res s)) := by
  have size : usart2RecLen = 200 := rfl
  have point1 := gathered.point1
  have count : (rxStore res s).point1 = s.point1 + 1 := Nat.mod_eq_of_lt (by omega)
  refine ⟨suffix_byte gathered.consecutive res, ?_, fun i inside => ?_, ?_, ?_⟩
  · rw [clamp_point1, count, List.length_append, List.length_singleton]
    omega
  · rw [clamp_point1, count] at inside
    show _ = some (Function.update s.mem (usart2RxBuf + s.point1) res (usart2RxBuf + i))
    rcases Nat.lt_succ_iff_lt_or_eq.mp (Nat.lt_of_lt_of_le inside (Nat.min_le_left _ _)) with
      before | last
    · rw [List.getElem?_append_left (by omega), Function.update_of_ne (by omega)]
      exact gathered.kept i before
    · have whole : i = current.length := by omega
      rw [← last, Function.update_self, whole, List.getElem?_concat_length]
  · intro member
    cases cut : current with
    | nil => simp [cut] at member
    | cons first rest =>
      rw [cut, List.cons_append, List.tail_cons, List.mem_append, List.mem_singleton] at member
      have single := gathered.single
      rw [cut, List.tail_cons] at single
      exact member.elim single (fun same => plain same.symm)
  · simp

theorem gathered_dollar (bytes : List UInt8) (s : St) :
    Gathered (bytes ++ [dollar]) [dollar] (clamp (rxStore dollar { s with point1 := 0 })) := by
  refine ⟨List.suffix_append _ _, rfl, fun i inside => ?_, nofun, nofun⟩
  obtain rfl : i = 0 := Nat.lt_one_iff.mp inside
  show some dollar = some (Function.update s.mem usart2RxBuf dollar usart2RxBuf)
  rw [Function.update_self]

theorem gathered_deliver (bytes : List UInt8) (s : St) : Gathered bytes [] (clamp (deliver s)) := by
  refine ⟨List.nil_suffix, rfl, fun i inside => absurd inside (Nat.not_lt_zero i), nofun,
    fun _ => ?_⟩
  have wiped : (deliver s).mem (usart2RxBuf + 0) = 0 := by
    simp only [deliver]
    exact store_inside _ _ _ usart2RecLen (by decide)
  intro marked
  exact absurd (wiped.symm.trans marked) (by decide)

theorem gathered_step (gathered : Gathered bytes current s) (irq : Irq) :
    ∃ current', Gathered (bytes ++ irq.dr.toList) current' (step irq s) := by
  obtain ⟨others, dr⟩ := irq
  have gathered := gathered_meanwhile gathered others
  cases dr with
  | none => exact ⟨current, by simpa [step, usart2IrqHandler] using gathered⟩
  | some res =>
    show ∃ current', Gathered (bytes ++ [res]) current' (receive res (s.meanwhile others)).2
    obtain ⟨rfl, eq⟩ | ⟨-, -, eq⟩ | ⟨plain, -, eq⟩ := receive_cases res (s.meanwhile others)
    · rw [eq]
      exact ⟨_, gathered_dollar bytes _⟩
    · rw [eq]
      exact ⟨_, gathered_deliver _ _⟩
    · rw [eq]
      exact ⟨_, gathered_byte gathered plain⟩

theorem gathered_run (gathered : Gathered bytes current s) (irqs : List Irq) :
    ∃ current', Gathered (bytes ++ stream irqs) current' (run step irqs s) := by
  induction irqs generalizing bytes current s with
  | nil => exact ⟨current, by simpa [stream] using gathered⟩
  | cons irq irqs ih =>
    obtain ⟨next, after⟩ := gathered_step gathered irq
    obtain ⟨last, whole⟩ := ih after
    refine ⟨last, ?_⟩
    have behind : stream (irq :: irqs) = irq.dr.toList ++ stream irqs := by
      cases dr : irq.dr <;> simp [stream, dr]
    rw [behind, ← List.append_assoc]
    exact whole

theorem sentence_inside {a b : List UInt8} (suffix : a <:+ b) (head : a.head? = some dollar)
    (single : dollar ∉ b.tail) : a = b := by
  obtain ⟨before, rfl⟩ := suffix
  cases before with
  | nil => rfl
  | cons first before =>
    have member : dollar ∈ a := List.mem_of_head? head
    exact absurd (by simp [member]) single

theorem sentence_unique {a b : List UInt8} (first : RmcSentence bytes a)
    (consecutive : b <:+ bytes) (head : b.head? = some dollar) (single : dollar ∉ b.tail) :
    a = b := by
  rcases List.suffix_or_suffix_of_suffix first.consecutive consecutive with shorter | longer
  · exact sentence_inside shorter first.dollar single
  · exact (sentence_inside longer head first.single).symm

theorem deliver_gps (s : St) {a : Nat} (inside : a < gpsBufferLength) :
    (deliver s).mem a = if a < s.point1 then s.mem (usart2RxBuf + a) else 0 := by
  have places : gpsBuffer = 0 ∧ gpsBufferLength = 80 ∧ isGetData = 80 ∧ usart2RxBuf = 136 :=
    ⟨rfl, rfl, rfl, rfl⟩
  simp only [deliver]
  rw [store_outside _ _ _ _ (.inl (by omega)), Function.update_of_ne (by omega)]
  split
  · rename_i copied
    have source := store_inside (store s.mem gpsBuffer (fun _ => 0) gpsBufferLength) gpsBuffer
      (shift (store s.mem gpsBuffer (fun _ => 0) gpsBufferLength) usart2RxBuf) s.point1 copied
    rw [places.1, Nat.zero_add] at source
    rw [places.1, source, shift_apply, store_outside _ _ _ _ (.inr (by omega))]
  · rename_i behind
    have zero := store_inside s.mem gpsBuffer (fun _ => 0) gpsBufferLength inside
    rw [places.1, Nat.zero_add] at zero
    rw [places.1, store_outside _ _ _ _ (.inr (by omega)), zero]

theorem holds_deliver {s : St} {text : List UInt8} (size : s.point1 = text.length)
    (fits : text.length ≤ gpsBufferLength)
    (kept : ∀ i < text.length, text[i]? = some (s.mem (usart2RxBuf + i))) :
    Holds (deliver s).mem text := by
  refine ⟨fits, List.ext_getElem? (fun i => ?_)⟩
  by_cases inside : i < gpsBufferLength
  · rw [slice_getElem? _ _ _ _ inside, gpsBuffer, Nat.zero_add, deliver_gps s inside, size]
    split
    · rename_i copied
      rw [List.getElem?_append_left copied, kept i copied]
    · rename_i behind
      rw [List.getElem?_append_right (by omega), List.getElem?_replicate, if_pos (by omega)]
  · rw [List.getElem?_eq_none (by simpa using inside), List.getElem?_eq_none]
    rw [List.length_append, List.length_replicate]
    omega

/-- A delivery hands over one sentence of the stream just when the newline comes behind the
marks and not too late. -/
theorem delivers_sentence (gathered : Gathered bytes current s)
    (now : marked (rxStore newline s).mem = true) :
    (∃ sentence, RmcSentence (bytes ++ [newline]) sentence ∧
      Holds (deliver (rxStore newline s)).mem sentence) ↔
        4 ≤ s.point1 ∧ s.point1 + 1 ≤ gpsBufferLength := by
  have sizes : gpsBufferLength = 80 ∧ usart2RecLen = 200 := ⟨rfl, rfl⟩
  have point1 := gathered.point1
  have count : (rxStore newline s).point1 = s.point1 + 1 := Nat.mod_eq_of_lt (by omega)
  obtain ⟨marks, first, fifth, sixth⟩ := (marked_newline s).mp now
  simp only [marked, Bool.and_eq_true, decide_eq_true_eq] at marks
  obtain ⟨⟨atZero, atFour⟩, atFive⟩ := marks
  have consecutive : current ++ [newline] <:+ bytes ++ [newline] :=
    suffix_byte gathered.consecutive newline
  have dollar : (current ++ [newline]).head? = some dollar := by
    rw [List.head?_append, List.head?_eq_getElem?, gathered.kept 0 (by omega), Nat.add_zero, atZero]
    rfl
  have single : Commit.dollar ∉ (current ++ [newline]).tail :=
    (gathered_byte gathered (by decide)).single
  constructor
  · rintro ⟨sentence, rmc, held⟩
    obtain rfl := sentence_unique rmc consecutive dollar single
    have fits := held.1
    have reaches : 4 < (current ++ [newline]).length :=
      (List.getElem?_eq_some_iff.mp rmc.typeM).1
    rw [List.length_append, List.length_singleton] at fits reaches
    omega
  · rintro ⟨behind, fits⟩
    have whole : s.point1 = current.length := by omega
    have letter : ∀ i < s.point1, (current ++ [newline])[i]? = some (s.mem (usart2RxBuf + i)) := by
      intro i before
      rw [List.getElem?_append_left (by omega)]
      exact gathered.kept i before
    refine ⟨current ++ [newline], ⟨consecutive, dollar, by simp, single, ?_, ?_⟩,
      holds_deliver ?_ ?_ (fun i inside => ?_)⟩
    · rw [letter 4 (by omega), atFour]
    · rw [letter 5 (by omega), atFive]
    · rw [count, whole, List.length_append, List.length_singleton]
    · rw [List.length_append, List.length_singleton]
      omega
    · rw [List.length_append, List.length_singleton] at inside
      show _ = some (Function.update s.mem (usart2RxBuf + s.point1) newline (usart2RxBuf + i))
      rcases Nat.lt_succ_iff_lt_or_eq.mp inside with before | last
      · rw [Function.update_of_ne (by omega)]
        exact letter i (by omega)
      · rw [last, ← whole, Function.update_self, whole, List.getElem?_concat_length]

theorem step_sentence (gathered : Gathered bytes current s) (irq : Irq) :
    (.getData ∈ writes irq s → ∃ sentence, RmcSentence (bytes ++ irq.dr.toList) sentence ∧
      Holds (step irq s).mem sentence) ↔ Whole irq s := by
  obtain ⟨others, dr⟩ := irq
  have gathered := gathered_meanwhile gathered others
  cases dr with
  | none => simp [writes, usart2IrqHandler, Whole]
  | some res =>
    show (.getData ∈ (receive res (s.meanwhile others)).1 → ∃ sentence,
      RmcSentence (bytes ++ [res]) sentence ∧ Holds (receive res (s.meanwhile others)).2.mem sentence) ↔
        (some res = some newline → marked s.mem = true →
          4 ≤ s.point1 ∧ s.point1 + 1 ≤ gpsBufferLength)
    have other : dollar ≠ newline := by decide
    obtain ⟨rfl, eq⟩ | ⟨rfl, now, eq⟩ | ⟨-, quiet, eq⟩ := receive_cases res (s.meanwhile others)
    · rw [eq]
      simp [other]
    · have marks := ((marked_newline _).mp now).1
      rw [marked_meanwhile] at marks
      rw [eq]
      simpa [marks] using delivers_sentence gathered now
    · rw [eq]
      refine iff_of_true (by simp) (fun same marks => ?_)
      rw [← marked_meanwhile others s] at marks
      have place : s.point1 = 0 ∨ s.point1 = 4 ∨ s.point1 = 5 := by
        by_contra none
        exact quiet ⟨Option.some.inj same, (marked_newline _).mpr ⟨marks, by
          rw [meanwhile_point1]
          omega⟩⟩
      have started : s.point1 ≠ 0 := by
        intro none
        have point1 := gathered.point1
        rw [meanwhile_point1, none, usart2RecLen] at point1
        refine gathered.fresh (List.eq_nil_of_length_eq_zero (by omega)) ?_
        simp only [marked, Bool.and_eq_true, decide_eq_true_eq] at marks
        exact marks.1.1
      have room : gpsBufferLength = 80 := rfl
      omega

/-- Whenever the handler sets `isGetData` in a run, `GPS_Buffer` holds one sentence of the
stream, just when every newline that finds the marks comes behind them and not too late. -/
theorem receive_sentences (irqs : List Irq) :
    (∀ pre irq, pre ++ [irq] <+: irqs → .getData ∈ writes irq (run step pre start) →
      ∃ sentence, RmcSentence (stream (pre ++ [irq])) sentence ∧
        Holds (run step (pre ++ [irq]) start).mem sentence) ↔ Along step Whole irqs start := by
  rw [along_iff]
  refine forall₃_congr (fun pre irq _ => ?_)
  obtain ⟨current, gathered⟩ := gathered_run gathered_start pre
  have last : stream (pre ++ [irq]) = stream pre ++ irq.dr.toList := by
    cases dr : irq.dr <;> simp [stream, dr]
  rw [last, run_append]
  exact step_sentence gathered irq

/-- `$abcMC` is cut off by the next sentence, whose newline comes at once. -/
def cutOff : List Irq := arrive [dollar, 0x61, 0x62, 0x63, letterM, letterC, dollar]

/-- What is handed over then is `$` and a newline, with no fifth byte. -/
theorem receive_leftovers : ¬ ∀ irqs irq, .getData ∈ writes irq (run step irqs start) →
    ∃ sentence, RmcSentence (stream (irqs ++ [irq])) sentence ∧
      Holds (run step (irqs ++ [irq]) start).mem sentence := by
  intro all
  obtain ⟨sentence, rmc, held⟩ := all cutOff ⟨fun _ => 0, some newline⟩ (by decide +kernel)
  have fifth : (slice (run step (cutOff ++ [⟨fun _ => 0, some newline⟩]) start).mem gpsBuffer
      gpsBufferLength)[4]? = some 0 := by decide +kernel
  rw [held.2, List.getElem?_append_left (List.getElem?_eq_some_iff.mp rmc.typeM).1, rmc.typeM] at fifth
  exact absurd (Option.some.inj fifth) (by decide)

end Sentences

end BoxFirmware.Commit
