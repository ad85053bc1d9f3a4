import BoxFirmware.ByteMem
import BoxFirmware.GuardedRun
import BoxFirmware.OsMbox
import Mathlib.Data.Nat.Bitwise

/-! The framed receivers of `usart.c` and `usart2.c`. One status word holds the flag of
a complete frame in bit 15, that of a 0x0D in bit 14 and the count of stored bytes below.
An interrupt is the byte in the data register, or none when it is not a receive
interrupt. A handler also says what it did with the byte. -/
namespace BoxFirmware.Usart
open ByteMem GuardedRun OsMbox

def usartRecLen : UInt16 := 200
def usart3RecLen : UInt16 := 1024

structure Rx where
  sta : UInt16
  buf : Mem

/-- What a handler does with a byte; `restarted` is its own reset on an error. -/
inductive Act
  | ignored
  | restarted
  | completed
  | returned
  | stored
  deriving DecidableEq

def Rx.len (rx : Rx) : Nat := (rx.sta &&& 0x3FFF).toNat

def storeByte (recLen : UInt16) (res : UInt8) (rx : Rx) : Act × Rx :=
  let rx : Rx := ⟨rx.sta + 1, Function.update rx.buf rx.len res⟩
  if rx.sta > recLen - 1 then (.restarted, { rx with sta := 0 }) else (.stored, rx)

def receive (recLen : UInt16) (res : UInt8) (rx : Rx) : Act × Rx :=
  if rx.sta &&& 0x8000 = 0 then
    if rx.sta &&& 0x4000 ≠ 0 then
      if res ≠ 0x0a then (.restarted, { rx with sta := 0 })
      else (.completed, { rx with sta := rx.sta ||| 0x8000 })
    else if res = 0x0d then (.returned, { rx with sta := rx.sta ||| 0x4000 })
    else storeByte recLen res rx
  else (.ignored, rx)

def usart1IrqHandler (dr : Option UInt8) (rx : Rx) : Act × Rx :=
  match dr with
  | none => (.ignored, rx)
  | some res => receive usartRecLen res rx

/-- The receiver and `box_msg_ptr`, whose only message is `USART3_RX_BUF`. -/
structure Usart3 where
  rx : Rx
  boxMsg : OsEvent Unit

def usart3IrqHandler (dr : Option UInt8) (s : Usart3) : Act × Usart3 :=
  match dr with
  | none => (.ignored, s)
  | some res =>
    if s.rx.sta &&& 0x8000 = 0 then
      if s.rx.sta &&& 0x4000 ≠ 0 then
        if res ≠ 0x0a then (.restarted, { s with rx := { s.rx with sta := 0 } })
        else
          let s := { s with boxMsg := (osMboxPost s.boxMsg ()).2 }
          (.completed, { s with rx := { s.rx with sta := s.rx.sta ||| 0x8000 } })
      else if res = 0x0d then
        (.returned, { s with rx := { s.rx with sta := s.rx.sta ||| 0x4000 } })
      else
        let r := storeByte usart3RecLen res s.rx
        (r.1, { s with rx := r.2 })
    else (.ignored, s)

theorem usart3IrqHandler_some (res : UInt8) (s : Usart3) :
    usart3IrqHandler (some res) s =
      ((receive usart3RecLen res s.rx).1,
        ⟨(receive usart3RecLen res s.rx).2,
          if (receive usart3RecLen res s.rx).1 = .completed then (osMboxPost s.boxMsg ()).2
          else s.boxMsg⟩) := by
  have restart : (storeByte usart3RecLen res s.rx).1 ≠ .completed := by
    simp only [storeByte]
    split <;> simp
  simp only [usart3IrqHandler, receive]
  split_ifs <;> simp_all

section StatusWord

theorem bit15_clear (sta : UInt16) : sta &&& 0x8000 = 0 ↔ sta.toNat < 2^15 := by
  rw [← UInt16.toNat_inj, UInt16.toNat_and, show (0x8000 : UInt16).toNat = 2^15 from rfl,
    Nat.and_two_pow, show (0 : UInt16).toNat = 0 from rfl, Nat.testBit_eq_decide_div_mod_eq]
  have word := sta.toNat_lt
  by_cases high : sta.toNat / 2^15 % 2 = 1
  · simp
    omega
  · simp
    omega

theorem bit14_clear (sta : UInt16) : sta &&& 0x4000 = 0 ↔ sta.toNat / 2^14 % 2 = 0 := by
  rw [← UInt16.toNat_inj, UInt16.toNat_and, show (0x4000 : UInt16).toNat = 2^14 from rfl,
    Nat.and_two_pow, show (0 : UInt16).toNat = 0 from rfl, Nat.testBit_eq_decide_div_mod_eq]
  simp

theorem Rx.len_eq (rx : Rx) : rx.len = rx.sta.toNat % 2^14 := by
  rw [Rx.len, UInt16.toNat_and, show (0x3FFF : UInt16).toNat = 2^14 - 1 from rfl,
    Nat.and_two_pow_sub_one_eq_mod]

theorem set_bit14 {sta : UInt16} (clear : sta.toNat < 2^14) :
    (sta ||| 0x4000).toNat = 2^14 + sta.toNat := by
  have sum := Nat.two_pow_add_eq_or_of_lt clear 1
  rw [UInt16.toNat_or, show (0x4000 : UInt16).toNat = 2^14 * 1 from rfl, Nat.or_comm, ← sum,
    Nat.mul_one]

theorem set_bit15 {sta : UInt16} (clear : sta.toNat < 2^15) :
    (sta ||| 0x8000).toNat = 2^15 + sta.toNat := by
  have sum := Nat.two_pow_add_eq_or_of_lt clear 1
  rw [UInt16.toNat_or, show (0x8000 : UInt16).toNat = 2^15 * 1 from rfl, Nat.or_comm, ← sum,
    Nat.mul_one]

end StatusWord

/-- How far a frame has come: its bytes, and what of the pair behind them is there. -/
inductive Progress
  | gathering (data : List UInt8)
  | returned (data : List UInt8)
  | complete (data : List UInt8)
  deriving DecidableEq

def Progress.data : Progress → List UInt8
  | .gathering data => data
  | .returned data => data
  | .complete data => data

/-- What a receiver with room for `recLen` bytes is for. -/
def Progress.next (recLen : Nat) (res : UInt8) : Progress → Act × Progress
  | .gathering data =>
    if res = 0x0d then (.returned, .returned data)
    else if data.length + 1 < recLen then (.stored, .gathering (data ++ [res]))
    else (.restarted, .gathering [])
  | .returned data =>
    if res = 0x0a then (.completed, .complete data) else (.restarted, .gathering [])
  | .complete data => (.ignored, .complete data)

def Progress.flags : Progress → Nat
  | .gathering _ => 0
  | .returned _ => 2^14
  | .complete _ => 2^15 + 2^14

structure Shows (recLen : Nat) (p : Progress) (rx : Rx) : Prop where
  sta : rx.sta.toNat = p.flags + p.data.length
  room : p.data.length < recLen
  stored : slice rx.buf 0 p.data.length = p.data

theorem shows_reset {recLen : Nat} (pos : 0 < recLen) (buf : Mem) :
    Shows recLen (.gathering []) ⟨0, buf⟩ := ⟨rfl, pos, rfl⟩

section Refinement

variable {recLen : UInt16} {p : Progress} {rx : Rx}

theorem Shows.len (shows : Shows recLen.toNat p rx) (word : recLen.toNat ≤ 2^14) :
    rx.len = p.data.length := by
  have room := shows.room
  rw [Rx.len_eq, shows.sta]
  cases p <;> simp only [Progress.flags] <;> omega

theorem shows_storeByte {data : List UInt8} (word : recLen.toNat ≤ 2^14)
    (shows : Shows recLen.toNat (.gathering data) rx) (res : UInt8) :
    storeByte recLen res rx =
      if data.length + 1 < recLen.toNat then
        (.stored, ⟨rx.sta + 1, Function.update rx.buf data.length res⟩)
      else (.restarted, ⟨0, Function.update rx.buf data.length res⟩) := by
  have room := shows.room
  have sta := shows.sta
  have len := shows.len word
  simp only [Progress.flags, Progress.data] at room sta len
  have next : (rx.sta + 1).toNat = data.length + 1 := by
    rw [UInt16.toNat_add, sta]
    simp
    omega
  have last : (recLen - 1).toNat = recLen.toNat - 1 := by
    rw [UInt16.toNat_sub_of_le _ _ (by rw [UInt16.le_iff_toNat_le]; simp; omega)]
    rfl
  have full : rx.sta + 1 > recLen - 1 ↔ ¬ data.length + 1 < recLen.toNat := by
    rw [gt_iff_lt, UInt16.lt_iff_toNat_lt, next, last]
    omega
  simp only [storeByte, len, full]
  split_ifs <;> rfl

theorem slice_update_concat (buf : Mem) (data : List UInt8) (res : UInt8)
    (stored : slice buf 0 data.length = data) :
    slice (Function.update buf data.length res) 0 (data ++ [res]).length = data ++ [res] := by
  have last := slice_update_last buf 0 data.length res
  rw [Nat.zero_add, stored] at last
  rw [List.length_append, List.length_singleton]
  exact last

theorem receive_gathering {data : List UInt8} (word : recLen.toNat ≤ 2^14)
    (shows : Shows recLen.toNat (.gathering data) rx) (res : UInt8) :
    receive recLen res rx = if res = 0x0d then (.returned, { rx with sta := rx.sta ||| 0x4000 })
      else storeByte recLen res rx := by
  have room := shows.room
  have sta := shows.sta
  simp only [Progress.flags, Progress.data] at room sta
  have bit15 := (bit15_clear rx.sta).mpr (by omega)
  have bit14 := (bit14_clear rx.sta).mpr (by omega)
  rw [receive, if_pos bit15, if_neg (not_not.mpr bit14)]

theorem receive_returned {data : List UInt8} (word : recLen.toNat ≤ 2^14)
    (shows : Shows recLen.toNat (.returned data) rx) (res : UInt8) :
    receive recLen res rx = if res = 0x0a then (.completed, { rx with sta := rx.sta ||| 0x8000 })
      else (.restarted, { rx with sta := 0 }) := by
  have room := shows.room
  have sta := shows.sta
  simp only [Progress.flags, Progress.data] at room sta
  have bit15 := (bit15_clear rx.sta).mpr (by omega)
  have bit14 : ¬ rx.sta &&& 0x4000 = 0 := by
    rw [bit14_clear]
    omega
  rw [receive, if_pos bit15, if_pos bit14]
  by_cases lf : res = 0x0a
  · rw [if_neg (not_not.mpr lf), if_pos lf]
  · rw [if_pos lf, if_neg lf]

theorem receive_complete {data : List UInt8} (shows : Shows recLen.toNat (.complete data) rx)
    (res : UInt8) : receive recLen res rx = (.ignored, rx) := by
  have sta := shows.sta
  simp only [Progress.flags, Progress.data] at sta
  have bit15 : ¬ rx.sta &&& 0x8000 = 0 := by
    rw [bit15_clear]
    omega
  rw [receive, if_neg bit15]

/-- The code is a receiver of that kind. -/
theorem receive_shows (word : recLen.toNat ≤ 2^14) (shows : Shows recLen.toNat p rx)
    (res : UInt8) : (receive recLen res rx).1 = (p.next recLen.toNat res).1 ∧
      Shows recLen.toNat (p.next recLen.toNat res).2 (receive recLen res rx).2 := by
  have room := shows.room
  have sta := shows.sta
  have stored := shows.stored
  cases p with
  | gathering data =>
    simp only [Progress.flags, Progress.data] at sta room stored
    rw [receive_gathering word shows, Progress.next]
    by_cases cr : res = 0x0d
    · rw [if_pos cr, if_pos cr]
      exact ⟨rfl, by rw [set_bit14 (by omega), sta]; simp [Progress.flags, Progress.data], room,
        stored⟩
    · rw [if_neg cr, if_neg cr, shows_storeByte word shows]
      by_cases more : data.length + 1 < recLen.toNat
      · rw [if_pos more, if_pos more]
        refine ⟨rfl, ?_, by simpa [Progress.data] using more, slice_update_concat _ _ _ stored⟩
        dsimp only
        rw [UInt16.toNat_add, sta]
        simp [Progress.flags, Progress.data]
        omega
      · rw [if_neg more, if_neg more]
        exact ⟨rfl, shows_reset (by omega) _⟩
  | returned data =>
    simp only [Progress.flags, Progress.data] at sta room stored
    rw [receive_returned word shows, Progress.next]
    by_cases lf : res = 0x0a
    · rw [if_pos lf, if_pos lf]
      refine ⟨rfl, ?_, room, stored⟩
      dsimp only
      rw [set_bit15 (by omega), sta]
      simp only [Progress.flags, Progress.data]
      omega
    · rw [if_neg lf, if_neg lf]
      exact ⟨rfl, shows_reset (by omega) _⟩
  | complete data =>
    rw [receive_complete shows]
    exact ⟨rfl, shows⟩

end Refinement

section Stores

abbrev Stores (res : UInt8) (rx : Rx) : Prop :=
  rx.sta &&& 0x8000 = 0 ∧ rx.sta &&& 0x4000 = 0 ∧ res ≠ 0x0d

theorem receive_buf_of_not_stores {recLen : UInt16} {res : UInt8} {rx : Rx}
    (skips : ¬ Stores res rx) : (receive recLen res rx).2.buf = rx.buf := by
  unfold receive
  split
  · split
    · split <;> rfl
    · split
      · rfl
      · rename_i bit15 bit14 byte
        exact absurd ⟨bit15, not_not.mp bit14, byte⟩ skips
  · rfl

end Stores

section Framing

inductive Input (κ : Type)
  | irq (k : κ) (dr : Option UInt8)
  | reset

structure Traced where
  rx : Rx
  since : List UInt8

/-- The receiver's own resets count as well. -/
def received (dr : Option UInt8) (act : Act) (since : List UInt8) : List UInt8 :=
  if act = .restarted then [] else since ++ dr.toList

def traced {κ : Type} (handler : κ → Option UInt8 → Rx → Act × Rx) : Input κ → Traced → Traced
  | .irq k dr, t =>
    let r := handler k dr t.rx
    ⟨r.2, received dr r.1 t.since⟩
  | .reset, t => ⟨{ t.rx with sta := 0 }, []⟩

def usart1Rx (_ : Unit) (dr : Option UInt8) (rx : Rx) : Act × Rx := usart1IrqHandler dr rx

/-- The second receiver meets its mailbox in any state. -/
def usart3Rx (boxMsg : OsEvent Unit) (dr : Option UInt8) (rx : Rx) : Act × Rx :=
  let r := usart3IrqHandler dr ⟨rx, boxMsg⟩
  (r.1, r.2.rx)

def Accounts (since : List UInt8) : Progress → Prop
  | .gathering data => since = data ∧ 0x0d ∉ data
  | .returned data => since = data ++ [0x0d] ∧ 0x0d ∉ data
  | .complete data => ∃ ignored, since = data ++ [0x0d, 0x0a] ++ ignored ∧ 0x0d ∉ data

theorem accounts_next {since : List UInt8} {p : Progress} (accounts : Accounts since p)
    (recLen : Nat) (res : UInt8) :
    Accounts (received (some res) (p.next recLen res).1 since) (p.next recLen res).2 := by
  cases p with
  | gathering data =>
    obtain ⟨rfl, clean⟩ := accounts
    rw [Progress.next]
    by_cases cr : res = 0x0d
    · rw [if_pos cr]
      exact ⟨by simp [received, cr], clean⟩
    · rw [if_neg cr]
      split
      · exact ⟨rfl, by simp [clean, Ne.symm cr]⟩
      · exact ⟨rfl, by simp⟩
  | returned data =>
    obtain ⟨rfl, clean⟩ := accounts
    rw [Progress.next]
    by_cases lf : res = 0x0a
    · rw [if_pos lf]
      exact ⟨[], by simp [received, lf], clean⟩
    · rw [if_neg lf]
      exact ⟨rfl, by simp⟩
  | complete data =>
    obtain ⟨ignored, rfl, clean⟩ := accounts
    exact ⟨ignored ++ [res], by simp [received, Progress.next], clean⟩

structure Framed {κ : Type} (recLen : Nat) (handler : κ → Option UInt8 → Rx → Act × Rx)
    (t : Traced) : Prop where
  index : t.rx.len < recLen
  frame : t.rx.sta &&& 0x8000 ≠ 0 → ∃ ignored,
    t.since = slice t.rx.buf 0 t.rx.len ++ [0x0d, 0x0a] ++ ignored ∧
      0x0d ∉ slice t.rx.buf 0 t.rx.len
  closed : t.rx.sta &&& 0x8000 ≠ 0 → ∀ k dr, (handler k dr t.rx).2 = t.rx

/-- The two handlers receive a byte as `receive` does. -/
def Receives {κ : Type} (recLen : UInt16) (handler : κ → Option UInt8 → Rx → Act × Rx) : Prop :=
  ∀ k rx, handler k none rx = (.ignored, rx) ∧
    ∀ res, handler k (some res) rx = receive recLen res rx

theorem usart1_receives : Receives usartRecLen usart1Rx :=
  fun _ _ => ⟨rfl, fun _ => rfl⟩

theorem usart3_receives : Receives usart3RecLen usart3Rx :=
  fun k rx => ⟨rfl, fun res => by rw [usart3Rx, usart3IrqHandler_some]⟩

variable {κ : Type} {recLen : UInt16} {handler : κ → Option UInt8 → Rx → Act × Rx}

def Coherent (recLen : Nat) (t : Traced) : Prop :=
  ∃ p, Shows recLen p t.rx ∧ Accounts t.since p

theorem coherent_step (pos : 0 < recLen.toNat) (word : recLen.toNat ≤ 2^14)
    (receives : Receives recLen handler) (i : Input κ) (t : Traced)
    (coherent : Coherent recLen.toNat t) : Coherent recLen.toNat (traced handler i t) := by
  cases i with
  | reset => exact ⟨.gathering [], shows_reset pos _, rfl, by simp⟩
  | irq k dr =>
    obtain ⟨p, shows, accounts⟩ := coherent
    cases dr with
    | none =>
      refine ⟨p, ?_, ?_⟩
      · simpa [traced, (receives k t.rx).1] using shows
      · simpa [traced, (receives k t.rx).1, received] using accounts
    | some res =>
      obtain ⟨act, next⟩ := receive_shows word shows res
      refine ⟨(p.next recLen.toNat res).2, ?_, ?_⟩
      · simpa only [traced, (receives k t.rx).2 res] using next
      · simp only [traced, (receives k t.rx).2 res, act]
        exact accounts_next accounts recLen.toNat res

theorem coherent_framed (word : recLen.toNat ≤ 2^14) (receives : Receives recLen handler)
    {t : Traced} (coherent : Coherent recLen.toNat t) : Framed recLen.toNat handler t := by
  obtain ⟨p, shows, accounts⟩ := coherent
  have len := shows.len word
  have complete : t.rx.sta &&& 0x8000 ≠ 0 → ∃ data, p = .complete data := by
    intro set
    have room := shows.room
    have sta := shows.sta
    rw [ne_eq, bit15_clear] at set
    cases p with
    | complete data => exact ⟨data, rfl⟩
    | _ => simp only [Progress.flags] at sta; omega
  refine ⟨by rw [len]; exact shows.room, ?_, ?_⟩
  · intro set
    obtain ⟨data, rfl⟩ := complete set
    rw [len, shows.stored]
    exact accounts
  · intro set k dr
    obtain ⟨data, rfl⟩ := complete set
    cases dr with
    | none => rw [(receives k t.rx).1]
    | some res => rw [(receives k t.rx).2, receive_complete shows]

theorem framed_run (pos : 0 < recLen.toNat) (word : recLen.toNat ≤ 2^14)
    (receives : Receives recLen handler) (inputs : List (Input κ)) (buf : Mem) :
    Framed recLen.toNat handler (run (traced handler) inputs ⟨⟨0, buf⟩, []⟩) := by
  have start : Coherent recLen.toNat ⟨⟨0, buf⟩, []⟩ :=
    ⟨.gathering [], shows_reset pos buf, rfl, by simp⟩
  have keep := run_invariant (fun i t _ => coherent_step pos word receives i t)
    (along_true (traced handler) inputs _) start
  exact coherent_framed word receives keep

/-- Both receivers keep their framing after every interrupt, whenever they are reset. -/
theorem usart_framed :
    (∀ inputs buf, Framed 200 usart1Rx (run (traced usart1Rx) inputs ⟨⟨0, buf⟩, []⟩)) ∧
    ∀ inputs buf, Framed 1024 usart3Rx (run (traced usart3Rx) inputs ⟨⟨0, buf⟩, []⟩) :=
  ⟨framed_run (by decide) (by decide) usart1_receives,
    framed_run (by decide) (by decide) usart3_receives⟩

end Framing

end BoxFirmware.Usart
