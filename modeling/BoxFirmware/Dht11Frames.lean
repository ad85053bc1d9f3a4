import BoxFirmware.Dht11Task

/-! Whose bytes the payloads of `dht11_task` carry. The task copies the text of a frame
out of `USART3_RX_BUF` while the receiver is already armed again, and wipes the buffer
afterwards. -/
namespace BoxFirmware.Dht11Task
open ByteMem CText GuardedRun OsMbox Usart

structure Spells (buf : Mem) (frame : List UInt8) : Prop where
  room : frame.length < usart3RecLen.toNat
  stored : slice buf 0 frame.length = frame
  closed : buf frame.length = 0
  text : 0 ∉ frame

theorem cstr_slice {m : Mem} {text : List UInt8} {n : Nat} (stored : slice m 0 text.length = text)
    (closed : m text.length = 0) (clean : 0 ∉ text) (room : text.length < n) :
    cstr (slice m 0 n) = text := by
  obtain ⟨k, rfl⟩ := Nat.exists_eq_add_of_lt room
  have split : slice m 0 (text.length + (k + 1)) = text ++ 0 :: slice m (text.length + 1) k := by
    rw [slice_add, stored, Nat.add_comm k 1, slice_add]
    simp [slice, closed]
  rw [Nat.add_assoc, split]
  refine cstr_append_zero _ _ (fun b member zero => clean ?_)
  rwa [zero] at member

section Spells

variable {buf : Mem} {frame : List UInt8}

theorem Spells.byte (spells : Spells buf frame) {i : Nat} (inside : i < frame.length) :
    frame[i]? = some (buf i) := by
  have entry := slice_getElem? buf 0 frame.length i inside
  rwa [spells.stored, Nat.zero_add] at entry

theorem Spells.more (spells : Spells buf frame) {i : Nat} (within : i ≤ frame.length)
    (byte : buf i ≠ 0) : i < frame.length ∧ frame.take i ++ [buf i] = frame.take (i + 1) := by
  have inside : i < frame.length := by
    refine Nat.lt_of_le_of_ne within (fun last => byte ?_)
    rw [last]
    exact spells.closed
  refine ⟨inside, ?_⟩
  rw [List.take_add_one, spells.byte inside]
  rfl

theorem Spells.ne_zero (spells : Spells buf frame) {i : Nat} (inside : i < frame.length) :
    buf i ≠ 0 := by
  intro zero
  have entry := spells.byte inside
  rw [zero] at entry
  exact spells.text (List.mem_of_getElem? entry)

theorem Spells.whole (spells : Spells buf frame) {i : Nat} (zero : buf i = 0) : frame.take i = frame := by
  refine List.take_of_length_le (Nat.le_of_not_lt (fun inside => ?_))
  exact spells.ne_zero inside zero

theorem Spells.cstr (spells : Spells buf frame) {n : Nat} (room : frame.length < n) :
    CText.cstr (slice buf 0 n) = frame :=
  cstr_slice spells.stored spells.closed spells.text room

end Spells

abbrev Taking (s : St) : Prop :=
  (s.pc = .pend ∧ s.boxMsg.osEventPtr = some ()) ∨
    (s.pc = .blocked ∧ s.boxMsg.pend = .woken (some ()))

/-- The first zero of the buffer is the one behind the frame. -/
abbrev Legible (rx : Rx) : Prop := 0 ∉ slice rx.buf 0 rx.len ∧ rx.buf rx.len = 0

/-- An event fits `_payload_out`. -/
abbrev EventFits (frame : List UInt8) : Prop :=
  strstr frame (ascii "event") = true → frame.length < payloadOutSize

/-- The places of the buffer that the task neither reads nor wipes any more. -/
def Pc.spare : Pc → Nat
  | .waitGps => 0
  | .test _ => 0
  | .head _ _ _ => 0
  | .chnls _ _ _ => 0
  | .tail _ _ _ => 0
  | .clear _ i => i
  | _ => usart3RecLen.toNat

/-- The call whose `if` the task has reached. -/
def Pc.tested : Pc → Option Form
  | .test form => some form
  | _ => none

/-- A payload that is begun fits `_payload_out`. -/
abbrev PayloadFits (clientId : Nat) (r : Readings) (s : St) : Prop :=
  ∀ form ∈ s.pc.tested, s.mode = form.mode →
    (payloadHead clientId form s.timeBuf r).length +
      (cstr (slice s.rx.buf 0 usart3RecLen.toNat)).length + 1 < payloadOutSize

/-- A byte is stored only where the task is done with the buffer, a frame that is taken
reaches up to the first zero, and its payload fits. -/
def FramesKept (clientId : Nat) : Label → St → Prop
  | .usart dr, s => ∀ res ∈ dr, Stores res s.rx → s.rx.len < s.pc.spare
  | .task r, s =>
    (Taking s → Legible s.rx ∧ EventFits (slice s.rx.buf 0 s.rx.len)) ∧ PayloadFits clientId r s
  | _, _ => True

instance (clientId : Nat) : (l : Label) → (s : St) → Decidable (FramesKept clientId l s)
  | .usart dr, s => inferInstanceAs (Decidable (∀ res ∈ dr, Stores res s.rx → s.rx.len < s.pc.spare))
  | .task r, s => inferInstanceAs (Decidable ((Taking s → Legible s.rx ∧
      EventFits (slice s.rx.buf 0 s.rx.len)) ∧ PayloadFits clientId r s))
  | .setMode _, _ => inferInstanceAs (Decidable True)
  | .poll _, _ => inferInstanceAs (Decidable True)
  | .tick, _ => inferInstanceAs (Decidable True)

def Pc.holds : Pc → Bool
  | .scan _ _ => true
  | .rearm => true
  | .copy _ => true
  | .rearmEvent => true
  | _ => false

def Mail (boxMsg : OsEvent Unit) (pc : Pc) (p : Progress) : Prop :=
  match boxMsg.pend with
  | .idle => boxMsg.osEventPtr ≠ none → (∃ d, p = .complete d) ∧ pc.holds = false
  | .waiting => pc = .blocked ∧ boxMsg.osEventPtr = none
  | .woken pmsg => pmsg = some () ∧ pc = .blocked ∧ boxMsg.osEventPtr = none ∧
      ∃ d, p = .complete d

structure Kept (frames : List (List UInt8)) (buf : Mem) (p : Progress) (frame : List UInt8) :
    Prop where
  known : frame ∈ frames
  spells : Spells buf frame
  empty : p.data = []

/-- `_payload_out` starts with these bytes. -/
def Starts (payloadOut : Mem) (bytes : List UInt8) : Prop :=
  slice payloadOut 0 bytes.length = bytes

def Place (buf : Mem) (frames : List (List UInt8)) (copied : Option (List UInt8))
    (payloadOut : Mem) (p : Progress) : Pc → Prop
  | .scan i text => ∃ f, p = .complete f ∧ Spells buf f ∧ EventFits f ∧ i ≤ f.length ∧
      text = f.take i
  | .rearm => ∃ f, p = .complete f ∧ Spells buf f
  | .waitGps => ∃ f, Kept frames buf p f
  | .test _ => ∃ f, Kept frames buf p f
  | .head _ k rest => ∃ f, Kept frames buf p f ∧ ∃ front, Starts payloadOut front ∧
      front.length = k ∧ 0 ∉ front ++ rest ∧ k + rest.length + f.length + 1 < payloadOutSize
  | .chnls _ k i => ∃ f, Kept frames buf p f ∧ i ≤ f.length ∧ copied = some (f.take i) ∧
      ∃ front, Starts payloadOut (front ++ f.take i) ∧ front.length + i = k ∧ 0 ∉ front ∧
        front.length + f.length + 1 < payloadOutSize
  | .tail _ k rest => ∃ f, Kept frames buf p f ∧ copied = some f ∧
      ∃ front written, Starts payloadOut written ∧ written.length = k ∧ 0 ∉ front ∧
        written ++ rest = front ++ f ++ (ascii "\x7d" ++ [0]) ∧
        front.length + f.length + 1 < payloadOutSize
  | .copy i => ∃ f, p = .complete f ∧ Spells buf f ∧ f.length < payloadOutSize ∧
      ∀ j < i, payloadOut j = buf j
  | .rearmEvent => ∃ f, p = .complete f
  | .clear _ i => p.data.length ≤ i
  | _ => True

def Pc.writing : Pc → Bool
  | .head _ _ _ => true
  | .chnls _ _ _ => true
  | .tail _ _ _ => true
  | .copy _ => true
  | _ => false

def Carries (frames : List (List UInt8)) (copied : Option (List UInt8)) (payload : List UInt8) :
    Prop := ∀ text ∈ copied, text ∈ frames ∧ text <:+: payload

/-- The invariant of guarded runs, where the receiver has come to `p`. -/
structure Sound (s : St) (p : Progress) : Prop where
  shows : Shows usart3RecLen.toNat p s.rx
  accounts : Accounts s.since p
  logged : ∀ d, p = .complete d → d ∈ s.frames
  mail : Mail s.boxMsg s.pc p
  place : Place s.rx.buf s.frames s.copied s.payloadOut p s.pc
  copied : s.pc.writing = false → Carries s.frames s.copied (payloadText s.payloadOut)
  posts : ∀ post ∈ s.posts, Carries s.frames post.copied post.text

theorem sound_start (buf : Mem) (mode : Nat) : Sound (start buf mode) (.gathering []) where
  shows := shows_reset (by decide) buf
  accounts := ⟨rfl, by simp⟩
  logged := by simp
  mail := by simp [Mail, start, osMboxCreate]
  place := trivial
  copied := by simp [start, Carries]
  posts := by simp [start]

theorem Kept.grow {frames frames' : List (List UInt8)} {buf : Mem} {p p' : Progress}
    {f : List UInt8} (kept : Kept frames buf p f) (grow : frames ⊆ frames')
    (data : p'.data.length ≤ p.data.length) : Kept frames' buf p' f := by
  refine ⟨grow kept.known, kept.spells, ?_⟩
  rw [kept.empty] at data
  exact List.eq_nil_of_length_eq_zero (Nat.le_zero.mp data)

theorem Starts.put {payloadOut : Mem} {bytes : List UInt8} (starts : Starts payloadOut bytes)
    (b : UInt8) : Starts (Function.update payloadOut bytes.length b) (bytes ++ [b]) :=
  slice_update_concat payloadOut bytes b starts

theorem Starts.text {payloadOut : Mem} {text : List UInt8} (starts : Starts payloadOut (text ++ [0]))
    (clean : 0 ∉ text) (room : text.length < payloadOutSize) : payloadText payloadOut = text := by
  unfold Starts at starts
  rw [List.length_append, List.length_singleton, slice_add] at starts
  obtain ⟨stored, closed⟩ := List.append_inj starts (by simp)
  rw [payloadText_eq]
  exact cstr_slice stored (by simpa [slice] using closed) clean room

theorem Carries.grow {frames frames' : List (List UInt8)} {copied : Option (List UInt8)}
    {payload : List UInt8} (carries : Carries frames copied payload) (grow : frames ⊆ frames') :
    Carries frames' copied payload :=
  fun text member => ⟨grow (carries text member).1, (carries text member).2⟩

theorem carries_concat {frames : List (List UInt8)} {posts : List Post}
    {copied : Option (List UInt8)} {text : List UInt8}
    (old : ∀ post ∈ posts, Carries frames post.copied post.text)
    (new : Carries frames copied text) :
    ∀ post ∈ posts ++ [⟨copied, text⟩], Carries frames post.copied post.text := by
  intro post member
  rw [List.mem_append, List.mem_singleton] at member
  rcases member with earlier | rfl
  · exact old post earlier
  · exact new

theorem payloadHead_clean (clientId : Nat) (form : Form) (timeBuf : List UInt8) (r : Readings) :
    0 ∉ payloadHead clientId form timeBuf r := by
  have texts : 0 ∉ ascii form.messageType ∧ 0 ∉ ascii form.workState := by
    cases form <;> decide +kernel
  have front : 0 ∉ ascii "\x7b\"messageType\":\"" ∧ 0 ∉ ascii "\",\"deviceNo\":" ∧
      0 ∉ ascii ",\"time\":\"" ∧ 0 ∉ ascii "\",\"CurrentTemperature\":" := by decide +kernel
  have back : 0 ∉ ascii ",\"RelativeHumidity\":" ∧ 0 ∉ ascii ",\"workState\":" ∧
      0 ∉ ascii ",\"chnls\":" := by decide +kernel
  simp only [payloadHead, List.mem_append, not_or]
  simp only [texts, front, back, zero_not_mem_cstr, zero_not_mem_formatInt, not_false_eq_true,
    and_self]

section Place

variable {buf payloadOut : Mem} {frames frames' : List (List UInt8)} {copied : Option (List UInt8)}
  {p p' : Progress} {pc : Pc}

/-- While a task holds a frame, the receiver is shut. -/
theorem Place.complete (place : Place buf frames copied payloadOut p pc) (holds : pc.holds = true) :
    ∃ d, p = .complete d := by
  cases pc with
  | scan | rearm | copy =>
    obtain ⟨f, complete, -⟩ := place
    exact ⟨f, complete⟩
  | rearmEvent => exact place
  | _ => cases holds

/-- A step of the receiver that leaves the buffer alone. -/
theorem Place.quiet (place : Place buf frames copied payloadOut p pc)
    (free : ∀ d, p ≠ .complete d) (grow : frames ⊆ frames')
    (data : p'.data.length ≤ p.data.length) : Place buf frames' copied payloadOut p' pc := by
  have shut : pc.holds = false := by
    cases holds : pc.holds with
    | false => rfl
    | true =>
      obtain ⟨d, complete⟩ := place.complete holds
      exact absurd complete (free d)
  cases pc with
  | scan | rearm | copy | rearmEvent => cases shut
  | waitGps | test =>
    obtain ⟨f, kept⟩ := place
    exact ⟨f, kept.grow grow data⟩
  | head | chnls | tail =>
    obtain ⟨f, kept, rest⟩ := place
    exact ⟨f, kept.grow grow data, rest⟩
  | clear delays i => exact Nat.le_trans data place
  | _ => trivial

end Place

theorem Mail.none {boxMsg : OsEvent Unit} {pc : Pc} {p : Progress} (mail : Mail boxMsg pc p)
    (free : ∀ d, p ≠ .complete d) :
    boxMsg.osEventPtr = none ∧ ∀ pmsg, boxMsg.pend ≠ .woken pmsg := by
  unfold Mail at mail
  split at mail
  · rename_i idle
    refine ⟨?_, by simp [idle]⟩
    by_contra message
    obtain ⟨⟨d, complete⟩, -⟩ := mail message
    exact free d complete
  · rename_i waiting
    exact ⟨mail.2, by simp [waiting]⟩
  · obtain ⟨-, -, -, d, complete⟩ := mail
    exact absurd complete (free d)

theorem Mail.keep {boxMsg : OsEvent Unit} {pc : Pc} {p : Progress} (mail : Mail boxMsg pc p)
    (free : ∀ d, p ≠ .complete d) (p' : Progress) : Mail boxMsg pc p' := by
  obtain ⟨ptr, wake⟩ := mail.none free
  unfold Mail at mail ⊢
  split at mail
  · exact fun message => absurd ptr message
  · exact mail
  · rename_i woken
    exact absurd woken (wake _)

theorem usartStep_some (res : UInt8) (s : St) : usartStep (some res) s =
    { s with
      rx := (receive usart3RecLen res s.rx).2
      boxMsg := if (receive usart3RecLen res s.rx).1 = .completed then (osMboxPost s.boxMsg ()).2
        else s.boxMsg
      since := received (some res) (receive usart3RecLen res s.rx).1 s.since
      frames := if (receive usart3RecLen res s.rx).1 = .completed then
        s.frames ++ [s.since.dropLast] else s.frames } := by
  rw [usartStep, usart3IrqHandler_some]

theorem usartStep_none (s : St) : usartStep none s = s := by
  simp [usartStep, usart3IrqHandler, received]

theorem sound_completed {s : St} {d : List UInt8} (sound : Sound s (.returned d)) :
    Sound (usartStep (some 0x0a) s) (.complete d) := by
  have word : usart3RecLen.toNat ≤ 2^14 := by decide
  obtain ⟨act, shows⟩ := receive_shows word sound.shows 0x0a
  have accounts := accounts_next sound.accounts usart3RecLen.toNat 0x0a
  have since : s.since.dropLast = d := by
    rw [sound.accounts.1, List.dropLast_concat]
  obtain ⟨ptr, wake⟩ := sound.mail.none (by simp)
  have shut : s.pc.holds = false := by
    cases holds : s.pc.holds with
    | false => rfl
    | true => obtain ⟨d', complete⟩ := sound.place.complete holds; cases complete
  have grow : s.frames ⊆ s.frames ++ [d] := List.subset_append_left _ _
  rw [usartStep_some, receive_returned word sound.shows, if_pos rfl, since]
  rw [receive_returned word sound.shows, if_pos rfl] at shows
  refine ⟨shows, accounts, by simp, ?_, ?_, fun idle => (sound.copied idle).grow grow,
    fun post member => (sound.posts post member).grow grow⟩
  · have mail := sound.mail
    unfold Mail at mail
    simp only [Mail, osMboxPost, if_true]
    split at mail
    · rename_i idle
      simp [idle, ptr, shut]
    · rename_i waiting
      simp [waiting, mail]
    · rename_i woken
      exact absurd woken (wake _)
  · exact sound.place.quiet (by simp) grow (Nat.le_refl _)

theorem sound_skipped {s : St} {p : Progress} (sound : Sound s p) (res : UInt8)
    (skips : ¬ Stores res s.rx) (free : ∀ d, p ≠ .complete d)
    (open_ : ∀ d, (p.next usart3RecLen.toNat res).2 ≠ .complete d)
    (data : (p.next usart3RecLen.toNat res).2.data.length ≤ p.data.length)
    (act : (p.next usart3RecLen.toNat res).1 ≠ .completed) :
    Sound (usartStep (some res) s) (p.next usart3RecLen.toNat res).2 := by
  obtain ⟨same, shows⟩ := receive_shows (by decide) sound.shows res
  have accounts := accounts_next sound.accounts usart3RecLen.toNat res
  have grow : s.frames ⊆ s.frames := List.Subset.refl _
  rw [usartStep_some, same, if_neg act, if_neg act]
  exact ⟨shows, accounts, fun d complete => absurd complete (open_ d),
    sound.mail.keep free _,
    receive_buf_of_not_stores skips ▸ sound.place.quiet free grow data,
    fun idle => (sound.copied idle).grow grow, sound.posts⟩

theorem sound_stored {s : St} {d : List UInt8} (sound : Sound s (.gathering d)) {res : UInt8}
    (byte : res ≠ 0x0d) (spare : s.rx.len < s.pc.spare) :
    Sound (usartStep (some res) s) ((Progress.gathering d).next usart3RecLen.toNat res).2 := by
  have word : usart3RecLen.toNat ≤ 2^14 := by decide
  obtain ⟨same, shows⟩ := receive_shows word sound.shows res
  have accounts := accounts_next sound.accounts usart3RecLen.toNat res
  have grow : s.frames ⊆ s.frames := List.Subset.refl _
  have act : ((Progress.gathering d).next usart3RecLen.toNat res).1 ≠ .completed := by
    rw [Progress.next, if_neg byte]
    split <;> simp
  have next : ∀ d', ((Progress.gathering d).next usart3RecLen.toNat res).2 ≠ .complete d' := by
    intro d'
    rw [Progress.next, if_neg byte]
    split <;> simp
  have data : ((Progress.gathering d).next usart3RecLen.toNat res).2.data.length ≤ d.length + 1 := by
    rw [Progress.next, if_neg byte]
    split <;> simp [Progress.data]
  rw [sound.shows.len word] at spare
  rw [usartStep_some, same, if_neg act, if_neg act]
  refine ⟨shows, accounts, fun d' complete => absurd complete (next d'),
    sound.mail.keep (by simp) _, ?_, fun idle => (sound.copied idle).grow grow, sound.posts⟩
  have place := sound.place
  cases pc : s.pc with
  | waitGps | test | head | chnls | tail => simp [pc, Pc.spare] at spare
  | scan | rearm | copy | rearmEvent =>
    rw [pc] at place
    obtain ⟨d', complete⟩ := place.complete rfl
    cases complete
  | clear delays i =>
    rw [pc] at spare
    exact Nat.le_trans data spare
  | _ => trivial

theorem sound_usart {s : St} {p : Progress} (sound : Sound s p) (dr : Option UInt8)
    (spare : ∀ res ∈ dr, Stores res s.rx → s.rx.len < s.pc.spare) :
    ∃ p', Sound (usartStep dr s) p' := by
  cases dr with
  | none => exact ⟨p, by rwa [usartStep_none]⟩
  | some res =>
    have room := sound.shows.room
    have sta := sound.shows.sta
    cases p with
    | complete d =>
      refine ⟨.complete d, ?_⟩
      have accounts := accounts_next sound.accounts usart3RecLen.toNat res
      rw [usartStep_some, receive_complete sound.shows]
      exact ⟨sound.shows, accounts, sound.logged, sound.mail, sound.place, sound.copied,
        sound.posts⟩
    | returned d =>
      simp only [Progress.flags, Progress.data] at sta
      by_cases lf : res = 0x0a
      · subst lf
        exact ⟨.complete d, sound_completed sound⟩
      · have skips : ¬ Stores res s.rx := by
          rintro ⟨-, bit14, -⟩
          rw [bit14_clear] at bit14
          have small : d.length < 2^14 := by
            have bound : usart3RecLen.toNat = 1024 := rfl
            simp only [Progress.data] at room
            omega
          omega
        refine ⟨_, sound_skipped sound res skips ?_ ?_ ?_ ?_⟩ <;> simp [Progress.next, lf, Progress.data]
    | gathering d =>
      by_cases cr : res = 0x0d
      · refine ⟨_, sound_skipped sound res ?_ ?_ ?_ ?_ ?_⟩ <;>
          simp [Stores, Progress.next, cr, Progress.data]
      · have stores : Stores res s.rx := by
          simp only [Progress.flags, Progress.data] at sta room
          have bound : usart3RecLen.toNat = 1024 := rfl
          refine ⟨(bit15_clear _).mpr (by omega), (bit14_clear _).mpr (by omega), cr⟩
        exact ⟨_, sound_stored sound cr (spare res rfl stores)⟩

section TaskSteps

variable {s : St} {p : Progress}

theorem Sound.legible (sound : Sound s p) {d : List UInt8} (complete : p = .complete d)
    (legible : Legible s.rx) (fits : EventFits (slice s.rx.buf 0 s.rx.len)) :
    Spells s.rx.buf d ∧ EventFits d := by
  have len := sound.shows.len (by decide)
  have stored := sound.shows.stored
  have room := sound.shows.room
  rw [complete] at len stored room
  obtain ⟨text, zero⟩ := legible
  rw [len, stored] at text fits
  rw [len] at zero
  exact ⟨⟨room, stored, zero, text⟩, fits⟩

theorem sound_pend (sound : Sound s p) (pc : s.pc = .pend)
    (readable : s.boxMsg.osEventPtr = some () → Legible s.rx ∧ EventFits (slice s.rx.buf 0 s.rx.len)) :
    Sound (pendStep s) p := by
  have mail := sound.mail
  unfold Mail at mail
  split at mail
  · rename_i idle
    cases message : s.boxMsg.osEventPtr with
    | none =>
      simp only [pendStep, osMboxPend, message]
      exact ⟨sound.shows, sound.accounts, sound.logged, ⟨rfl, rfl⟩, trivial,
        fun _ => sound.copied (by rw [pc]; rfl), sound.posts⟩
    | some pmsg =>
      obtain ⟨⟨d, complete⟩, -⟩ := mail (by simp [message])
      obtain ⟨legible, fits⟩ := readable message
      obtain ⟨spells, small⟩ := sound.legible complete legible fits
      simp only [pendStep, osMboxPend, message]
      exact ⟨sound.shows, sound.accounts, sound.logged, by simp [Mail, idle],
        ⟨d, complete, spells, small, Nat.zero_le _, rfl⟩,
        fun _ => sound.copied (by rw [pc]; rfl), sound.posts⟩
  · rw [pc] at mail
    cases mail.1
  · rw [pc] at mail
    cases mail.2.1

theorem sound_blocked (sound : Sound s p) (pc : s.pc = .blocked)
    (readable : s.boxMsg.pend = .woken (some ()) →
      Legible s.rx ∧ EventFits (slice s.rx.buf 0 s.rx.len)) : Sound (blockedStep s) p := by
  unfold blockedStep
  split
  · rename_i woken
    have mail := sound.mail
    simp only [Mail, woken] at mail
    obtain ⟨-, -, ptr, d, complete⟩ := mail
    obtain ⟨legible, fits⟩ := readable woken
    obtain ⟨spells, small⟩ := sound.legible complete legible fits
    exact ⟨sound.shows, sound.accounts, sound.logged, by simp [Mail, ptr],
      ⟨d, complete, spells, small, Nat.zero_le _, rfl⟩,
      fun _ => sound.copied (by rw [pc]; rfl), sound.posts⟩
  · exact sound

theorem Sound.taken (sound : Sound s p) (holds : s.pc.holds = true) (pc' : Pc) (p' : Progress) :
    Mail s.boxMsg pc' p' := by
  have mail := sound.mail
  unfold Mail at mail ⊢
  split at mail
  · exact fun message => by simp [(mail message).2] at holds
  · rw [mail.1] at holds
    cases holds
  · rw [mail.2.1] at holds
    cases holds

theorem sound_scan (sound : Sound s p) {i : Nat} {text : List UInt8} (pc : s.pc = .scan i text) :
    Sound (scanStep i text s) p := by
  have place := sound.place
  rw [pc] at place
  obtain ⟨f, complete, spells, fits, inside, taken⟩ := place
  have copied := sound.copied (by rw [pc]; rfl)
  have mail := sound.taken (by rw [pc]; rfl)
  unfold scanStep
  split
  · rename_i byte
    obtain ⟨more, longer⟩ := spells.more inside byte
    exact ⟨sound.shows, sound.accounts, sound.logged, mail _ p,
      ⟨f, complete, spells, fits, more, by rw [taken, longer]⟩,
      fun _ => copied, sound.posts⟩
  · rename_i zero
    have all : text = f := taken.trans (spells.whole (not_not.mp zero))
    by_cases event : strstr text (ascii "event") = true
    · rw [if_pos event]
      exact ⟨sound.shows, sound.accounts, sound.logged, mail _ p,
        ⟨f, complete, spells, fits (all ▸ event), by simp⟩, fun _ => copied, sound.posts⟩
    · rw [if_neg event]
      exact ⟨sound.shows, sound.accounts, sound.logged, mail _ p, ⟨f, complete, spells⟩,
        fun _ => copied, sound.posts⟩

theorem sound_rearm (sound : Sound s p) (pc : s.pc = .rearm) :
    Sound { resetSta s with pc := .waitGps } (.gathering []) := by
  have place := sound.place
  rw [pc] at place
  obtain ⟨f, complete, spells⟩ := place
  exact ⟨shows_reset (by decide) _, ⟨rfl, by simp⟩, by simp, sound.taken (by rw [pc]; rfl) _ _,
    ⟨f, sound.logged f complete, spells, rfl⟩, fun _ => sound.copied (by rw [pc]; rfl), sound.posts⟩

theorem sound_rearmEvent (sound : Sound s p) (pc : s.pc = .rearmEvent) :
    Sound { resetSta s with pc := .clear 1 0 } (.gathering []) :=
  ⟨shows_reset (by decide) _, ⟨rfl, by simp⟩, by simp, sound.taken (by rw [pc]; rfl) _ _,
    Nat.le_refl _, fun _ => sound.copied (by rw [pc]; rfl), sound.posts⟩

theorem Sound.stays (sound : Sound s p) (running : s.pc ≠ .blocked) (pc' : Pc)
    (shut : pc'.holds = s.pc.holds) : Mail s.boxMsg pc' p := by
  have mail := sound.mail
  unfold Mail at mail ⊢
  rw [shut]
  split at mail
  · exact mail
  · exact absurd mail.1 running
  · exact absurd mail.2.1 running

theorem sound_waitGps (sound : Sound s p) (pc : s.pc = .waitGps) (r : Readings) :
    Sound (waitGpsStep r s) p := by
  have place := sound.place
  rw [pc] at place
  unfold waitGpsStep
  split
  · exact sound
  · exact ⟨sound.shows, sound.accounts, sound.logged, sound.stays (by simp [pc]) _ (by rw [pc]; rfl),
      place, fun _ => sound.copied (by rw [pc]; rfl), sound.posts⟩

theorem Form.next_holds (form : Form) : form.next.holds = false := by
  cases form <;> rfl

theorem Form.next_place {buf payloadOut : Mem} {frames : List (List UInt8)}
    {copied : Option (List UInt8)} {f : List UInt8} (form : Form) (kept : Kept frames buf p f) :
    Place buf frames copied payloadOut p form.next := by
  cases form with
  | timing1 => exact ⟨f, kept⟩
  | timing0 => exact ⟨f, kept⟩
  | feedback =>
    show p.data.length ≤ 0
    rw [kept.empty]
    exact Nat.le_refl 0

theorem sound_test (sound : Sound s p) {form : Form} (pc : s.pc = .test form) (clientId : Nat)
    (r : Readings) (fits : PayloadFits clientId r s) : Sound (testStep clientId r form s) p := by
  have place := sound.place
  rw [pc] at place
  obtain ⟨f, kept⟩ := place
  have copied := sound.copied (by rw [pc]; rfl)
  unfold testStep
  split
  · rename_i mode
    have small := fits form (by rw [pc]; rfl) mode
    rw [kept.spells.cstr kept.spells.room] at small
    exact ⟨sound.shows, sound.accounts, sound.logged, sound.stays (by simp [pc]) _ (by rw [pc]; rfl),
      ⟨f, kept, [], rfl, rfl, payloadHead_clean clientId form s.timeBuf r, by omega⟩,
      by simp [Pc.writing], sound.posts⟩
  · exact ⟨sound.shows, sound.accounts, sound.logged,
      sound.stays (by simp [pc]) _ (by rw [pc]; exact form.next_holds), form.next_place kept,
      fun _ => copied, sound.posts⟩

theorem sound_head (sound : Sound s p) {form : Form} {k : Nat} {rest : List UInt8}
    (pc : s.pc = .head form k rest) : Sound (headStep form k rest s) p := by
  have place := sound.place
  rw [pc] at place
  obtain ⟨f, kept, front, starts, size, clean, small⟩ := place
  have mail := sound.stays (by simp [pc])
  rw [pc] at mail
  unfold headStep
  split
  · rename_i b rest
    have put := starts.put b
    rw [size] at put
    refine ⟨sound.shows, sound.accounts, sound.logged, mail _ rfl,
      ⟨f, kept, front ++ [b], put, by simp [size], by simpa using clean, ?_⟩, by simp [Pc.writing],
      sound.posts⟩
    rw [List.length_cons] at small
    omega
  · refine ⟨sound.shows, sound.accounts, sound.logged, mail _ rfl,
      ⟨f, kept, Nat.zero_le _, rfl, front, ?_, by simpa using size, by simpa using clean, ?_⟩,
      by simp [Pc.writing], sound.posts⟩
    · simpa using starts
    · rw [List.length_nil] at small
      omega

theorem sound_chnls (sound : Sound s p) {form : Form} {k i : Nat} (pc : s.pc = .chnls form k i) :
    Sound (chnlsStep form k i s) p := by
  have place := sound.place
  rw [pc] at place
  obtain ⟨f, kept, inside, copied, front, starts, size, clean, small⟩ := place
  have mail := sound.stays (by simp [pc])
  rw [pc] at mail
  unfold chnlsStep
  split
  · rename_i byte
    obtain ⟨more, longer⟩ := kept.spells.more inside byte
    have put := starts.put (s.rx.buf i)
    rw [List.append_assoc, longer, List.length_append, List.length_take, Nat.min_eq_left inside,
      size] at put
    exact ⟨sound.shows, sound.accounts, sound.logged, mail _ rfl,
      ⟨f, kept, more, by rw [copied, Option.getD_some, longer], front, put, by omega, clean, small⟩,
      by simp [Pc.writing], sound.posts⟩
  · rename_i zero
    have all := kept.spells.whole (not_not.mp zero)
    have last : i = f.length := by
      have length := congrArg List.length all
      rw [List.length_take, Nat.min_eq_left inside] at length
      exact length
    rw [all] at copied starts
    exact ⟨sound.shows, sound.accounts, sound.logged, mail _ rfl,
      ⟨f, kept, copied, front, front ++ f, starts, by rw [List.length_append]; omega, clean, rfl,
        small⟩, by simp [Pc.writing], sound.posts⟩

theorem sound_tail (sound : Sound s p) {form : Form} {k : Nat} {rest : List UInt8}
    (pc : s.pc = .tail form k rest) : Sound (tailStep form k rest s) p := by
  have place := sound.place
  rw [pc] at place
  obtain ⟨f, kept, copied, front, written, starts, size, clean, whole, small⟩ := place
  unfold tailStep
  split
  · rename_i b rest
    have put := starts.put b
    rw [size] at put
    exact ⟨sound.shows, sound.accounts, sound.logged, sound.stays (by simp [pc]) _ (by rw [pc]; rfl),
      ⟨f, kept, copied, front, written ++ [b], put, by simp [size], clean, by simpa using whole,
        small⟩, by simp [Pc.writing], sound.posts⟩
  · refine ⟨sound.shows, sound.accounts, sound.logged,
      sound.stays (by simp [pc]) _ (by rw [pc]; exact form.next_holds), form.next_place kept,
      fun _ text member => ?_, sound.posts⟩
    rw [copied] at member
    obtain rfl := Option.some.inj member
    rw [List.append_nil, ← List.append_assoc] at whole
    rw [whole] at starts
    have brace : 0 ∉ ascii "\x7d" := by decide
    have text := starts.text (by simp [clean, kept.spells.text, brace]) (by
      have one : (ascii "\x7d").length = 1 := by decide
      simp only [List.length_append, one]
      omega)
    rw [text]
    exact ⟨kept.known, front, ascii "\x7d", rfl⟩

theorem sound_copy (sound : Sound s p) {i : Nat} (pc : s.pc = .copy i) : Sound (copyStep i s) p := by
  have place := sound.place
  rw [pc] at place
  obtain ⟨f, complete, spells, short, same⟩ := place
  unfold copyStep
  split
  · refine ⟨sound.shows, sound.accounts, sound.logged, sound.taken (by rw [pc]; rfl) _ _,
      ⟨f, complete, spells, short, fun j before => ?_⟩, by simp [Pc.writing], sound.posts⟩
    by_cases last : j = i
    · rw [last]
      exact Function.update_self i _ _
    · exact (Function.update_of_ne last _ _).trans (same j (by omega))
  · rename_i beyond
    refine ⟨sound.shows, sound.accounts, sound.logged, sound.taken (by rw [pc]; rfl) _ _,
      ⟨f, complete⟩, fun _ text member => ?_, sound.posts⟩
    obtain rfl := Option.some.inj member
    have text : payloadText s.payloadOut = f := by
      rw [payloadText_eq, slice_congr (b := 0) (fun j inside => ?_), spells.cstr short]
      rw [Nat.zero_add]
      exact same j (by omega)
    rw [text]
    exact ⟨sound.logged f complete, List.infix_refl f⟩

theorem sound_clear (sound : Sound s p) {delays i : Nat} (pc : s.pc = .clear delays i) :
    Sound (clearStep delays i s) p := by
  have place := sound.place
  rw [pc] at place
  have copied := sound.copied (by rw [pc]; rfl)
  unfold clearStep
  split
  · refine ⟨⟨sound.shows.sta, sound.shows.room, ?_⟩, sound.accounts, sound.logged,
      sound.stays (by simp [pc]) _ (by rw [pc]; rfl), Nat.le_succ_of_le place, fun _ => copied,
      sound.posts⟩
    have kept := sound.shows.stored
    rw [← kept, slice_length]
    refine slice_congr (fun j inside => ?_)
    have below : p.data.length ≤ i := place
    exact Function.update_of_ne (by omega) _ _
  · exact ⟨sound.shows, sound.accounts, sound.logged, sound.stays (by simp [pc]) _ (by rw [pc]; rfl),
      trivial, fun _ => copied, sound.posts⟩

theorem sound_post (sound : Sound s p) {delays : Nat} (pc : s.pc = .post delays) :
    Sound (postStep delays s) p := by
  have copied := sound.copied (by rw [pc]; rfl)
  exact ⟨sound.shows, sound.accounts, sound.logged, sound.stays (by simp [pc]) _ (by rw [pc]; rfl),
    trivial, fun _ => copied, carries_concat sound.posts copied⟩

theorem sound_delay (sound : Sound s p) {delays : Nat} (pc : s.pc = .delay delays) :
    Sound (delayStep delays s) p := by
  have copied := sound.copied (by rw [pc]; rfl)
  unfold delayStep
  split <;>
    exact ⟨sound.shows, sound.accounts, sound.logged, sound.stays (by simp [pc]) _ (by rw [pc]; rfl),
      trivial, fun _ => copied, sound.posts⟩

end TaskSteps

theorem sound_poll {s : St} {p : Progress} (sound : Sound s p) (rc : Int) :
    Sound (pollStep rc s) p := by
  have same : (pollStep rc s).rx = s.rx ∧ (pollStep rc s).boxMsg = s.boxMsg ∧
      (pollStep rc s).pc = s.pc ∧ (pollStep rc s).payloadOut = s.payloadOut ∧
      (pollStep rc s).since = s.since ∧ (pollStep rc s).frames = s.frames ∧
      (pollStep rc s).copied = s.copied ∧ (pollStep rc s).posts = s.posts := by
    unfold pollStep
    split
    · exact ⟨rfl, rfl, rfl, rfl, rfl, rfl, rfl, rfl⟩
    all_goals split <;> exact ⟨rfl, rfl, rfl, rfl, rfl, rfl, rfl, rfl⟩
  obtain ⟨rx, boxMsg, pc, payloadOut, since, frames, copied, posts⟩ := same
  constructor <;> simp only [rx, boxMsg, pc, payloadOut, since, frames, copied, posts]
  · exact sound.shows
  · exact sound.accounts
  · exact sound.logged
  · exact sound.mail
  · exact sound.place
  · exact sound.copied
  · exact sound.posts

theorem sound_task {s : St} {p : Progress} (sound : Sound s p) (clientId : Nat) (r : Readings)
    (kept : FramesKept clientId (.task r) s) : ∃ p', Sound (dht11Task clientId r s) p' := by
  unfold dht11Task
  split
  · rename_i pc
    exact ⟨p, sound_pend sound pc (fun message => kept.1 (Or.inl ⟨pc, message⟩))⟩
  · rename_i pc
    exact ⟨p, sound_blocked sound pc (fun woken => kept.1 (Or.inr ⟨pc, woken⟩))⟩
  · rename_i pc
    exact ⟨p, sound_scan sound pc⟩
  · rename_i pc
    exact ⟨_, sound_rearm sound pc⟩
  · rename_i pc
    exact ⟨p, sound_waitGps sound pc r⟩
  · rename_i pc
    exact ⟨p, sound_test sound pc clientId r kept.2⟩
  · rename_i pc
    exact ⟨p, sound_head sound pc⟩
  · rename_i pc
    exact ⟨p, sound_chnls sound pc⟩
  · rename_i pc
    exact ⟨p, sound_tail sound pc⟩
  · rename_i pc
    exact ⟨p, sound_copy sound pc⟩
  · rename_i pc
    exact ⟨_, sound_rearmEvent sound pc⟩
  · rename_i pc
    exact ⟨p, sound_clear sound pc⟩
  · rename_i pc
    exact ⟨p, sound_post sound pc⟩
  · rename_i pc
    exact ⟨p, sound_delay sound pc⟩

theorem sound_step (clientId : Nat) (l : Label) (s : St) (kept : FramesKept clientId l s)
    (sound : ∃ p, Sound s p) : ∃ p, Sound (step clientId l s) p := by
  obtain ⟨p, sound⟩ := sound
  cases l with
  | usart dr => exact sound_usart sound dr kept
  | task r => exact sound_task sound clientId r kept
  | setMode value =>
    exact ⟨p, sound.shows, sound.accounts, sound.logged, sound.mail, sound.place, sound.copied,
      sound.posts⟩
  | poll rc => exact ⟨p, sound_poll sound rc⟩
  | tick =>
    exact ⟨p, sound.shows, sound.accounts, sound.logged, sound.mail, sound.place, sound.copied,
      sound.posts⟩

/-- The text in every payload is that of one complete frame, as long as the receiver does not
store where the task still has to read or to wipe, and the frames taken are readable. -/
theorem copied_is_frame (clientId : Nat) (buf : Mem) (mode : Nat) (labels : List Label)
    (kept : Along (step clientId) (FramesKept clientId) labels (start buf mode)) :
    ∀ post ∈ (run (step clientId) labels (start buf mode)).posts,
      Carries (run (step clientId) labels (start buf mode)).frames post.copied post.text := by
  obtain ⟨p, sound⟩ := run_invariant (sound_step clientId) kept ⟨_, sound_start buf mode⟩
  exact sound.posts

def arrive (bytes : List UInt8) : List Label := bytes.map (fun res => .usart (some res))

def work (n : Nat) : List Label :=
  List.replicate n (.task ⟨some (ascii "2018.8.8 10:0:0"), ascii "25.0", ascii "40.0"⟩)

/-- Steps of the task, with a step of `mqtt_thread` and a tick in front of each. -/
def workAmid (n : Nat) : List Label := (List.replicate n (.poll 0 :: .tick :: work 1)).flatten

/-- The work on a frame, in which the mode changes and a second frame comes while the buffer is
wiped. -/
def twoFrames : List Label :=
  arrive (ascii "1") ++ [.tick, .setMode 1] ++ arrive (ascii "2\r") ++ [.poll 0] ++
    arrive (ascii "\n") ++ workAmid 4 ++ [.setMode 0] ++ workAmid 246 ++ arrive (ascii "3") ++
    work 1 ++ arrive (ascii "4\r") ++ workAmid 5 ++ arrive (ascii "\n") ++ work 950

theorem copied_is_frame_two :
    (run (step 7) twoFrames (start (fun _ => 0) 0)).posts.map Post.copied = [some (ascii "12")] ∧
      (run (step 7) twoFrames (start (fun _ => 0) 0)).frames = [ascii "12", ascii "34"] ∧
      ∀ post ∈ (run (step 7) twoFrames (start (fun _ => 0) 0)).posts,
        Carries (run (step 7) twoFrames (start (fun _ => 0) 0)).frames post.copied post.text :=
  ⟨by decide +kernel, by decide +kernel,
    copied_is_frame 7 (fun _ => 0) 0 twoFrames (by decide +kernel)⟩

/-- The first byte of the next frame comes between the reset of the receiver and the
formatting of the text. -/
def nextByteEarly : List Label := arrive (ascii "12\r\n") ++ work 5 ++ arrive (ascii "3") ++ work 1300

theorem copied_mixed : ∃ post ∈ (run (step 7) nextByteEarly (start (fun _ => 0) 0)).posts,
    ∃ text ∈ post.copied, text ∉ (run (step 7) nextByteEarly (start (fun _ => 0) 0)).frames := by
  decide +kernel

end BoxFirmware.Dht11Task
