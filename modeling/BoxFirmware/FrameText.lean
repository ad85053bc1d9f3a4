import BoxFirmware.PayloadOut

/-! The text that the consumers of USART3 find in its buffer, each done with a complete frame
before the next byte comes. The receiver writes no terminator: the text ends where the buffer
holds a zero. `main` waits for the daughter board and then only resets the status word, and
`dht11_task` wipes the buffer as well. The memory behind the buffer is a parameter. -/
namespace BoxFirmware.FrameText
open ByteMem CText GuardedRun Usart

inductive Consumer
  | main | dht11Task
  deriving DecidableEq

/-- The receiver, the bytes since the last reset of its status word, and what each earlier
attempt at a frame stored since the buffer was wiped, the newest first. -/
structure St where
  rx : Rx
  consumer : Consumer
  since : List UInt8
  past : List (List UInt8)

structure Taken where
  frame : List UInt8
  buf : Mem
  text : List UInt8

def readText (behind : List UInt8) (buf : Mem) : List UInt8 :=
  cstr (slice buf 0 usart3RecLen.toNat ++ behind)

def wiped (buf : Mem) : Mem := fun i => if i < usart3RecLen.toNat then 0 else buf i

def stored (since : List UInt8) (res : UInt8) : List UInt8 :=
  (since ++ [res]).takeWhile (· ≠ 0x0d)

def consume (text frame : List UInt8) (s : St) : St :=
  match s.consumer with
  | .main =>
    { rx := { s.rx with sta := 0 }
      consumer := if strstr text (ascii "sonboard_ok") then .dht11Task else .main
      since := []
      past := frame :: s.past }
  | .dht11Task => { s with rx := ⟨0, wiped s.rx.buf⟩, since := [], past := [] }

/-- A byte, and the consumer's work on the frame that it completes. -/
def byteStep (behind : List UInt8) (res : UInt8) (s : St) : Option Taken × St :=
  let r := receive usart3RecLen res s.rx
  let frame := stored s.since res
  match r.1 with
  | .completed =>
    let text := readText behind r.2.buf
    (some ⟨frame, r.2.buf, text⟩, consume text frame { s with rx := r.2 })
  | .restarted => (none, { s with rx := r.2, since := [], past := frame :: s.past })
  | _ => (none, { s with rx := r.2, since := s.since ++ [res] })

def start : St := ⟨⟨0, fun _ => 0⟩, .main, [], []⟩

/-- The text is the frame, and ends inside the buffer. -/
def Reads (t : Taken) : Prop := t.text = t.frame ∧ 0 ∈ slice t.buf 0 usart3RecLen.toNat

/-- The newest attempt that went further than the frame has a zero at the place behind it. -/
def Uncovered (past : List (List UInt8)) (frame : List UInt8) : Prop :=
  ∀ attempt ∈ past.find? (fun attempt => frame.length < attempt.length),
    attempt[frame.length]? = some 0

/-- A frame that is completed has no zero in it, and nothing older behind it. -/
def Clear (res : UInt8) (s : St) : Prop :=
  s.since.getLast? = some 0x0d → res = 0x0a →
    0 ∉ stored s.since res ∧ Uncovered s.past (stored s.since res)

instance (past : List (List UInt8)) (frame : List UInt8) : Decidable (Uncovered past frame) :=
  inferInstanceAs (Decidable (∀ attempt ∈ past.find? _, _))

instance (res : UInt8) (s : St) : Decidable (Clear res s) :=
  inferInstanceAs (Decidable (_ → _ → _ ∧ _))

section Residue

def residue (past : List (List UInt8)) (k : Nat) : UInt8 :=
  ((past.find? (fun attempt => k < attempt.length)).bind (·[k]?)).getD 0

theorem residue_cons (attempt : List UInt8) (past : List (List UInt8)) (k : Nat) :
    residue (attempt :: past) k = (attempt[k]?).getD (residue past k) := by
  rw [residue, List.find?_cons]
  by_cases inside : k < attempt.length
  · simp [inside]
  · simp [inside, residue]

theorem uncovered_iff (past : List (List UInt8)) (frame : List UInt8) :
    Uncovered past frame ↔ residue past frame.length = 0 := by
  rw [Uncovered, residue]
  cases found : past.find? (fun attempt => decide (frame.length < attempt.length)) with
  | none => simp
  | some attempt =>
    have inside : frame.length < attempt.length := by simpa using List.find?_some found
    simp [inside]

theorem residue_give {buf : Mem} {attempt : List UInt8} {past : List (List UInt8)} {n : Nat}
    (front : slice buf 0 attempt.length = attempt)
    (older : ∀ k, attempt.length ≤ k → k < n → buf k = residue past k) :
    ∀ k < n, buf k = residue (attempt :: past) k := by
  intro k below
  rw [residue_cons]
  by_cases inside : k < attempt.length
  · have byte := slice_getElem? buf 0 attempt.length k inside
    rw [front, Nat.zero_add] at byte
    rw [byte]
    rfl
  · rw [List.getElem?_eq_none (Nat.le_of_not_lt inside)]
    exact older k (Nat.le_of_not_lt inside) below

/-- The string in the buffer is the frame just when that has no zero and one is behind it. -/
theorem readText_iff {buf : Mem} {frame : List UInt8} (behind : List UInt8)
    (front : slice buf 0 frame.length = frame) (room : frame.length < usart3RecLen.toNat) :
    (readText behind buf = frame ∧ 0 ∈ slice buf 0 usart3RecLen.toNat) ↔
      0 ∉ frame ∧ buf frame.length = 0 := by
  obtain ⟨k, size⟩ := Nat.exists_eq_add_of_lt room
  have split : slice buf 0 usart3RecLen.toNat =
      frame ++ buf frame.length :: slice buf (frame.length + 1) k := by
    rw [size, Nat.add_assoc, slice_add, front, Nat.add_comm k 1, slice_add]
    simp [slice]
  rw [readText, split]
  constructor
  · rintro ⟨text, -⟩
    have clean : 0 ∉ frame := text ▸ zero_not_mem_cstr _
    rw [List.append_assoc, cstr_append _ clean] at text
    have ends := List.append_right_eq_self.mp text
    rw [cstr_eq_nil] at ends
    exact ⟨clean, by simpa using ends⟩
  · rintro ⟨clean, zero⟩
    rw [zero, List.append_assoc, List.cons_append, cstr_zero, cstr_clean clean]
    exact ⟨rfl, by simp⟩

end Residue

section Steps

variable {s : St} {data : List UInt8} {res : UInt8} (behind : List UInt8)

structure Tells (p : Progress) (s : St) : Prop where
  shows : Shows usart3RecLen.toNat p s.rx
  accounts : Accounts s.since p
  underway : ∀ data, p ≠ .complete data
  older : ∀ k, p.data.length ≤ k → k < usart3RecLen.toNat → s.rx.buf k = residue s.past k

/-- What a byte leads to: the frame goes on, or the reader's text is right just when the frame
is clear. -/
structure Leads (behind : List UInt8) (res : UInt8) (s : St) : Prop where
  tells : ∃ p, Tells p (byteStep behind res s).2
  reads : (∀ t ∈ (byteStep behind res s).1, Reads t) ↔ Clear res s

theorem stored_front (clean : 0x0d ∉ data) (rest : List UInt8) :
    (data ++ rest).takeWhile (· ≠ 0x0d) = data ++ rest.takeWhile (· ≠ 0x0d) := by
  apply List.takeWhile_append_of_pos
  intro b member
  have other : b ≠ 0x0d := fun cr => clean (cr ▸ member)
  simpa using other

theorem stored_gathering (clean : 0x0d ∉ data) (byte : res ≠ 0x0d) :
    stored data res = data ++ [res] := by
  rw [stored, stored_front clean]
  simp [byte]

theorem stored_returned (clean : 0x0d ∉ data) : stored (data ++ [0x0d]) res = data := by
  rw [stored, List.append_assoc, stored_front clean]
  simp

theorem recLen_word : usart3RecLen.toNat ≤ 2^14 := by decide

theorem clear_gathering (accounts : Accounts s.since (.gathering data)) : Clear res s := by
  intro cr
  rw [accounts.1] at cr
  exact absurd (List.mem_of_getLast? cr) accounts.2

theorem reads_none : ∀ t ∈ (none : Option Taken), Reads t := by simp

theorem leads_gathering (tells : Tells (.gathering data) s) : Leads behind res s := by
  have clear : Clear res s := clear_gathering tells.accounts
  have next := receive_shows recLen_word tells.shows res
  have accounts := accounts_next tells.accounts usart3RecLen.toNat res
  have got := receive_gathering recLen_word tells.shows res
  have front : slice s.rx.buf 0 data.length = data := tells.shows.stored
  have older := tells.older
  obtain ⟨since, clean⟩ := tells.accounts
  by_cases cr : res = 0x0d
  · rw [if_pos cr] at got
    rw [got, Progress.next, if_pos cr] at next
    rw [Progress.next, if_pos cr] at accounts
    have step : byteStep behind res s =
        (none, { s with rx := { s.rx with sta := s.rx.sta ||| 0x4000 }, since := s.since ++ [res] }) := by
      simp only [byteStep, got]
    refine ⟨⟨.returned data, ?_, ?_, by simp, ?_⟩, ?_⟩
    · rw [step]
      exact next.2
    · rw [step]
      exact accounts
    · rw [step]
      exact older
    · rw [step]
      exact iff_of_true reads_none clear
  · rw [if_neg cr, shows_storeByte recLen_word tells.shows] at got
    rw [Progress.next, if_neg cr] at accounts
    rw [Progress.next, if_neg cr] at next
    by_cases more : data.length + 1 < usart3RecLen.toNat
    · rw [if_pos more] at got accounts next
      rw [got] at next
      have step : byteStep behind res s = (none, { s with
          rx := ⟨s.rx.sta + 1, Function.update s.rx.buf data.length res⟩
          since := s.since ++ [res] }) := by
        simp only [byteStep, got]
      refine ⟨⟨.gathering (data ++ [res]), ?_, ?_, by simp, ?_⟩, ?_⟩
      · rw [step]
        exact next.2
      · rw [step]
        exact accounts
      · rw [step]
        intro k above below
        have beyond : data.length + 1 ≤ k := by simpa [Progress.data] using above
        have other : k ≠ data.length := by omega
        exact (Function.update_of_ne other _ _).trans (older k (Nat.le_of_succ_le beyond) below)
      · rw [step]
        exact iff_of_true reads_none clear
    · -- the attempt has filled the buffer
      rw [if_neg more] at got accounts next
      rw [got] at next
      have step : byteStep behind res s = (none, { s with
          rx := ⟨0, Function.update s.rx.buf data.length res⟩
          since := []
          past := (data ++ [res]) :: s.past }) := by
        simp only [byteStep, got, since, stored_gathering clean cr]
      refine ⟨⟨.gathering [], ?_, ?_, by simp, ?_⟩, ?_⟩
      · rw [step]
        exact next.2
      · rw [step]
        exact accounts
      · rw [step]
        intro k _ below
        refine residue_give (slice_update_concat _ _ _ front) (fun k above below => ?_) k below
        rw [List.length_append, List.length_singleton] at above
        omega
      · rw [step]
        exact iff_of_true reads_none clear

theorem leads_returned (tells : Tells (.returned data) s) : Leads behind res s := by
  have next := receive_shows recLen_word tells.shows res
  have got := receive_returned recLen_word tells.shows res
  have front : slice s.rx.buf 0 data.length = data := tells.shows.stored
  have room : data.length < usart3RecLen.toNat := tells.shows.room
  have older := tells.older
  obtain ⟨since, clean⟩ := tells.accounts
  have frame : stored s.since res = data := by rw [since, stored_returned clean]
  have given := residue_give front older
  have begun : ∀ {rx : Rx} {past : List (List UInt8)} (consumer : Consumer), rx.sta = 0 →
      (∀ k < usart3RecLen.toNat, rx.buf k = residue past k) →
        Tells (.gathering []) ⟨rx, consumer, [], past⟩ := by
    intro rx past consumer sta left
    exact ⟨⟨by rw [sta]; rfl, by decide, rfl⟩, ⟨rfl, by simp⟩, by simp, fun k _ => left k⟩
  by_cases lf : res = 0x0a
  · rw [if_pos lf] at got
    have step : byteStep behind res s =
        (some ⟨data, s.rx.buf, readText behind s.rx.buf⟩,
          consume (readText behind s.rx.buf) data
            { s with rx := { s.rx with sta := s.rx.sta ||| 0x8000 } }) := by
      simp only [byteStep, got, frame]
    constructor
    · rw [step]
      unfold consume
      split
      · exact ⟨_, begun _ rfl given⟩
      · exact ⟨_, begun _ rfl (fun k below => if_pos below)⟩
    · rw [step, Clear, frame, uncovered_iff, ← older data.length (Nat.le_refl _) room]
      have reads := readText_iff behind front room
      have ends : s.since.getLast? = some 0x0d := by rw [since]; simp
      simpa [ends, lf, Reads] using reads
  · rw [if_neg lf] at got
    have step : byteStep behind res s =
        (none, { s with rx := { s.rx with sta := 0 }, since := [], past := data :: s.past }) := by
      simp only [byteStep, got, frame]
    constructor
    · rw [step]
      exact ⟨_, begun _ rfl given⟩
    · rw [step]
      exact iff_of_true reads_none (fun _ now => absurd now lf)

theorem byteStep_leads (tells : ∃ p, Tells p s) : Leads behind res s := by
  obtain ⟨p, tells⟩ := tells
  cases p with
  | gathering data => exact leads_gathering behind tells
  | returned data => exact leads_returned behind tells
  | complete data => exact absurd rfl (tells.underway data)

end Steps

theorem tells_start : ∃ p, Tells p start :=
  ⟨.gathering [], ⟨rfl, by decide, rfl⟩, ⟨rfl, by simp⟩, by simp, fun k _ _ => rfl⟩

theorem reads_along (behind bytes : List UInt8) {s : St} (tells : ∃ p, Tells p s) :
    (∀ o ∈ outputs (byteStep behind) bytes s, ∀ t ∈ o, Reads t) ↔
      Along (fun res s => (byteStep behind res s).2) Clear bytes s := by
  rw [outputs_along]
  apply along_congr (I := fun s => ∃ p, Tells p s) _ _ tells
  · exact fun res s tells => (byteStep_leads behind tells).tells
  · exact fun res s tells => (byteStep_leads behind tells).reads

/-- In every run from power-on each complete frame is read as it was sent, with its NUL inside
the buffer, just when none that is completed has a zero in it or a byte of an older attempt
behind it. -/
theorem frames_read (behind bytes : List UInt8) :
    (∀ o ∈ outputs (byteStep behind) bytes start, ∀ t ∈ o, Reads t) ↔
      Along (fun res s => (byteStep behind res s).2) Clear bytes start :=
  reads_along behind bytes tells_start

/-- The daughter board says that it is ready, and then sends a shorter frame: behind its bytes
the consumer reads those of the first. -/
theorem frames_run_on : ¬ ∀ behind bytes, ∀ o ∈ outputs (byteStep behind) bytes start,
    ∀ t ∈ o, Reads t := by
  intro all
  have clear := (reads_along [] (ascii "sonboard_ok\r\n12\r\n") tells_start).mp (all [] _)
  revert clear
  decide +kernel

section Task

open Dht11Task

variable {clientId : Nat} {r : Readings} {text : List UInt8} {s : Dht11Task.St}

theorem clear_wipes {delays : Nat} (pc : s.pc = .clear delays 0) :
    Eventually (step clientId) (.task r) (fun t => t.pc = .post delays ∧
      t.rx = ⟨s.rx.sta, wiped s.rx.buf⟩) s := by
  apply eventually_mono (clear_eventually (Nat.zero_le _) pc)
  rintro t ⟨pc, -, sta, clear⟩
  have memory : t.rx.buf = wiped s.rx.buf := by
    funext k
    simpa [wiped] using clear k
  exact ⟨pc, by rw [← sta, ← memory]⟩

theorem test_keeps {form : Form} (spells : Spells s.rx.buf text) (pc : s.pc = .test form) :
    Eventually (step clientId) (.task r) (fun t => t.pc = form.next ∧ t.rx = s.rx) s := by
  by_cases same : s.mode = form.mode
  · apply eventually_next (test_take pc same)
    refine eventually_mono (sprintf_eventually rfl spells rfl) ?_
    rintro t ⟨⟨rx, -⟩, -, pc⟩
    exact ⟨pc, rx⟩
  · apply eventually_next (test_skip pc same)
    exact eventually_now ⟨rfl, rfl⟩

/-- The steps of `dht11_task` on a frame do to the receiver what `consume` does at once. -/
theorem dht11Task_consumes (frame : List UInt8) (since : List UInt8) (past : List (List UInt8))
    {time : List UInt8} (spells : Spells s.rx.buf text) (pc : s.pc = .scan 0 [])
    (gps : r.gps = some time) :
    Eventually (step clientId) (.task r) (fun t => (∃ delays, t.pc = .post delays) ∧
      t.rx = (consume text frame ⟨s.rx, .dht11Task, since, past⟩).rx) s := by
  have wipes : ∀ {t : Dht11Task.St} {delays : Nat}, t.pc = .clear delays 0 →
      t.rx = ⟨0, s.rx.buf⟩ → Eventually (step clientId) (.task r) (fun u =>
        (∃ delays, u.pc = .post delays) ∧ u.rx = ⟨0, wiped s.rx.buf⟩) t := by
    intro t delays pc rx
    apply eventually_mono (clear_wipes pc)
    rintro u ⟨pc, memory⟩
    rw [memory, rx]
    exact ⟨⟨delays, pc⟩, rfl⟩
  apply eventually_trans (scan_eventually spells (Nat.zero_le _) pc)
  rintro t rfl
  by_cases event : strstr text (ascii "event") = true
  · rw [if_pos event]
    apply eventually_trans (copy_eventually (Nat.zero_le _) rfl (fun j below => absurd below
      (Nat.not_lt_zero j)))
    rintro t ⟨pc, rx, -⟩
    have armed : step clientId (.task r) t = { resetSta t with pc := .clear 1 0 } := by
      simp only [step, dht11Task, pc]
    apply eventually_next armed
    exact wipes rfl (by simp [resetSta, rx])
  · rw [if_neg event]
    have waited : step clientId (.task r) (step clientId (.task r) { s with pc := .rearm }) =
        { resetSta s with timeBuf := time, pc := .test .timing1 } := by
      simp only [step, dht11Task, waitGpsStep, gps]
      rfl
    refine eventually_step (eventually_step ?_)
    rw [waited]
    refine eventually_trans (test_keeps spells rfl) ?_
    rintro t ⟨pc, rx⟩
    refine eventually_trans (test_keeps (by rw [rx]; exact spells) pc) ?_
    rintro u ⟨pcU, rxU⟩
    refine eventually_trans (test_keeps (by rw [rxU, rx]; exact spells) pcU) ?_
    rintro v ⟨pcV, rxV⟩
    exact wipes pcV (by rw [rxV, rxU, rx]; rfl)

end Task

end BoxFirmware.FrameText
