import BoxFirmware.Dht11Frames

/-! The text that `dht11_task` puts into `_payload_out` for a frame, and the length that the
timed publish computes from it. The task runs on its own from the reset of the receiver to
the post. -/
namespace BoxFirmware.Dht11Task
open ByteMem CText GuardedRun OsMbox Usart

structure Ready (s : St) : Prop where
  sta : s.rx.sta = 0
  wiped : ∀ i < usart3RecLen.toNat, s.rx.buf i = 0
  boxMsg : s.boxMsg = osMboxCreate
  pc : s.pc = .pend

/-- The bytes of a frame and the pair behind them. -/
def arrival (frame : List UInt8) : List Label :=
  (frame ++ [0x0d, 0x0a]).map (fun res => .usart (some res))

/-- The text for a frame: an event as it is, or one of the three payloads. -/
def message (clientId mode : Nat) (time : List UInt8) (r : Readings) (frame : List UInt8) :
    Option (List UInt8) :=
  if strstr (cstr frame) (ascii "event") then some (cstr frame)
  else if mode = Form.timing1.mode then
    some (payloadHead clientId .timing1 time r ++ cstr frame ++ ascii "\x7d")
  else if mode = Form.timing0.mode then
    some (payloadHead clientId .timing0 time r ++ cstr frame ++ ascii "\x7d")
  else if mode = Form.feedback.mode then
    some (payloadHead clientId .feedback time r ++ cstr frame ++ ascii "\x7d")
  else none

/-- `strlen` of the timed publish stops at this length. -/
def Measures (clientId : Nat) (s : St) (len : Nat) : Prop :=
  (run (step clientId) (List.replicate len (.poll 0)) { s with poll := .measure 0 }).poll =
    .measure len ∧ s.payloadOut len = 0

/-- At the post the text is there with its NUL, inside the buffer, and its length is what
`mqtt_thread` computes. -/
structure Fits (clientId : Nat) (text : List UInt8) (s : St) : Prop where
  room : text.length + 1 ≤ payloadOutSize
  stored : slice s.payloadOut 0 (text.length + 1) = text ++ [0]
  measured : Measures clientId s text.length

section Sprintf

variable {clientId : Nat} {r : Readings} {text front rest : List UInt8} {s : St}

def Beside (s t : St) : Prop := t.rx = s.rx ∧ t.mode = s.mode ∧ t.timeBuf = s.timeBuf

theorem head_eventually {form : Form} (starts : Starts s.payloadOut front)
    (pc : s.pc = .head form front.length rest) :
    Eventually (step clientId) (.task r) (fun t => Beside s t ∧
      Starts t.payloadOut (front ++ rest) ∧ t.pc = .chnls form (front ++ rest).length 0) s := by
  induction rest generalizing front s with
  | nil =>
    refine eventually_step (eventually_now ?_)
    have next : step clientId (.task r) s =
        { s with copied := some [], pc := .chnls form front.length 0 } := by
      simp only [step, dht11Task, pc, headStep]
    rw [next, List.append_nil]
    exact ⟨⟨rfl, rfl, rfl⟩, starts, rfl⟩
  | cons b rest ih =>
    have next : step clientId (.task r) s =
        { putPayload front.length b s with pc := .head form (front.length + 1) rest } := by
      simp only [step, dht11Task, pc, headStep]
    have grown : Starts (step clientId (.task r) s).payloadOut (front ++ [b]) := by
      rw [next]
      exact starts.put b
    have at_ : (step clientId (.task r) s).pc = .head form (front ++ [b]).length rest := by
      rw [next]
      simp
    have written := ih grown at_
    rw [List.append_assoc, List.singleton_append, next] at written
    apply eventually_next next
    exact written

theorem chnls_eventually {form : Form} {i : Nat} (spells : Spells s.rx.buf text)
    (within : i ≤ text.length) (starts : Starts s.payloadOut (front ++ text.take i))
    (pc : s.pc = .chnls form (front ++ text.take i).length i) :
    Eventually (step clientId) (.task r) (fun t => Beside s t ∧
      Starts t.payloadOut (front ++ text) ∧
      t.pc = .tail form (front ++ text).length (ascii "\x7d" ++ [0])) s := by
  generalize left : text.length - i = n
  induction n generalizing i s with
  | zero =>
    obtain rfl : i = text.length := by omega
    rw [List.take_length] at starts pc
    have next : step clientId (.task r) s =
        { s with pc := .tail form (front ++ text).length (ascii "\x7d" ++ [0]) } := by
      simp only [step, dht11Task, pc, chnlsStep, spells.closed, ne_eq, not_true_eq_false, if_false]
    apply eventually_next next
    apply eventually_now
    exact ⟨⟨rfl, rfl, rfl⟩, starts, rfl⟩
  | succ n ih =>
    have inside : i < text.length := by omega
    have byte := spells.ne_zero inside
    have further := (spells.more within byte).2
    have next : step clientId (.task r) s =
        { putPayload (front ++ text.take i).length (s.rx.buf i) s with
          copied := some (s.copied.getD [] ++ [s.rx.buf i])
          pc := .chnls form ((front ++ text.take i).length + 1) (i + 1) } := by
      simp only [step, dht11Task, pc, chnlsStep, ne_eq, byte, not_false_eq_true, if_true]
    have grown := starts.put (s.rx.buf i)
    rw [List.append_assoc, further] at grown
    have size : (front ++ text.take (i + 1)).length = (front ++ text.take i).length + 1 := by
      rw [← further]
      simp [Nat.add_assoc]
    apply eventually_next next
    exact ih spells inside grown (by rw [size]) (by omega)

theorem tail_eventually {form : Form} (starts : Starts s.payloadOut front)
    (pc : s.pc = .tail form front.length rest) :
    Eventually (step clientId) (.task r) (fun t => Beside s t ∧
      Starts t.payloadOut (front ++ rest) ∧ t.pc = form.next) s := by
  induction rest generalizing front s with
  | nil =>
    have next : step clientId (.task r) s = { s with pc := form.next } := by
      simp only [step, dht11Task, pc, tailStep]
    rw [List.append_nil]
    apply eventually_next next
    apply eventually_now
    exact ⟨⟨rfl, rfl, rfl⟩, starts, rfl⟩
  | cons b rest ih =>
    have next : step clientId (.task r) s =
        { putPayload front.length b s with pc := .tail form (front.length + 1) rest } := by
      simp only [step, dht11Task, pc, tailStep]
    have grown : Starts (step clientId (.task r) s).payloadOut (front ++ [b]) := by
      rw [next]
      exact starts.put b
    have at_ : (step clientId (.task r) s).pc = .tail form (front ++ [b]).length rest := by
      rw [next]
      simp
    have written := ih grown at_
    rw [List.append_assoc, List.singleton_append, next] at written
    apply eventually_next next
    exact written

theorem Beside.trans {t u : St} (first : Beside s t) (second : Beside t u) : Beside s u :=
  ⟨second.1.trans first.1, second.2.1.trans first.2.1, second.2.2.trans first.2.2⟩

theorem sprintf_eventually {form : Form} {buf : Mem} (memory : s.rx.buf = buf)
    (spells : Spells buf text) (pc : s.pc = .head form 0 front) :
    Eventually (step clientId) (.task r) (fun t => Beside s t ∧
      Starts t.payloadOut (front ++ text ++ ascii "\x7d" ++ [0]) ∧ t.pc = form.next) s := by
  subst memory
  have none : Starts s.payloadOut [] := rfl
  apply eventually_trans (head_eventually none pc)
  rintro t ⟨beside, starts, pc⟩
  rw [List.nil_append] at starts pc
  have spellsT : Spells t.rx.buf text := by rw [beside.1]; exact spells
  have begun : Starts t.payloadOut (front ++ text.take 0) := by simpa using starts
  have at_ : t.pc = .chnls form (front ++ text.take 0).length 0 := by simpa using pc
  apply eventually_trans (chnls_eventually spellsT (Nat.zero_le _) begun at_)
  rintro u ⟨besideU, starts, pc⟩
  apply eventually_mono (tail_eventually starts pc)
  rintro v ⟨besideV, starts, pc⟩
  rw [← List.append_assoc] at starts
  exact ⟨beside.trans (besideU.trans besideV), starts, pc⟩

end Sprintf

section Task

variable {clientId : Nat} {r : Readings} {text : List UInt8} {s : St}

theorem scan_eventually {i : Nat} (spells : Spells s.rx.buf text) (within : i ≤ text.length)
    (pc : s.pc = .scan i (text.take i)) :
    Eventually (step clientId) (.task r) (fun t =>
      t = { s with pc := if strstr text (ascii "event") then .copy 0 else .rearm }) s := by
  generalize left : text.length - i = n
  induction n generalizing i s with
  | zero =>
    obtain rfl : i = text.length := by omega
    rw [List.take_length] at pc
    refine eventually_step (eventually_now ?_)
    simp only [step, dht11Task, pc, scanStep, spells.closed, ne_eq, not_true_eq_false, if_false]
  | succ n ih =>
    have inside : i < text.length := by omega
    have byte := spells.ne_zero inside
    have further := (spells.more within byte).2
    have next : step clientId (.task r) s = { s with pc := .scan (i + 1) (text.take (i + 1)) } := by
      simp only [step, dht11Task, pc, scanStep, ne_eq, byte, not_false_eq_true, if_true, further]
    apply eventually_next next
    exact ih spells inside rfl (by omega)

theorem copy_eventually {i : Nat} (inside : i ≤ payloadOutSize) (pc : s.pc = .copy i)
    (copied : ∀ j < i, s.payloadOut j = s.rx.buf j) :
    Eventually (step clientId) (.task r) (fun t => t.pc = .rearmEvent ∧ t.rx = s.rx ∧
      ∀ j < payloadOutSize, t.payloadOut j = s.rx.buf j) s := by
  generalize left : payloadOutSize - i = n
  induction n generalizing i s with
  | zero =>
    obtain rfl : i = payloadOutSize := by omega
    refine eventually_step (eventually_now ?_)
    simp only [step, dht11Task, pc, copyStep, Nat.lt_irrefl, if_false]
    exact ⟨trivial, trivial, copied⟩
  | succ n ih =>
    have more : i < payloadOutSize := by omega
    have next : step clientId (.task r) s =
        { putPayload i (s.rx.buf i) s with pc := .copy (i + 1) } := by
      simp only [step, dht11Task, pc, copyStep, more, if_true]
    apply eventually_next next
    refine ih more rfl (fun j below => ?_) (by omega)
    by_cases here : j = i
    · rw [here]
      exact Function.update_self i (s.rx.buf i) s.payloadOut
    · exact (Function.update_of_ne here _ _).trans (copied j (by omega))

theorem clear_eventually {delays i : Nat} (inside : i ≤ usart3RecLen.toNat)
    (pc : s.pc = .clear delays i) :
    Eventually (step clientId) (.task r) (fun t => t.pc = .post delays ∧
      t.payloadOut = s.payloadOut ∧ t.rx.sta = s.rx.sta ∧
      ∀ k, t.rx.buf k = if i ≤ k ∧ k < usart3RecLen.toNat then 0 else s.rx.buf k) s := by
  generalize left : usart3RecLen.toNat - i = n
  induction n generalizing i s with
  | zero =>
    obtain rfl : i = usart3RecLen.toNat := by omega
    refine eventually_step (eventually_now ?_)
    simp only [step, dht11Task, pc, clearStep, Nat.lt_irrefl, if_false]
    refine ⟨trivial, trivial, trivial, fun k => ?_⟩
    rw [if_neg (by omega)]
  | succ n ih =>
    have more : i < usart3RecLen.toNat := by omega
    have next : step clientId (.task r) s =
        { s with
          rx := { s.rx with buf := Function.update s.rx.buf i 0 }
          pc := .clear delays (i + 1) } := by
      simp only [step, dht11Task, pc, clearStep, more, if_true]
    apply eventually_next next
    apply eventually_mono (ih more rfl (by omega))
    rintro t ⟨pc, payload, sta, wiped⟩
    refine ⟨pc, payload, sta, fun k => (wiped k).trans ?_⟩
    by_cases here : k = i
    · rw [here, if_neg (by omega), if_pos (by omega)]
      exact Function.update_self i 0 s.rx.buf
    · have same : i + 1 ≤ k ∧ k < usart3RecLen.toNat ↔ i ≤ k ∧ k < usart3RecLen.toNat := by omega
      simp only [same, Function.update_of_ne here]

theorem test_skip {form : Form} (pc : s.pc = .test form) (other : s.mode ≠ form.mode) :
    step clientId (.task r) s = { s with pc := form.next } := by
  simp only [step, dht11Task, pc, testStep, other, if_false]

theorem test_take {form : Form} (pc : s.pc = .test form) (same : s.mode = form.mode) :
    step clientId (.task r) s = { s with
      mode := if form = .feedback then 0 else s.mode
      pc := .head form 0 (payloadHead clientId form s.timeBuf r) } := by
  simp only [step, dht11Task, pc, testStep, same, if_true]

def formatted (clientId : Nat) (form : Form) (time : List UInt8) (r : Readings)
    (text : List UInt8) : List UInt8 :=
  payloadHead clientId form time r ++ text ++ ascii "\x7d"

theorem taken_eventually {form : Form} {buf : Mem} (memory : s.rx.buf = buf)
    (spells : Spells buf text) (pc : s.pc = .test form) (same : s.mode = form.mode) :
    Eventually (step clientId) (.task r) (fun t => t.pc = form.next ∧
      t.mode = (if form = .feedback then 0 else s.mode) ∧
      Starts t.payloadOut (formatted clientId form s.timeBuf r text ++ [0])) s := by
  apply eventually_next (test_take pc same)
  refine eventually_mono (sprintf_eventually memory spells rfl) ?_
  rintro t ⟨⟨-, mode, -⟩, starts, pc⟩
  exact ⟨pc, mode, starts⟩

theorem forms_eventually {form : Form} {buf : Mem} (memory : s.rx.buf = buf)
    (spells : Spells buf text) (pc : s.pc = .test .timing1) (same : s.mode = form.mode) :
    Eventually (step clientId) (.task r) (fun t => t.pc = .clear 2 0 ∧
      Starts t.payloadOut (formatted clientId form s.timeBuf r text ++ [0])) s := by
  have skip : ∀ {t : St} {g : Form} {P : St → Prop}, t.pc = .test g → t.mode ≠ g.mode →
      Eventually (step clientId) (.task r) P { t with pc := g.next } →
      Eventually (step clientId) (.task r) P t := by
    intro t g P at_ other later
    exact eventually_next (test_skip at_ other) later
  cases form with
  | timing1 =>
    apply eventually_trans (taken_eventually memory spells pc same)
    rintro t ⟨pc, mode, starts⟩
    have one : t.mode = 1 := mode.trans same
    apply skip pc (by rw [one]; decide)
    apply skip rfl (by rw [one]; decide)
    exact eventually_now ⟨rfl, starts⟩
  | timing0 =>
    apply skip pc (by rw [same]; decide)
    refine eventually_trans (taken_eventually memory spells rfl same) ?_
    rintro t ⟨pc, mode, starts⟩
    have zero : t.mode = 0 := mode.trans same
    apply skip pc (by rw [zero]; decide)
    exact eventually_now ⟨rfl, starts⟩
  | feedback =>
    apply skip pc (by rw [same]; decide)
    apply skip rfl (by rw [same]; decide)
    refine eventually_mono (taken_eventually memory spells rfl same) ?_
    rintro t ⟨pc, -, starts⟩
    exact ⟨pc, starts⟩

theorem channels_eventually {form : Form} {time : List UInt8} (spells : Spells s.rx.buf text)
    (pc : s.pc = .scan 0 []) (plain : strstr text (ascii "event") = false)
    (gps : r.gps = some time) (same : s.mode = form.mode) :
    Eventually (step clientId) (.task r) (fun t => t.pc = .post 2 ∧
      Starts t.payloadOut (formatted clientId form time r text ++ [0])) s := by
  apply eventually_trans (scan_eventually spells (Nat.zero_le _) pc)
  rintro t rfl
  rw [plain]
  refine eventually_step (eventually_step ?_)
  have waited : step clientId (.task r) (step clientId (.task r) { s with pc := .rearm }) =
      { resetSta s with timeBuf := time, pc := .test .timing1 } := by
    simp only [step, dht11Task, waitGpsStep, gps]
    rfl
  rw [if_neg (by decide), waited]
  refine eventually_trans (forms_eventually rfl spells rfl same) ?_
  rintro t ⟨pc, starts⟩
  apply eventually_mono (clear_eventually (Nat.zero_le _) pc)
  rintro u ⟨pc, payload, -⟩
  rw [payload]
  exact ⟨pc, starts⟩

theorem event_eventually (spells : Spells s.rx.buf text) (pc : s.pc = .scan 0 [])
    (event : strstr text (ascii "event") = true) :
    Eventually (step clientId) (.task r) (fun t => t.pc = .post 1 ∧
      ∀ j < payloadOutSize, t.payloadOut j = s.rx.buf j) s := by
  apply eventually_trans (scan_eventually spells (Nat.zero_le _) pc)
  rintro t rfl
  rw [event]
  apply eventually_trans (copy_eventually (Nat.zero_le _) rfl (fun j below => absurd below
    (Nat.not_lt_zero j)))
  rintro t ⟨pc, -, copied⟩
  have armed : step clientId (.task r) t = { resetSta t with pc := .clear 1 0 } := by
    simp only [step, dht11Task, pc]
  apply eventually_next armed
  apply eventually_mono (clear_eventually (Nat.zero_le _) rfl)
  rintro u ⟨pc, payload, -⟩
  rw [payload]
  exact ⟨pc, copied⟩

/-- The timed publish counts up to the NUL. -/
theorem measures_of_stored (stored : slice s.payloadOut 0 (text.length + 1) = text ++ [0])
    (clean : 0 ∉ text) : Measures clientId s text.length := by
  have byte : ∀ i ≤ text.length, (text ++ [0])[i]? = some (s.payloadOut i) := by
    intro i within
    have entry := slice_getElem? s.payloadOut 0 (text.length + 1) i (by omega)
    rwa [stored, Nat.zero_add] at entry
  have count : ∀ n ≤ text.length, run (step clientId) (List.replicate n (.poll 0))
      { s with poll := .measure 0 } = { s with poll := .measure n } := by
    intro n
    induction n with
    | zero => exact fun _ => rfl
    | succ n ih =>
      intro within
      have entry := byte n (by omega)
      rw [List.getElem?_append_left (by omega)] at entry
      have more : s.payloadOut n ≠ 0 := by
        intro zero
        rw [zero] at entry
        exact clean (List.mem_of_getElem? entry)
      rw [List.replicate_succ', run_append, ih (by omega), run_cons, run_nil]
      simp only [step, pollStep, ne_eq, more, not_false_eq_true, if_true]
  have last := byte text.length (Nat.le_refl _)
  rw [List.getElem?_concat_length] at last
  exact ⟨by rw [count _ (Nat.le_refl _)], (Option.some.inj last).symm⟩

end Task

section Arrival

variable {clientId : Nat} {s : St}

structure Gathering (data : List UInt8) (s t : St) : Prop where
  shows : Shows usart3RecLen.toNat (.gathering data) t.rx
  wiped : ∀ i < usart3RecLen.toNat, data.length ≤ i → t.rx.buf i = 0
  boxMsg : t.boxMsg = s.boxMsg
  pc : t.pc = s.pc
  mode : t.mode = s.mode

theorem gathering_byte {data : List UInt8} {t : St} (gathering : Gathering data s t) {res : UInt8}
    (noCr : res ≠ 0x0d) (room : data.length + 1 < usart3RecLen.toNat) :
    Gathering (data ++ [res]) s (step clientId (.usart (some res)) t) := by
  have word : usart3RecLen.toNat ≤ 2^14 := by decide
  obtain ⟨act, shows⟩ := receive_shows word gathering.shows res
  have stored := receive_gathering word gathering.shows res
  rw [if_neg noCr, shows_storeByte word gathering.shows, if_pos room] at stored
  rw [Progress.next, if_neg noCr, if_pos room] at act shows
  have next : step clientId (.usart (some res)) t = usartStep (some res) t := rfl
  rw [next, usartStep_some, act, if_neg (by simp)]
  refine ⟨shows, fun i inside behind => ?_, gathering.boxMsg, gathering.pc, gathering.mode⟩
  rw [List.length_append, List.length_singleton] at behind
  rw [stored]
  exact (Function.update_of_ne (by omega) _ _).trans (gathering.wiped i inside (by omega))

theorem gathering_run {frame data : List UInt8} {t : St} (gathering : Gathering data s t)
    (noCr : 0x0d ∉ frame) (room : data.length + frame.length < usart3RecLen.toNat) :
    Gathering (data ++ frame) s
      (run (step clientId) (frame.map (fun res => .usart (some res))) t) := by
  induction frame generalizing data t with
  | nil => simpa using gathering
  | cons res frame ih =>
    rw [List.mem_cons, not_or] at noCr
    rw [List.length_cons] at room
    have byte : Gathering (data ++ [res]) s (step clientId (.usart (some res)) t) :=
      gathering_byte gathering (Ne.symm noCr.1) (by omega)
    have rest := ih byte noCr.2 (by simp; omega)
    rw [List.append_assoc, List.singleton_append] at rest
    exact rest

theorem spells_cstr {frame : List UInt8} {buf : Mem} (room : frame.length < usart3RecLen.toNat)
    (stored : slice buf 0 frame.length = frame) (closed : buf frame.length = 0) :
    Spells buf (cstr frame) := by
  have entry : ∀ i < frame.length, frame[i]? = some (buf i) := by
    intro i inside
    have byte := slice_getElem? buf 0 frame.length i inside
    rwa [stored, Nat.zero_add] at byte
  have short := cstr_length_le frame
  refine ⟨Nat.lt_of_le_of_lt short room, ?_, ?_, zero_not_mem_cstr frame⟩
  · rw [← slice_take buf 0 short, stored]
    exact (List.prefix_iff_eq_take.mp (cstr_front frame)).symm
  · by_cases zero : 0 ∈ frame
    · obtain ⟨rest, split⟩ := cstr_split zero
      have own : ∀ text, frame = text ++ 0 :: rest → frame[text.length]? = some 0 := by
        rintro text rfl
        simp
      have place := own _ split
      have inside : (cstr frame).length < frame.length := (List.getElem?_eq_some_iff.mp place).1
      exact (Option.some.inj (place.symm.trans (entry _ inside))).symm
    · rw [cstr_clean zero]
      exact closed

theorem arrival_run {frame : List UInt8} (ready : Ready s) (noCr : 0x0d ∉ frame)
    (room : frame.length < usart3RecLen.toNat) :
    let t := run (step clientId) (arrival frame) s
    t.pc = .pend ∧ t.boxMsg.osEventPtr = some () ∧ t.mode = s.mode ∧
      Spells t.rx.buf (cstr frame) := by
  have reset : Gathering [] s s := by
    have rx : s.rx = ⟨0, s.rx.buf⟩ := by rw [← ready.sta]
    refine ⟨?_, fun i inside _ => ready.wiped i inside, rfl, rfl, rfl⟩
    rw [rx]
    exact shows_reset (by decide) s.rx.buf
  have gathered : Gathering ([] ++ frame) s
      (run (step clientId) (frame.map (fun res => .usart (some res))) s) :=
    gathering_run reset noCr (by simpa using room)
  have word : usart3RecLen.toNat ≤ 2^14 := by decide
  have pair : arrival frame = frame.map (fun res => .usart (some res)) ++
      [.usart (some 0x0d), .usart (some 0x0a)] := by
    rw [arrival, List.map_append]
    rfl
  rw [List.nil_append] at gathered
  rw [pair, run_append]
  generalize run (step clientId) (frame.map (fun res => .usart (some res))) s = t at gathered
  have cr := receive_shows word gathered.shows 0x0d
  have keeps := receive_gathering word gathered.shows 0x0d
  rw [if_pos rfl] at keeps
  rw [Progress.next, if_pos rfl, keeps] at cr
  have lf := receive_returned word cr.2 0x0a
  rw [if_pos rfl] at lf
  have stored := gathered.shows.stored
  have spells := spells_cstr room stored (gathered.wiped _ room (Nat.le_refl _))
  dsimp only
  rw [run_cons, run_cons, run_nil]
  simp only [step, usartStep_some, keeps, lf]
  simp [gathered.pc, gathered.mode, gathered.boxMsg, ready.pc, ready.boxMsg, osMboxPost,
    osMboxCreate, spells]

end Arrival

section Payload

/-- The string of an event leaves room for its NUL; that of any other frame leaves room for
the 116 characters around it, the number of the device, the texts of time and readings, the
brace and the NUL. -/
def Room (clientId mode : Nat) (time : List UInt8) (r : Readings) (frame : List UInt8) : Prop :=
  if strstr (cstr frame) (ascii "event") then (cstr frame).length + 1 ≤ payloadOutSize
  else 116 + (if mode = Form.feedback.mode then 2 else 0) + (formatInt clientId).length +
    (cstr time).length + (cstr r.temperature).length + (cstr r.humidity).length +
    (cstr frame).length + 2 ≤ payloadOutSize

theorem formatted_length (clientId : Nat) (form : Form) (time : List UInt8) (r : Readings)
    (text : List UInt8) : (formatted clientId form time r text).length =
      116 + (if form = .feedback then 2 else 0) + (formatInt clientId).length +
        (cstr time).length + (cstr r.temperature).length + (cstr r.humidity).length +
        text.length + 1 := by
  have texts : (ascii "\x7b\"messageType\":\"").length = 16 ∧
      (ascii "\",\"deviceNo\":").length = 13 ∧ (ascii ",\"time\":\"").length = 9 ∧
      (ascii "\",\"CurrentTemperature\":").length = 23 ∧
      (ascii ",\"RelativeHumidity\":").length = 20 ∧ (ascii ",\"workState\":").length = 13 ∧
      (ascii ",\"chnls\":").length = 9 ∧ (ascii "\x7d").length = 1 := by decide
  have names : (ascii form.messageType).length = 12 + (if form = .feedback then 2 else 0) ∧
      (ascii form.workState).length = 1 := by
    cases form <;> decide
  simp only [formatted, payloadHead, List.length_append, texts, names]
  omega

theorem formatted_clean (clientId : Nat) (form : Form) (time : List UInt8) (r : Readings)
    {text : List UInt8} (clean : 0 ∉ text) : 0 ∉ formatted clientId form time r text := by
  have brace : 0 ∉ ascii "\x7d" := by decide
  simp only [formatted, List.mem_append, not_or]
  exact ⟨⟨payloadHead_clean clientId form time r, clean⟩, brace⟩

variable {clientId : Nat} {r : Readings} {time frame text : List UInt8} {s : St}

theorem fits_iff (clean : 0 ∉ text) (stored : text.length + 1 ≤ payloadOutSize →
    slice s.payloadOut 0 (text.length + 1) = text ++ [0]) :
    Fits clientId text s ↔ text.length + 1 ≤ payloadOutSize :=
  ⟨fun fits => fits.room, fun room => ⟨room, stored room, measures_of_stored (stored room) clean⟩⟩

theorem message_form (plain : strstr (cstr frame) (ascii "event") = false) {mode : Nat}
    (formats : message clientId mode time r frame = some text) :
    ∃ form : Form, mode = form.mode ∧ text = formatted clientId form time r (cstr frame) := by
  rw [message, plain, if_neg (by decide)] at formats
  split_ifs at formats with one zero three
  · exact ⟨.timing1, one, (Option.some.inj formats).symm⟩
  · exact ⟨.timing0, zero, (Option.some.inj formats).symm⟩
  · exact ⟨.feedback, three, (Option.some.inj formats).symm⟩

/-- For every frame that comes, the text that the task puts into `_payload_out` fits there
with its NUL, and its length is the one `mqtt_thread` computes, just when it leaves `Room`. -/
theorem payload_out (ready : Ready s) (gps : r.gps = some time) (noCr : 0x0d ∉ frame)
    (short : frame.length ≤ 1023) (formats : message clientId s.mode time r frame = some text) :
    Eventually (step clientId) (.task r)
      (fun t => (∃ delays, t.pc = .post delays) ∧
        (Fits clientId text t ↔ Room clientId s.mode time r frame))
      (run (step clientId) (arrival frame) s) := by
  have size : usart3RecLen.toNat = 1024 := rfl
  obtain ⟨pc, mail, mode, spells⟩ := @arrival_run clientId s frame ready noCr (by omega)
  rw [← mode] at formats ⊢
  generalize run (step clientId) (arrival frame) s = t at pc mail spells formats ⊢
  have taken : (step clientId (.task r) t).rx = t.rx ∧ (step clientId (.task r) t).mode = t.mode ∧
      (step clientId (.task r) t).pc = .scan 0 [] := by
    simp only [step, dht11Task, pc, pendStep, osMboxPend, mail, Option.isSome_some, if_true,
      and_self]
  refine eventually_step ?_
  rw [← taken.1] at spells
  rw [← taken.2.1] at formats ⊢
  replace pc := taken.2.2
  generalize step clientId (.task r) t = t at pc spells formats ⊢
  by_cases event : strstr (cstr frame) (ascii "event") = true
  · apply eventually_mono (event_eventually spells pc event)
    rintro u ⟨pc, copied⟩
    rw [message, if_pos event] at formats
    obtain rfl := Option.some.inj formats
    refine ⟨⟨1, pc⟩, ?_⟩
    rw [Room, if_pos event]
    refine fits_iff spells.text (fun room => ?_)
    have bytes : slice u.payloadOut 0 ((cstr frame).length + 1) =
        slice t.rx.buf 0 ((cstr frame).length + 1) :=
      slice_congr (fun j inside => by simpa using copied j (by omega))
    rw [bytes, slice_add, spells.stored]
    simp [slice, spells.closed]
  · have plain := Bool.eq_false_of_not_eq_true event
    obtain ⟨form, same, rfl⟩ := message_form plain formats
    apply eventually_mono (channels_eventually spells pc plain gps same)
    rintro u ⟨pc, starts⟩
    have feedback : t.mode = Form.feedback.mode ↔ form = .feedback := by
      rw [same]
      cases form <;> decide
    refine ⟨⟨2, pc⟩, (fits_iff (formatted_clean _ _ _ _ spells.text) (fun _ => ?_)).trans ?_⟩
    · rw [Starts, List.length_append, List.length_singleton] at starts
      exact starts
    · rw [Room, plain, if_neg (by decide), formatted_length]
      simp only [feedback]

/-- An event of 515 characters, the longest that leaves room for its NUL. -/
def longEvent : List UInt8 := ascii "event" ++ List.replicate 510 0x61

theorem payload_out_long :
    Eventually (step 7) (.task ⟨some [], [], []⟩)
      (fun t => (∃ delays, t.pc = .post delays) ∧ Fits 7 longEvent t)
      (run (step 7) (arrival longEvent) (start (fun _ => 0) 0)) := by
  have room : Room 7 0 [] ⟨some [], [], []⟩ longEvent := by
    rw [Room, if_pos (by decide +kernel)]
    decide +kernel
  have text : message 7 0 [] ⟨some [], [], []⟩ longEvent = some longEvent := by decide +kernel
  apply eventually_mono (payload_out (s := start (fun _ => 0) 0) ⟨rfl, fun _ _ => rfl, rfl, rfl⟩ rfl
    (by decide +kernel) (by decide +kernel) text)
  rintro t ⟨posts, fits⟩
  exact ⟨posts, fits.mpr room⟩

/-- An event of 516 characters, which the receiver takes, leaves no room for the NUL. -/
theorem payload_out_overruns : ∃ frame : List UInt8, frame.length ≤ 1023 ∧ 0x0d ∉ frame ∧
    ∃ text, message 7 0 [] ⟨some [], [], []⟩ frame = some text ∧ ∀ t, ¬ Fits 7 text t := by
  refine ⟨ascii "event" ++ List.replicate 511 0x61, by decide +kernel, by decide +kernel, _,
    if_pos (by decide +kernel), fun t fits => ?_⟩
  have long : (cstr (ascii "event" ++ List.replicate 511 0x61)).length = 516 := by decide +kernel
  have room := fits.room
  rw [long] at room
  exact absurd room (by decide)

end Payload

end BoxFirmware.Dht11Task
