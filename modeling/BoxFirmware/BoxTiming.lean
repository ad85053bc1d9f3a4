import BoxFirmware.Dht11Frames

/-! What becomes of the payloads that `dht11_task` posts to `BOX_TIMING_PTR`. Every post is
a pointer to the one buffer `_payload_out`, and `mqtt_thread` reads the buffer when it
comes round to its poll. -/
namespace BoxFirmware.Dht11Task
open ByteMem CText GuardedRun MqttPacket MqttThread OsMbox Usart

/-- The step writes a byte of `_payload_out`. -/
def Writes (s : St) : Bool :=
  match s.pc with
  | .head _ _ rest => !rest.isEmpty
  | .chnls _ _ i => s.rx.buf i ≠ 0
  | .tail _ _ rest => !rest.isEmpty
  | .copy i => i < payloadOutSize
  | _ => false

def Poll.reads : Poll → Bool
  | .measure _ => true
  | .serialize _ _ => true
  | _ => false

/-- A payload that was posted has not been read to its end. -/
abbrev Unread (s : St) : Prop :=
  s.poll.reads = true ∨ s.boxTiming.pend = .woken (some ()) ∨ s.boxTiming.osEventPtr = some ()

/-- A zero ends the string in `_payload_out`, and a publish of it fits the packet buffer. -/
@[irreducible] def Sendable (payloadOut : Mem) : Prop :=
  0 ∈ slice payloadOut 0 payloadOutSize ∧ publishFits (payloadText payloadOut).length = true

instance (payloadOut : Mem) : Decidable (Sendable payloadOut) :=
  decidable_of_iff (0 ∈ slice payloadOut 0 payloadOutSize ∧
    publishFits (payloadText payloadOut).length = true) (by rw [Sendable])

def Pc.posts : Pc → Bool
  | .post _ => true
  | _ => false

def Poll.sent : Poll → Option (List UInt8)
  | .send text => some text
  | _ => none

/-- A payload is written only when the last one has been read, a post finds room and a
payload that can be sent, and a publish goes out whole. -/
def PostsKept : Label → St → Prop
  | .task _, s => (Writes s = true → ¬ Unread s) ∧ (s.pc.posts = true →
      (s.boxTiming.pend = .waiting ∨ s.boxTiming.osEventPtr = none) ∧ Sendable s.payloadOut)
  | .poll rc, s => ∀ text ∈ s.poll.sent, rc = publishLen text
  | _, _ => True

instance : (l : Label) → (s : St) → Decidable (PostsKept l s)
  | .task _, s => inferInstanceAs (Decidable ((Writes s = true → ¬ Unread s) ∧
      (s.pc.posts = true →
        (s.boxTiming.pend = .waiting ∨ s.boxTiming.osEventPtr = none) ∧ Sendable s.payloadOut)))
  | .poll rc, s => inferInstanceAs (Decidable (∀ text ∈ s.poll.sent, rc = publishLen text))
  | .usart _, _ => inferInstanceAs (Decidable True)
  | .setMode _, _ => inferInstanceAs (Decidable True)
  | .tick, _ => inferInstanceAs (Decidable True)

/-- The payload that `mqtt_thread` has taken. -/
def Poll.taken (payload : List UInt8) : Poll → List (List UInt8)
  | .measure _ => [payload]
  | .serialize _ _ => [payload]
  | .send text => [text]
  | _ => []

def Pend.handed (payload : List UInt8) : Pend Unit → List (List UInt8)
  | .woken (some _) => [payload]
  | _ => []

/-- The payloads between their post and their publish, oldest first: the one in the packet,
the one handed to the waiting thread, and the one in the mailbox. -/
def underWay (s : St) : List (List UInt8) :=
  s.poll.taken (payloadText s.payloadOut) ++
    Pend.handed (payloadText s.payloadOut) s.boxTiming.pend ++
    if s.boxTiming.osEventPtr = some () then [payloadText s.payloadOut] else []

def Reading (payload : List UInt8) : Poll → Prop
  | .measure i => i ≤ payload.length
  | .serialize len text => len = payload.length ∧ text.length ≤ len ∧
      text = payload.take text.length
  | _ => True

def Waits (pend : Pend Unit) (osEventPtr : Option Unit) (poll : Poll) : Prop :=
  match pend with
  | .idle => poll ≠ .pending
  | .waiting => poll = .pending ∧ osEventPtr = none
  | .woken _ => poll = .pending

structure Delivers (s : St) : Prop where
  count : s.posts.map Post.text = s.published ++ underWay s
  sendable : Unread s → Sendable s.payloadOut
  reading : Reading (payloadText s.payloadOut) s.poll
  waits : Waits s.boxTiming.pend s.boxTiming.osEventPtr s.poll

theorem Waits.idle {pend : Pend Unit} {osEventPtr : Option Unit} {poll : Poll}
    (waits : Waits pend osEventPtr poll) (busy : poll ≠ .pending) : pend = .idle := by
  cases pend with
  | idle => rfl
  | waiting => exact absurd waits.1 busy
  | woken pmsg => exact absurd waits busy

theorem delivers_start (buf : Mem) (mode : Nat) : Delivers (start buf mode) where
  count := by simp [underWay, start, osMboxCreate, Poll.taken, Pend.handed]
  sendable := by simp [Unread, start, Poll.reads, osMboxCreate]
  reading := trivial
  waits := nofun

section Payload

variable {payloadOut : Mem}

theorem payloadText_byte (sendable : Sendable payloadOut) {i : Nat}
    (inside : i ≤ (payloadText payloadOut).length) :
    (payloadOut i = 0 → i = (payloadText payloadOut).length) ∧
      (payloadOut i ≠ 0 → i < (payloadText payloadOut).length ∧
        (payloadText payloadOut).take i ++ [payloadOut i] = (payloadText payloadOut).take (i + 1)) := by
  rw [Sendable] at sendable
  obtain ⟨rest, split⟩ := cstr_split sendable.1
  rw [← payloadText_eq] at split
  have clean : 0 ∉ payloadText payloadOut := by
    rw [payloadText_eq]
    exact zero_not_mem_cstr _
  have size := congrArg List.length split
  rw [slice_length, List.length_append, List.length_cons] at size
  have entry := slice_getElem? payloadOut 0 payloadOutSize i (by omega)
  rw [split, Nat.zero_add] at entry
  rcases Nat.eq_or_lt_of_le inside with last | before
  · subst last
    have zero : payloadOut (payloadText payloadOut).length = 0 := by
      rw [List.getElem?_append_right (Nat.le_refl _), Nat.sub_self] at entry
      exact (Option.some.inj entry).symm
    exact ⟨fun _ => rfl, fun byte => absurd zero byte⟩
  · rw [List.getElem?_append_left before] at entry
    have byte : payloadOut i ≠ 0 := fun zero => clean (by
      rw [zero] at entry
      exact List.mem_of_getElem? entry)
    refine ⟨fun zero => absurd zero byte, fun _ => ⟨before, ?_⟩⟩
    rw [List.take_add_one, entry]
    rfl

end Payload

section Steps

variable {s : St}

theorem delivers_polled (delivers : Delivers s) (poll : s.poll = .idle) (rc : Int) :
    Delivers (pollStep rc s) := by
  have count := delivers.count
  have idle : s.boxTiming.pend = .idle := delivers.waits.idle (by simp [poll])
  simp only [underWay, poll, idle, Poll.taken, Pend.handed, List.nil_append] at count
  simp only [pollStep, poll]
  cases message : s.boxTiming.osEventPtr with
  | none =>
    simp only [osMboxPend, message]
    refine ⟨?_, by simp [Unread, Poll.reads], trivial, ⟨rfl, rfl⟩⟩
    simpa [underWay, message, Poll.taken, Pend.handed] using count
  | some pmsg =>
    simp only [osMboxPend, message]
    refine ⟨?_, fun _ => delivers.sendable (by simp [Unread, message]), Nat.zero_le _, ?_⟩
    · simpa [underWay, message, idle, Poll.taken, Pend.handed] using count
    · simp [Waits, idle]

theorem delivers_pending (delivers : Delivers s) (poll : s.poll = .pending) (rc : Int) :
    Delivers (pollStep rc s) := by
  have count := delivers.count
  simp only [underWay, poll, Poll.taken, List.nil_append] at count
  simp only [pollStep, poll]
  split
  · rename_i pmsg woken
    rw [woken] at count
    cases pmsg with
    | none =>
      refine ⟨?_, fun unread => delivers.sendable ?_, trivial, nofun⟩
      · simpa [underWay, Poll.taken, Pend.handed] using count
      · simpa [Unread, Poll.reads, woken, poll] using unread
    | some pmsg =>
      refine ⟨?_, fun _ => delivers.sendable (by simp [Unread, woken]), Nat.zero_le _, nofun⟩
      simpa [underWay, Poll.taken, Pend.handed] using count
  · exact delivers

theorem Waits.go {pend : Pend Unit} {osEventPtr : Option Unit} {poll : Poll}
    (waits : Waits pend osEventPtr poll) (busy : poll ≠ .pending) (poll' : Poll)
    (busy' : poll' ≠ .pending) : Waits pend osEventPtr poll' := by
  rw [waits.idle busy]
  exact busy'

theorem delivers_measure (delivers : Delivers s) {i : Nat} (poll : s.poll = .measure i)
    (rc : Int) : Delivers (pollStep rc s) := by
  have count := delivers.count
  have reading := delivers.reading
  have go := delivers.waits.go (by simp [poll])
  have sendable := delivers.sendable (by simp [Unread, poll, Poll.reads])
  simp only [underWay, poll, Poll.taken] at count
  rw [poll] at reading
  obtain ⟨last, more⟩ := payloadText_byte sendable reading
  simp only [pollStep, poll]
  split
  · rename_i byte
    exact ⟨count, fun _ => sendable, (more byte).1, go _ nofun⟩
  · rename_i zero
    have whole := last (not_not.mp zero)
    have fits : publishFits i = true := by
      rw [whole]
      rw [Sendable] at sendable
      exact sendable.2
    rw [if_pos fits]
    exact ⟨count, fun _ => sendable, ⟨whole, Nat.zero_le _, by simp⟩, go _ nofun⟩

theorem delivers_serialize (delivers : Delivers s) {len : Nat} {text : List UInt8}
    (poll : s.poll = .serialize len text) (rc : Int) : Delivers (pollStep rc s) := by
  have count := delivers.count
  have reading := delivers.reading
  have go := delivers.waits.go (by simp [poll])
  have sendable := delivers.sendable (by simp [Unread, poll, Poll.reads])
  simp only [underWay, poll, Poll.taken] at count
  rw [poll] at reading
  obtain ⟨size, fits, front⟩ := reading
  simp only [pollStep, poll]
  split
  · rename_i more
    have inside : text.length < (payloadText s.payloadOut).length := size ▸ more
    obtain ⟨last, next⟩ := payloadText_byte sendable inside.le
    have byte : s.payloadOut text.length ≠ 0 := fun zero => (last zero ▸ inside).false
    have longer := (next byte).2
    rw [← front] at longer
    refine ⟨count, fun _ => sendable, ⟨size, ?_, by simpa using longer⟩, go _ nofun⟩
    rw [List.length_append]
    exact more
  · rename_i whole
    have text_eq : text = payloadText s.payloadOut := by
      rw [front, List.take_of_length_le (by omega)]
    refine ⟨?_, fun unread => delivers.sendable ?_, trivial, go _ nofun⟩
    · simpa [underWay, Poll.taken, text_eq] using count
    · rcases unread with reads | handed
      · cases reads
      · exact .inr handed

theorem delivers_send (delivers : Delivers s) {text : List UInt8} (poll : s.poll = .send text)
    {rc : Int} (whole : rc = publishLen text) : Delivers (pollStep rc s) := by
  have count := delivers.count
  simp only [underWay, poll, Poll.taken] at count
  simp only [pollStep, poll, if_pos whole]
  refine ⟨?_, fun unread => delivers.sendable ?_, trivial, delivers.waits.go (by simp [poll]) _ nofun⟩
  · simpa [underWay, Poll.taken] using count
  · rcases unread with reads | handed
    · cases reads
    · exact .inr handed

theorem delivers_poll (delivers : Delivers s) {rc : Int} (kept : PostsKept (.poll rc) s) :
    Delivers (pollStep rc s) := by
  cases poll : s.poll with
  | idle => exact delivers_polled delivers poll rc
  | pending => exact delivers_pending delivers poll rc
  | measure i => exact delivers_measure delivers poll rc
  | serialize len text => exact delivers_serialize delivers poll rc
  | send text => exact delivers_send delivers poll (kept text (by simp [poll, Poll.sent]))

structure Aside (s s' : St) : Prop where
  boxTiming : s'.boxTiming = s.boxTiming
  poll : s'.poll = s.poll
  posts : s'.posts = s.posts
  published : s'.published = s.published
  payloadOut : Writes s = false → s'.payloadOut = s.payloadOut

theorem delivers_aside {s' : St} (aside : Aside s s') (kept : Writes s = true → ¬ Unread s)
    (delivers : Delivers s) : Delivers s' := by
  obtain ⟨boxTiming, poll, posts, published, payloadOut⟩ := aside
  have unread : Unread s' ↔ Unread s := by rw [Unread, Unread, boxTiming, poll]
  have waits : Waits s'.boxTiming.pend s'.boxTiming.osEventPtr s'.poll := by
    rw [boxTiming, poll]
    exact delivers.waits
  cases writes : Writes s with
  | false =>
    have payload := payloadOut writes
    refine ⟨?_, fun h => payload ▸ delivers.sendable (unread.mp h), ?_, waits⟩
    · rw [posts, published, underWay, payload, poll, boxTiming]
      exact delivers.count
    · rw [payload, poll]
      exact delivers.reading
  | true =>
    -- nothing that is under way lies in the buffer
    have free := kept writes
    have count := delivers.count
    simp only [Unread, not_or] at free
    obtain ⟨reads, woken, empty⟩ := free
    have taken : ∀ payload payload', s.poll.taken payload = s.poll.taken payload' := by
      intro payload payload'
      cases at_ : s.poll <;> first | rfl | exact absurd (at_ ▸ rfl) reads
    have handed : ∀ payload, Pend.handed payload s.boxTiming.pend = [] := by
      intro payload
      cases pend : s.boxTiming.pend with
      | idle => rfl
      | waiting => rfl
      | woken pmsg =>
        cases pmsg with
        | none => rfl
        | some pmsg => exact absurd pend woken
    refine ⟨?_, fun h => absurd (unread.mp h) (kept writes), ?_, waits⟩
    · rw [posts, published, underWay, poll, boxTiming, handed, if_neg empty, taken _
        (payloadText s.payloadOut)]
      rwa [underWay, handed, if_neg empty] at count
    · rw [poll]
      cases at_ : s.poll <;> first | trivial | exact absurd (at_ ▸ rfl) reads

theorem delivers_usart (delivers : Delivers s) (dr : Option UInt8) : Delivers (usartStep dr s) :=
  ⟨delivers.count, delivers.sendable, delivers.reading, delivers.waits⟩

theorem dht11Task_aside (clientId : Nat) (r : Readings) (posts : s.pc.posts = false) :
    Aside s (dht11Task clientId r s) := by
  cases pc : s.pc with
  | pend => simpa only [dht11Task, pc] using ⟨rfl, rfl, rfl, rfl, fun _ => rfl⟩
  | blocked =>
    simp only [dht11Task, pc, blockedStep]
    split <;> exact ⟨rfl, rfl, rfl, rfl, fun _ => rfl⟩
  | scan i text =>
    simp only [dht11Task, pc, scanStep]
    split <;> exact ⟨rfl, rfl, rfl, rfl, fun _ => rfl⟩
  | rearm => simpa only [dht11Task, pc] using ⟨rfl, rfl, rfl, rfl, fun _ => rfl⟩
  | waitGps =>
    simp only [dht11Task, pc, waitGpsStep]
    split <;> exact ⟨rfl, rfl, rfl, rfl, fun _ => rfl⟩
  | test form =>
    simp only [dht11Task, pc, testStep]
    split <;> exact ⟨rfl, rfl, rfl, rfl, fun _ => rfl⟩
  | head form k rest =>
    simp only [dht11Task, pc, headStep]
    cases rest with
    | nil => exact ⟨rfl, rfl, rfl, rfl, fun _ => rfl⟩
    | cons b rest => exact ⟨rfl, rfl, rfl, rfl, fun quiet => by simp [Writes, pc] at quiet⟩
  | chnls form k i =>
    simp only [dht11Task, pc, chnlsStep]
    split
    · rename_i byte
      exact ⟨rfl, rfl, rfl, rfl, fun quiet => by simp [Writes, pc, byte] at quiet⟩
    · exact ⟨rfl, rfl, rfl, rfl, fun _ => rfl⟩
  | tail form k rest =>
    simp only [dht11Task, pc, tailStep]
    cases rest with
    | nil => exact ⟨rfl, rfl, rfl, rfl, fun _ => rfl⟩
    | cons b rest => exact ⟨rfl, rfl, rfl, rfl, fun quiet => by simp [Writes, pc] at quiet⟩
  | copy i =>
    simp only [dht11Task, pc, copyStep]
    split
    · rename_i inside
      exact ⟨rfl, rfl, rfl, rfl, fun quiet => by simp [Writes, pc, inside] at quiet⟩
    · exact ⟨rfl, rfl, rfl, rfl, fun _ => rfl⟩
  | rearmEvent => simpa only [dht11Task, pc] using ⟨rfl, rfl, rfl, rfl, fun _ => rfl⟩
  | clear delays i =>
    simp only [dht11Task, pc, clearStep]
    split <;> exact ⟨rfl, rfl, rfl, rfl, fun _ => rfl⟩
  | post delays => simp [pc, Pc.posts] at posts
  | delay delays => simpa only [dht11Task, pc] using ⟨rfl, rfl, rfl, rfl, fun _ => rfl⟩

theorem delivers_post (delivers : Delivers s) (delays : Nat)
    (room : s.boxTiming.pend = .waiting ∨ s.boxTiming.osEventPtr = none)
    (sendable : Sendable s.payloadOut) : Delivers (postStep delays s) := by
  have count := delivers.count
  have waits := delivers.waits
  have empty : s.boxTiming.osEventPtr = none := by
    rcases room with waiting | none
    · rw [waiting] at waits
      exact waits.2
    · exact none
  rw [underWay, empty, if_neg nofun, List.append_nil] at count
  refine ⟨?_, fun _ => sendable, delivers.reading, ?_⟩
  · cases pend : s.boxTiming.pend <;>
      simp [postStep, underWay, osMboxPost, pend, empty, count, Pend.handed]
  · cases pend : s.boxTiming.pend with
    | idle =>
      rw [pend] at waits
      simpa [postStep, osMboxPost, pend, empty, Waits] using waits
    | waiting =>
      rw [pend] at waits
      simpa [postStep, osMboxPost, pend, Waits] using waits.1
    | woken pmsg =>
      rw [pend] at waits
      simpa [postStep, osMboxPost, pend, empty, Waits] using waits

theorem delivers_tick (delivers : Delivers s) :
    Delivers { s with boxTiming := osTimeout s.boxTiming } := by
  have count := delivers.count
  have waits := delivers.waits
  cases pend : s.boxTiming.pend with
  | waiting =>
    rw [pend] at waits
    rw [underWay, pend] at count
    simp only [osTimeout, pend]
    refine ⟨count, fun unread => delivers.sendable ?_, delivers.reading, waits.1⟩
    rcases unread with reads | woken | message
    · exact .inl reads
    · cases woken
    · exact .inr (.inr message)
  | idle =>
    simp only [osTimeout, pend]
    exact delivers
  | woken pmsg =>
    simp only [osTimeout, pend]
    exact delivers

end Steps

section Runs

variable (clientId : Nat)

theorem delivers_step (label : Label) (s : St) (kept : PostsKept label s)
    (delivers : Delivers s) : Delivers (step clientId label s) := by
  cases label with
  | usart dr => exact delivers_usart delivers dr
  | task r =>
    cases posts : s.pc.posts with
    | false => exact delivers_aside (dht11Task_aside clientId r posts) kept.1 delivers
    | true =>
      obtain ⟨room, sendable⟩ := kept.2 posts
      cases pc : s.pc with
      | post delays =>
        simp only [step, dht11Task, pc]
        exact delivers_post delivers delays room sendable
      | _ => simp [pc, Pc.posts] at posts
  | setMode value =>
    exact ⟨delivers.count, delivers.sendable, delivers.reading, delivers.waits⟩
  | poll rc => exact delivers_poll delivers kept
  | tick => exact delivers_tick delivers

/-- The steps that `mqtt_thread` has before it on what is under way, with `size` the length
of the payload. -/
def Poll.ahead (size : Nat) : Poll → Nat
  | .idle => 0
  | .pending => 1
  | .measure i => 2 * size + 3 - i
  | .serialize len text => len + 2 - text.length
  | .send _ => 1

def ahead (s : St) : Nat :=
  s.poll.ahead (payloadText s.payloadOut).length +
    (2 * (payloadText s.payloadOut).length + 5) *
      ((Pend.handed [] s.boxTiming.pend).length + s.boxTiming.osEventPtr.toList.length)

def wholeRc (s : St) : Int :=
  match s.poll with
  | .send text => publishLen text
  | _ => 0

theorem ahead_less {s : St} (delivers : Delivers s) (more : underWay s ≠ []) :
    ahead (pollStep (wholeRc s) s) < ahead s := by
  have reading := delivers.reading
  have waits := delivers.waits
  cases poll : s.poll with
  | idle =>
    cases message : s.boxTiming.osEventPtr with
    | none =>
      have idle := waits.idle (by simp [poll])
      exact absurd (by simp [underWay, poll, Poll.taken, idle, Pend.handed, message]) more
    | some pmsg =>
      simp only [ahead, pollStep, poll, message, osMboxPend, Poll.ahead, Option.isSome_some, if_true,
        Option.toList_some, Option.toList_none, List.length_cons, List.length_nil, Nat.mul_add]
      omega
  | pending =>
    cases pend : s.boxTiming.pend with
    | idle =>
      rw [pend, poll] at waits
      exact absurd rfl waits
    | waiting =>
      rw [pend] at waits
      exact absurd (by simp [underWay, poll, Poll.taken, pend, Pend.handed, waits.2]) more
    | woken pmsg =>
      cases pmsg with
      | none => simp [ahead, pollStep, poll, pend, Poll.ahead, Pend.handed]
      | some pmsg =>
        simp only [ahead, pollStep, poll, pend, Poll.ahead, Pend.handed, Option.isSome_some, if_true,
          List.length_cons, List.length_nil, Nat.mul_add]
        omega
  | measure i =>
    rw [poll] at reading
    have sendable := delivers.sendable (by simp [Unread, poll, Poll.reads])
    obtain ⟨last, next⟩ := payloadText_byte sendable reading
    simp only [ahead, pollStep, poll]
    split
    · rename_i byte
      have inside := (next byte).1
      simp only [Poll.ahead]
      omega
    · rename_i zero
      have whole := last (not_not.mp zero)
      split <;> simp only [Poll.ahead, List.length_nil] <;> omega
  | serialize len text =>
    rw [poll] at reading
    have fits := reading.2.1
    simp only [ahead, pollStep, poll]
    split <;> simp only [Poll.ahead, List.length_append, List.length_singleton] <;> omega
  | send text =>
    simp [ahead, pollStep, poll, Poll.ahead]

theorem pollStep_posts (rc : Int) (s : St) : (pollStep rc s).posts = s.posts := by
  unfold pollStep
  split
  · rfl
  · split <;> rfl
  · split <;> rfl
  · split <;> rfl
  · rfl

theorem delivers_drains {s : St} (delivers : Delivers s) :
    ∃ rcs : List Int, (run pollStep rcs s).published = s.posts.map Post.text := by
  induction n : ahead s using Nat.strong_induction_on generalizing s with
  | h n ih =>
    by_cases more : underWay s = []
    · refine ⟨[], ?_⟩
      rw [run_nil, delivers.count, more, List.append_nil]
    · have next : Delivers (pollStep (wholeRc s) s) := by
        refine delivers_poll delivers (fun text sent => ?_)
        cases poll : s.poll <;> simp_all [Poll.sent, wholeRc]
      have less := ahead_less delivers more
      obtain ⟨rcs, published⟩ := ih _ (n ▸ less) next rfl
      exact ⟨wholeRc s :: rcs, by rw [run_cons, published, pollStep_posts]⟩

/-- Every payload that was posted is published once, in order and with the text it had then,
or is still under way and needs only the polls of `mqtt_thread`, as long as no payload is
written over one that has yet to be read, every post finds room for a payload that can be
sent, and every publish goes out whole. -/
theorem posts_published (buf : Mem) (mode : Nat) (labels : List Label)
    (kept : Along (step clientId) PostsKept labels (start buf mode)) :
    (run (step clientId) labels (start buf mode)).posts.map Post.text =
        (run (step clientId) labels (start buf mode)).published ++
          underWay (run (step clientId) labels (start buf mode)) ∧
      ∃ rcs : List Int, (run pollStep rcs (run (step clientId) labels (start buf mode))).published =
        (run (step clientId) labels (start buf mode)).posts.map Post.text := by
  have delivers := run_invariant (delivers_step clientId) kept (delivers_start buf mode)
  exact ⟨delivers.count, delivers_drains delivers⟩

end Runs

theorem mailReport_payloadText (b : Board) (env : Env) (st : MqttThread.St) (payloadOut : Mem)
    (mail : env.mail = some (slice payloadOut 0 payloadOutSize)) :
    mailReport b env st =
      freeSramin b b.payloadOutAddr (sendPublish env .mail (payloadText payloadOut) st) := by
  rw [payloadText_eq]
  unfold mailReport
  rw [mail]

def pollThrough (text : List UInt8) : List Label := List.replicate 40 (.poll (publishLen text))

/-- Steps of `mqtt_thread` and of the task in turn. -/
def pollAmid (text : List UInt8) (n : Nat) : List Label :=
  (List.replicate n (.poll (publishLen text) :: work 1)).flatten

/-- An event frame is posted while `mqtt_thread` polls, and the next frame comes before the text
is published. -/
def eventAmid : List Label :=
  .poll 0 :: arrive (ascii "eve") ++ [.tick, .poll 0, .poll 0] ++ arrive (ascii "nt\r\n") ++
    pollAmid (ascii "event") 10 ++ work 1540 ++ pollAmid (ascii "event") 5 ++
    arrive (ascii "12\r\n") ++ pollAmid (ascii "event") 15

theorem posts_published_amid :
    (run (step 7) eventAmid (start (fun _ => 0) 0)).published = [ascii "event"] ∧
      (run (step 7) eventAmid (start (fun _ => 0) 0)).posts.map Post.text =
        (run (step 7) eventAmid (start (fun _ => 0) 0)).published ++
          underWay (run (step 7) eventAmid (start (fun _ => 0) 0)) :=
  ⟨by decide +kernel, (posts_published 7 (fun _ => 0) 0 eventAmid (by decide +kernel)).1⟩

def eventThenFrame : List Label :=
  arrive (ascii "event\r\n") ++ work 1560 ++ arrive (ascii "12\r\n") ++ work 9 ++
    pollThrough (ascii "event")

theorem post_overwritten :
    (run (step 7) eventThenFrame (start (fun _ => 0) 0)).posts.map Post.text = [ascii "event"] ∧
      (run (step 7) eventThenFrame (start (fun _ => 0) 0)).published = [ascii "\x7bvent"] := by
  decide +kernel

end BoxFirmware.Dht11Task
