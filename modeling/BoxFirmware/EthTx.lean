import BoxFirmware.ByteMem
import BoxFirmware.GuardedRun
import BoxFirmware.RingQueue

/-! `low_level_output` of `ethernetif.c` with `ETH_Tx_Packet` of `lan8720.c`, and the DMA
that transmits from the same ring. The copy of the chain goes byte by byte, and so does
the read of the DMA; `ETH_Tx_Packet` is one step, as the DMA looks at nothing of a
descriptor but its OWN bit until that is set. -/
namespace BoxFirmware.EthTx
open ByteMem GuardedRun RingQueue

def ethTxBufNb : Nat := 5
def ethTxBufSize : Nat := 1524

/-- A chain whose payloads fit one transmit buffer together. -/
structure Pbuf where
  payloads : List (List UInt8)
  fits : payloads.flatten.length ≤ ethTxBufSize

def Pbuf.bytes (p : Pbuf) : List UInt8 := p.payloads.flatten

inductive Err
  | ok
  | mem
  deriving DecidableEq

structure Desc where
  own : Bool
  ls : Bool
  fs : Bool
  controlBufferSize : Nat

/-- A call of `low_level_output`: its chain, the buffer it got, the length `l` copied so
far, what is left of `q->payload`, and the pbufs behind `q`. -/
inductive Output
  | idle
  | copy (p : Pbuf) (buffer l : Nat) (payload : List UInt8) (next : List (List UInt8))

/-- The ring, the call that runs, the DMA with the bytes it has read of its descriptor's
buffer, the frames on the wire, and the calls that returned. -/
structure St where
  desc : Nat → Desc
  txBuff : Mem
  dmaTxDescToSet : Nat
  output : Output
  current : Nat
  reading : Option (List UInt8)
  wire : List (List UInt8)
  calls : List (Pbuf × Err)

def buffer1Addr (i : Nat) : Nat := i * ethTxBufSize
def nextDesc (i : Nat) : Nat := (i + 1) % ethTxBufNb

def ethTxPacket (frameLength : Nat) (s : St) : Bool × St :=
  let d := s.desc s.dmaTxDescToSet
  if d.own then (false, s)
  else
    (true, { s with
      desc := Function.update s.desc s.dmaTxDescToSet
        { own := true, ls := true, fs := true, controlBufferSize := frameLength % 2^13 }
      dmaTxDescToSet := nextDesc s.dmaTxDescToSet })

def lowLevelOutput (p : Pbuf) (s : St) : St :=
  match s.output with
  | .idle => { s with output := .copy p (buffer1Addr s.dmaTxDescToSet) 0 [] p.payloads }
  | _ => s

def outputStep (s : St) : St :=
  match s.output with
  | .idle => s
  | .copy p buffer l (b :: payload) next =>
    { s with
      txBuff := Function.update s.txBuff (buffer + l) b
      output := .copy p buffer (l + 1) payload next }
  | .copy p buffer l [] (q :: next) => { s with output := .copy p buffer l q next }
  | .copy p _ l [] [] =>
    let r := ethTxPacket (l % 2^16) s
    { r.2 with output := .idle, calls := s.calls ++ [(p, if r.1 then .ok else .mem)] }

/-- The DMA turns to its descriptor once it owns it, reads the buffer, and returns the
descriptor with the frame on the wire. -/
def dmaStep (s : St) : St :=
  let d := s.desc s.current
  match s.reading with
  | none => if d.own then { s with reading := some [] } else s
  | some bytes =>
    if bytes.length < d.controlBufferSize then
      { s with reading := some (bytes ++ [s.txBuff (buffer1Addr s.current + bytes.length)]) }
    else
      { s with
        desc := Function.update s.desc s.current { d with own := false }
        current := nextDesc s.current
        reading := none
        wire := s.wire ++ [bytes] }

inductive Label
  | call (p : Pbuf)
  | cpu
  | dma

def step : Label → St → St
  | .call p, s => lowLevelOutput p s
  | .cpu, s => outputStep s
  | .dma, s => dmaStep s

/-- After `ETH_DMATxDescChainInit`, over buffers with anything in them. -/
def start (txBuff : Mem) : St where
  desc _ := ⟨false, false, false, 0⟩
  txBuff := txBuff
  dmaTxDescToSet := 0
  output := .idle
  current := 0
  reading := none
  wire := []
  calls := []

/-- The chains of the calls that returned `ERR_OK`. -/
def accepted (s : St) : List (List UInt8) :=
  (s.calls.filter (fun call => call.2 = .ok)).map (fun call => call.1.bytes)

def readOf (s : St) (i : Nat) : List UInt8 := if i = s.current then s.reading.getD [] else []

/-- What the DMA would send of a slot if nobody wrote to the buffer any more. -/
def frame (s : St) (i : Nat) : List UInt8 :=
  readOf s i ++ slice s.txBuff (buffer1Addr i + (readOf s i).length)
    ((s.desc i).controlBufferSize - (readOf s i).length)

/-- The frames that wait for the DMA, in the order it comes to them. -/
def inFlight (s : St) : List (List UInt8) :=
  ((List.range ethTxBufNb).filter
    (fun k => (s.desc ((s.current + k) % ethTxBufNb)).own)).map
      (fun k => frame s ((s.current + k) % ethTxBufNb))

/-- A byte is copied only to a buffer that the DMA does not own, behind the end of the frame
in it, or over a byte that the DMA has read. -/
def Spares : Label → St → Prop
  | .cpu, s => match s.output with
    | .copy _ _ l (_ :: _) _ => (s.desc s.dmaTxDescToSet).own = true →
        (s.desc s.dmaTxDescToSet).controlBufferSize ≤ l ∨ l < (s.reading.getD []).length
    | _ => True
  | _, _ => True

section Sends

structure Holds (s : St) (i : Nat) (f : List UInt8) : Prop where
  frame : frame s i = f
  read : (readOf s i).length ≤ (s.desc i).controlBufferSize
  size : (s.desc i).controlBufferSize ≤ ethTxBufSize

def Copies (txBuff : Mem) (dmaTxDescToSet : Nat) : Output → Prop
  | .idle => True
  | .copy p buffer l payload next => buffer = buffer1Addr dmaTxDescToSet ∧
      ∃ front, slice txBuff buffer l = front ∧ front ++ payload ++ next.flatten = p.bytes

structure Sends (s : St) (queue : List (List UInt8)) : Prop where
  queued : Queued ethTxBufNb (fun i => (s.desc i).own) (Holds s) s.current s.dmaTxDescToSet queue
  count : accepted s = s.wire ++ queue
  reading : s.reading ≠ none → (s.desc s.current).own = true
  copies : Copies s.txBuff s.dmaTxDescToSet s.output

theorem sends_start (txBuff : Mem) : Sends (start txBuff) [] where
  queued := queued_nil (Nat.succ_pos 4) (fun _ _ => rfl)
  count := rfl
  reading := nofun
  copies := trivial

theorem Holds.congr {s s' : St} {i : Nat} {f : List UInt8} (held : Holds s i f)
    (desc : s'.desc i = s.desc i) (txBuff : s'.txBuff = s.txBuff)
    (read : readOf s' i = readOf s i) : Holds s' i f := by
  refine ⟨?_, ?_, ?_⟩
  · rw [← held.frame, EthTx.frame, EthTx.frame, desc, txBuff, read]
  · rw [desc, read]
    exact held.read
  · rw [desc]
    exact held.size

theorem own_update (desc : Nat → Desc) (a : Nat) (d : Desc) :
    (fun i => (Function.update desc a d i).own) =
      Function.update (fun i => (desc i).own) a d.own := by
  funext i
  by_cases here : i = a
  · rw [here, Function.update_self, Function.update_self]
  · rw [Function.update_of_ne here, Function.update_of_ne here]

variable {s : St} {queue : List (List UInt8)}

theorem sends_call (sends : Sends s queue) (p : Pbuf) : Sends (lowLevelOutput p s) queue := by
  unfold lowLevelOutput
  split
  · exact ⟨sends.queued.imp (fun _ _ _ held => held.congr rfl rfl rfl), sends.count,
      sends.reading, rfl, [], rfl, rfl⟩
  · exact sends

theorem holds_update {i : Nat} {f : List UInt8} (held : Holds s i f) (a : Nat) (b : UInt8)
    (output : Output) (spare : ∀ j, (readOf s i).length ≤ j → j < (s.desc i).controlBufferSize →
      buffer1Addr i + j ≠ a) :
    Holds { s with txBuff := Function.update s.txBuff a b, output := output } i f := by
  refine ⟨?_, held.read, held.size⟩
  rw [← held.frame]
  refine congrArg (readOf s i ++ ·) (slice_congr (fun j
    (inside : j < (s.desc i).controlBufferSize - (readOf s i).length) =>
      Function.update_of_ne ?_ _ _))
  have away := spare ((readOf s i).length + j) (by omega) (by omega)
  rw [← Nat.add_assoc] at away
  exact away

theorem sends_byte (sends : Sends s queue) {p : Pbuf} {buffer l : Nat} {b : UInt8}
    {payload : List UInt8} {next : List (List UInt8)}
    (output : s.output = .copy p buffer l (b :: payload) next)
    (spares : (s.desc s.dmaTxDescToSet).own = true →
      (s.desc s.dmaTxDescToSet).controlBufferSize ≤ l ∨ l < (s.reading.getD []).length) :
    Sends { s with
      txBuff := Function.update s.txBuff (buffer + l) b
      output := .copy p buffer (l + 1) payload next } queue := by
  have copies := sends.copies
  rw [output] at copies
  obtain ⟨rfl, front, copied, whole⟩ := copies
  have size : front.length = l := by rw [← copied, slice_length]
  have inside : l < ethTxBufSize := by
    have total := congrArg List.length whole
    have fits := p.fits
    rw [List.length_append, List.length_append, List.length_cons] at total
    rw [Pbuf.bytes] at total
    omega
  refine ⟨sends.queued.imp (fun k f member held => holds_update held _ b _ (fun j unread below => ?_)),
    sends.count, sends.reading, rfl, front ++ [b], ?_, ?_⟩
  · have own := sends.queued.full_slot member
    have room := held.size
    by_cases here : (s.current + k) % ethTxBufNb = s.dmaTxDescToSet
    · rw [here] at own unread below ⊢
      -- the ring is full, and the byte is spare
      have wraps := sends.queued.full_wraps own
      have spare := spares own
      rw [readOf, if_pos wraps] at unread
      omega
    · -- the buffer of another slot lies elsewhere
      exact blocks_apart here (Nat.lt_of_lt_of_le below room) inside
  · rw [slice_update_last, copied]
  · simpa using whole

theorem sends_next (sends : Sends s queue) {p : Pbuf} {buffer l : Nat} {q : List UInt8}
    {next : List (List UInt8)} (output : s.output = .copy p buffer l [] (q :: next)) :
    Sends { s with output := .copy p buffer l q next } queue := by
  have copies := sends.copies
  rw [output] at copies
  obtain ⟨rfl, front, copied, whole⟩ := copies
  exact ⟨sends.queued.imp (fun _ _ _ held => held.congr rfl rfl rfl), sends.count,
    sends.reading, rfl, front, copied, by simpa using whole⟩

theorem Sends.unread (sends : Sends s queue) {i : Nat} (free : (s.desc i).own = false) :
    s.reading = none ∨ s.current ≠ i := by
  by_contra busy
  rw [not_or, not_not] at busy
  have owned := sends.reading busy.1
  rw [busy.2, free] at owned
  cases owned

theorem sends_given (sends : Sends s queue) (free : (s.desc s.dmaTxDescToSet).own = false)
    {p : Pbuf} {d : Desc} (given : d.own = true) (size : d.controlBufferSize ≤ ethTxBufSize)
    (copied : slice s.txBuff (buffer1Addr s.dmaTxDescToSet) d.controlBufferSize = p.bytes) :
    Sends { s with
      desc := Function.update s.desc s.dmaTxDescToSet d
      dmaTxDescToSet := nextDesc s.dmaTxDescToSet
      output := .idle
      calls := s.calls ++ [(p, Err.ok)] } (queue ++ [p.bytes]) := by
  obtain ⟨t, eq⟩ : ∃ t, t = { s with
      desc := Function.update s.desc s.dmaTxDescToSet d
      dmaTxDescToSet := nextDesc s.dmaTxDescToSet
      output := .idle
      calls := s.calls ++ [(p, Err.ok)] } := ⟨_, rfl⟩
  rw [← eq]
  have desc : t.desc = Function.update s.desc s.dmaTxDescToSet d := by rw [eq]
  have idle := sends.unread free
  have unread : readOf t s.dmaTxDescToSet = [] := by
    rw [eq, readOf]
    rcases idle with none | other
    · rw [none, Option.getD_none, ite_self]
    · rw [if_neg (Ne.symm other)]
  have kept : Queued ethTxBufNb (fun i => (s.desc i).own) (Holds t) s.current s.dmaTxDescToSet
      queue := by
    refine sends.queued.imp (fun k f member held => held.congr ?_ (by rw [eq]) (by rw [eq]; rfl))
    rw [desc]
    refine Function.update_of_ne (fun here => ?_) _ _
    have full := sends.queued.full_slot member
    rw [here, free] at full
    cases full
  have new : Holds t s.dmaTxDescToSet p.bytes := by
    refine ⟨?_, ?_, ?_⟩
    · rw [frame, unread, desc, Function.update_self, eq, List.nil_append, List.length_nil,
        Nat.add_zero, Nat.sub_zero]
      exact copied
    · rw [unread]
      exact Nat.zero_le _
    · rw [desc, Function.update_self]
      exact size
  have pushed := kept.push free new
  rw [← given, ← own_update] at pushed
  refine ⟨?_, ?_, ?_, ?_⟩
  · have current : t.current = s.current := by rw [eq]
    have next : t.dmaTxDescToSet = nextDesc s.dmaTxDescToSet := by rw [eq]
    rw [desc, current, next]
    exact pushed
  · rw [eq, ← List.append_assoc, ← sends.count]
    simp [accepted]
  · rw [desc, eq]
    intro busy
    rw [Function.update_of_ne (idle.resolve_left busy)]
    exact sends.reading busy
  · rw [eq]
    trivial

theorem sends_packet (sends : Sends s queue) {p : Pbuf} {buffer l : Nat}
    (output : s.output = .copy p buffer l [] []) : ∃ queue', Sends (outputStep s) queue' := by
  have copies := sends.copies
  rw [output] at copies
  obtain ⟨rfl, front, copied, whole⟩ := copies
  simp only [List.flatten_nil, List.append_nil] at whole
  have size : p.bytes.length = l := by rw [← whole, ← copied, slice_length]
  have fits : l ≤ ethTxBufSize := size ▸ p.fits
  have bound : ethTxBufSize = 1524 := rfl
  have length : l % 2^16 % 2^13 = l := by omega
  simp only [outputStep, output, ethTxPacket]
  cases own : (s.desc s.dmaTxDescToSet).own with
  | true =>
    refine ⟨queue, sends.queued.imp (fun _ _ _ held => held.congr rfl rfl rfl), ?_,
      sends.reading, trivial⟩
    simpa [accepted] using sends.count
  | false =>
    refine ⟨queue ++ [p.bytes], sends_given sends own rfl ?_ ?_⟩
    · rw [length]
      exact fits
    · rw [length, copied, whole]

theorem sends_turn (sends : Sends s queue) (reading : s.reading = none)
    (own : (s.desc s.current).own = true) : Sends { s with reading := some [] } queue := by
  refine ⟨sends.queued.imp (fun k f member held => held.congr rfl rfl ?_), sends.count,
    fun _ => own, sends.copies⟩
  simp only [readOf, reading, Option.getD_none, Option.getD_some]

theorem sends_read (sends : Sends s queue) {bytes : List UInt8} (reading : s.reading = some bytes)
    (more : bytes.length < (s.desc s.current).controlBufferSize) :
    Sends { s with
      reading := some (bytes ++ [s.txBuff (buffer1Addr s.current + bytes.length)]) } queue := by
  have own := sends.reading (by simp [reading])
  refine ⟨sends.queued.imp (fun k f member held => ?_), sends.count, fun _ => own, sends.copies⟩
  by_cases here : (s.current + k) % ethTxBufNb = s.current
  · rw [here] at held ⊢
    obtain ⟨framed, -, size⟩ := held
    refine ⟨?_, ?_, size⟩
    · rw [← framed, frame, frame, readOf, readOf, if_pos rfl, if_pos rfl, reading,
        Option.getD_some, Option.getD_some]
      exact slice_forward _ _ _ more
    · rw [readOf, if_pos rfl, Option.getD_some, List.length_append, List.length_singleton]
      exact more
  · refine held.congr rfl rfl ?_
    rw [readOf, readOf, if_neg here, if_neg here]

theorem sends_return {f : List UInt8} (sends : Sends s (f :: queue)) {bytes : List UInt8}
    (reading : s.reading = some bytes)
    (last : (s.desc s.current).controlBufferSize ≤ bytes.length) :
    Sends { s with
      desc := Function.update s.desc s.current { s.desc s.current with own := false }
      current := nextDesc s.current
      reading := none
      wire := s.wire ++ [bytes] } queue := by
  obtain ⟨t, eq⟩ : ∃ t, t = { s with
      desc := Function.update s.desc s.current { s.desc s.current with own := false }
      current := nextDesc s.current
      reading := none
      wire := s.wire ++ [bytes] } := ⟨_, rfl⟩
  rw [← eq]
  have desc : t.desc = Function.update s.desc s.current { s.desc s.current with own := false } := by
    rw [eq]
  obtain ⟨⟨framed, bound, -⟩, popped⟩ := sends.queued.pop
  have whole : f = bytes := by
    rw [readOf, if_pos rfl, reading, Option.getD_some] at bound
    rw [← framed, frame, readOf, if_pos rfl, reading, Option.getD_some, Nat.sub_eq_zero_of_le last]
    simp [slice]
  refine ⟨?_, ?_, ?_, ?_⟩
  · have kept : Queued ethTxBufNb (Function.update (fun i => (s.desc i).own) s.current false)
        (Holds t) ((s.current + 1) % ethTxBufNb) s.dmaTxDescToSet queue := by
      refine popped.imp (fun k g member held => ?_)
      have other : ((s.current + 1) % ethTxBufNb + k) % ethTxBufNb ≠ s.current := by
        intro here
        have full := popped.full_slot member
        rw [here, Function.update_self] at full
        cases full
      refine held.congr ?_ (by rw [eq]) ?_
      · rw [desc, Function.update_of_ne other]
      · have none : t.reading = none := by rw [eq]
        rw [readOf, readOf, if_neg other, none, Option.getD_none, ite_self]
    have current : t.current = nextDesc s.current := by rw [eq]
    have toSet : t.dmaTxDescToSet = s.dmaTxDescToSet := by rw [eq]
    rw [desc, own_update, current, toSet]
    exact kept
  · have count := sends.count
    rw [whole] at count
    rw [eq]
    simpa [accepted] using count
  · rw [eq]
    exact fun differs => absurd rfl differs
  · rw [eq]
    exact sends.copies

theorem Sends.owns (sends : Sends s queue) : (s.desc s.current).own = true ↔ queue ≠ [] := by
  rw [sends.queued.full_head, decide_eq_true_eq, List.length_pos_iff]

theorem sends_dma (sends : Sends s queue) : ∃ queue', Sends (dmaStep s) queue' := by
  simp only [dmaStep]
  split
  · rename_i reading
    split
    · rename_i own
      exact ⟨queue, sends_turn sends reading own⟩
    · exact ⟨queue, sends⟩
  · rename_i bytes reading
    have some := sends.owns.mp (sends.reading (by simp [reading]))
    split
    · rename_i more
      exact ⟨queue, sends_read sends reading more⟩
    · rename_i last
      obtain ⟨f, rest, rfl⟩ := List.exists_cons_of_ne_nil some
      exact ⟨rest, sends_return sends reading (Nat.le_of_not_lt last)⟩

theorem sends_output (sends : Sends s queue) (spares : Spares .cpu s) :
    ∃ queue', Sends (outputStep s) queue' := by
  cases output : s.output with
  | idle => exact ⟨queue, by simpa only [outputStep, output] using sends⟩
  | copy p buffer l payload next =>
    cases payload with
    | cons b payload =>
      simp only [Spares, output] at spares
      exact ⟨queue, by simpa only [outputStep, output] using sends_byte sends output spares⟩
    | nil =>
      cases next with
      | cons q next => exact ⟨queue, by simpa only [outputStep, output] using sends_next sends output⟩
      | nil => exact sends_packet sends output

end Sends

theorem sends_step (label : Label) (s : St) (spares : Spares label s)
    (sends : ∃ queue, Sends s queue) : ∃ queue, Sends (step label s) queue := by
  obtain ⟨queue, sends⟩ := sends
  cases label with
  | call p => exact ⟨queue, sends_call sends p⟩
  | cpu => exact sends_output sends spares
  | dma => exact sends_dma sends

theorem sends_inFlight {s : St} {queue : List (List UInt8)} (sends : Sends s queue) :
    inFlight s = queue :=
  (sends.queued.imp (fun _ _ _ held => held.frame)).listed

section Drain

variable {s : St} {queue : List (List UInt8)}

theorem dmaStep_calls (s : St) (n : Nat) : (dmaStep^[n] s).calls = s.calls := by
  have one : ∀ s, (dmaStep s).calls = s.calls := by
    intro s
    simp only [dmaStep]
    split <;> split <;> rfl
  induction n generalizing s with
  | zero => rfl
  | succ n ih => rw [Function.iterate_succ_apply, ih, one]

theorem drains_read {f : List UInt8} (sends : Sends s (f :: queue)) {bytes : List UInt8}
    (reading : s.reading = some bytes) : ∃ n, Sends (dmaStep^[n] s) queue := by
  induction size : (s.desc s.current).controlBufferSize - bytes.length generalizing s bytes with
  | zero =>
    have last : ¬ bytes.length < (s.desc s.current).controlBufferSize := by omega
    have whole := sends_return sends reading (Nat.le_of_not_lt last)
    exact ⟨1, by simpa [dmaStep, reading, last] using whole⟩
  | succ k ih =>
    have more : bytes.length < (s.desc s.current).controlBufferSize := by omega
    obtain ⟨n, rest⟩ := ih (sends_read sends reading more) rfl (by
      rw [List.length_append, List.length_singleton]
      show (s.desc s.current).controlBufferSize - (bytes.length + 1) = k
      omega)
    refine ⟨n + 1, ?_⟩
    rw [Function.iterate_succ_apply]
    simpa [dmaStep, reading, more] using rest

theorem drains_frame {f : List UInt8} (sends : Sends s (f :: queue)) :
    ∃ n, Sends (dmaStep^[n] s) queue := by
  cases reading : s.reading with
  | some bytes => exact drains_read sends reading
  | none =>
    have own := sends.owns.mpr (List.cons_ne_nil f queue)
    obtain ⟨n, rest⟩ := drains_read (sends_turn sends reading own) rfl
    refine ⟨n + 1, ?_⟩
    rw [Function.iterate_succ_apply]
    simpa [dmaStep, reading, own] using rest

theorem drains (sends : Sends s queue) : ∃ n, (dmaStep^[n] s).wire = accepted s := by
  induction queue generalizing s with
  | nil => exact ⟨0, by simpa using sends.count.symm⟩
  | cons f queue ih =>
    obtain ⟨n, rest⟩ := drains_frame sends
    obtain ⟨m, wire⟩ := ih rest
    refine ⟨m + n, ?_⟩
    rw [Function.iterate_add_apply, wire, accepted, accepted, dmaStep_calls]

end Drain

theorem frames_kept {txBuff : Mem} {labels : List Label}
    (spared : Along step Spares labels (start txBuff)) :
    ∃ queue, Sends (run step labels (start txBuff)) queue :=
  run_invariant sends_step spared ⟨[], sends_start txBuff⟩

/-- The chains of the calls that returned `ERR_OK` are on the wire or wait in the ring for the
DMA, each once, in order and as they were, as long as no byte is copied over one that the
DMA has still to read. The DMA needs only its own steps to transmit what waits, and while
no call returns `ERR_OK` nothing of it changes. -/
theorem frames_transmitted (txBuff : Mem) (labels : List Label)
    (spared : Along step Spares labels (start txBuff)) :
    accepted (run step labels (start txBuff)) =
        (run step labels (start txBuff)).wire ++ inFlight (run step labels (start txBuff)) ∧
      (∃ n, (dmaStep^[n] (run step labels (start txBuff))).wire =
        accepted (run step labels (start txBuff))) ∧
      ∀ before, before <+: labels →
        accepted (run step before (start txBuff)) = accepted (run step labels (start txBuff)) →
        (run step before (start txBuff)).wire ++ inFlight (run step before (start txBuff)) =
          (run step labels (start txBuff)).wire ++ inFlight (run step labels (start txBuff)) := by
  obtain ⟨queue, sends⟩ := frames_kept spared
  refine ⟨?_, drains sends, fun before shorter same => ?_⟩
  · rw [sends_inFlight sends]
    exact sends.count
  · obtain ⟨queue', sends'⟩ := frames_kept (along_shorter shorter spared)
    rw [sends_inFlight sends, sends_inFlight sends', ← sends.count, ← sends'.count]
    exact same

def onePbuf (b : UInt8) : Pbuf := ⟨[[b]], Nat.le_of_ble_eq_true rfl⟩

def callOne (b : UInt8) : List Label := .call (onePbuf b) :: List.replicate 3 .cpu

def twoCalls : List Label := callOne 1 ++ [.dma] ++ callOne 2 ++ List.replicate 5 .dma

instance : (l : Label) → (s : St) → Decidable (Spares l s)
  | .cpu, s => match h : s.output with
    | .copy _ _ l (_ :: _) _ =>
      decidable_of_iff ((s.desc s.dmaTxDescToSet).own = true →
        (s.desc s.dmaTxDescToSet).controlBufferSize ≤ l ∨ l < (s.reading.getD []).length)
        (by simp [Spares, h])
    | .copy _ _ _ [] _ => isTrue (by simp [Spares, h])
    | .idle => isTrue (by simp [Spares, h])
  | .call _, _ => inferInstanceAs (Decidable True)
  | .dma, _ => inferInstanceAs (Decidable True)

theorem frames_transmitted_two :
    (run step twoCalls (start (fun _ => 0))).wire = [[1], [2]] ∧
      accepted (run step twoCalls (start (fun _ => 0))) =
        (run step twoCalls (start (fun _ => 0))).wire ++
          inFlight (run step twoCalls (start (fun _ => 0))) :=
  ⟨by decide +kernel, (frames_transmitted (fun _ => 0) twoCalls (by decide +kernel)).1⟩

def sixCalls : List Label :=
  callOne 1 ++ callOne 2 ++ callOne 3 ++ callOne 4 ++ callOne 5 ++ callOne 6 ++
    List.replicate 3 .dma

theorem queued_overwritten : accepted (run step sixCalls (start (fun _ => 0))) =
      [[1], [2], [3], [4], [5]] ∧
    (run step sixCalls (start (fun _ => 0))).wire = [[6]] := by
  decide +kernel

end BoxFirmware.EthTx
