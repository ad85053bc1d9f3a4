import BoxFirmware.ByteMem
import BoxFirmware.GuardedRun
import BoxFirmware.RingQueue
import Mathlib.Data.List.Forall2

/-! The receive path: `ETH_IRQHandler` and `ETH_Rx_Packet` of `lan8720.c`, `low_level_input`
and `ethernetif_input` of `ethernetif.c`, and the DMA that fills the same ring. The DMA
stores a frame byte by byte in the buffer of a descriptor that it owns, and writes the
descriptor back with a status; the handler copies byte by byte. A test of a descriptor is
one step, as the DMA leaves alone what it does not own. What `pbuf_alloc` returns and
whether `netif->input` takes a chain come with the handler's step. -/
namespace BoxFirmware.EthRx
open ByteMem GuardedRun RingQueue

def ethRxBufNb : Nat := 5
def ethRxBufSize : Nat := 1524

/-- Error summary, first and last segment, and the frame length with its CRC. -/
structure Status where
  es : Bool
  fs : Bool
  ls : Bool
  fl : Nat
  deriving DecidableEq

structure Desc where
  own : Bool
  status : Status

def ownedByDma : Desc := ⟨true, ⟨false, false, false, 0⟩⟩

/-- What `ETH_Rx_Packet` returns. In an early return the descriptor is still the null
pointer of the initializer. -/
structure Frame where
  length : Nat
  buffer : Option Nat
  descriptor : Option Nat
  deriving DecidableEq

/-- The lengths of the pbufs of a chain that was asked for `len` bytes. -/
structure Segments (len : Nat) where
  first : Nat
  next : List Nat
  total : first + next.sum = len

abbrev Chain := List (List UInt8)

/-- Where the handler is; behind its loop it clears two bits of `DMASR`. In the copy, `l` bytes have been taken; `filled` and `payload` are
the pbufs filled so far and the current one, which lacks `left` bytes. -/
inductive Pc
  | idle
  | test
  | rxPacket
  | alloc (frame : Frame)
  | copy (frame : Frame) (l : Nat) (filled : Chain) (payload : List UInt8) (left : Nat)
      (next : List Nat)
  | giveBack (frame : Frame) (p : Option Chain)
  | input (p : Chain)
  | clearR
  | clearNis
  deriving DecidableEq

/-- A frame that the DMA has written back. -/
structure Received where
  status : Status
  bytes : List UInt8
  deriving DecidableEq

/-- What became of a frame: there was no pbuf for it, or its chain was passed to the stack
and taken or refused. -/
inductive Outcome
  | noMem
  | passed (p : Chain)
  | refused (p : Chain)
  deriving DecidableEq

/-- The ring, the handler, the DMA with the bytes it has stored of a frame, all the frames
it has written back, whether each `pbuf_alloc` and each `netif->input` succeeded, and what
became of the frames. -/
structure St where
  desc : Nat → Desc
  rxBuff : Mem
  dmaRxDescToGet : Nat
  pc : Pc
  current : Nat
  filling : List UInt8
  frames : List Received
  answers : List Bool
  outcomes : List Outcome

def buffer1Addr (i : Nat) : Nat := i * ethRxBufSize
def nextDesc (i : Nat) : Nat := (i + 1) % ethRxBufNb

def ethGetRxPktSize (d : Desc) : Nat :=
  if !d.own && !d.status.es && d.status.ls then d.status.fl else 0

/-- `DMARxDescToGet` moves on, whatever the status of a descriptor that is not the DMA's. -/
def ethRxPacket (s : St) : Frame × St :=
  let d := s.desc s.dmaRxDescToGet
  if d.own then (⟨0, none, none⟩, s)
  else
    let whole := !d.status.es && d.status.ls && d.status.fs
    (⟨if whole then (d.status.fl + 2^32 - 4) % 2^32 else 0,
      if whole then some (buffer1Addr s.dmaRxDescToGet) else none, some s.dmaRxDescToGet⟩,
      { s with dmaRxDescToGet := nextDesc s.dmaRxDescToGet })

def Frame.len (frame : Frame) : Nat := frame.length % 2^16

def Frame.read (frame : Frame) (rxBuff : Mem) (l : Nat) : UInt8 :=
  match frame.buffer with
  | some buffer => rxBuff (buffer + l)
  | none => 0

structure Outside where
  pbufAlloc : (len : Nat) → Option (Segments len)
  inputOk : Bool

def allocStep (o : Outside) (frame : Frame) (s : St) : St :=
  { s with
    pc := match o.pbufAlloc frame.len with
      | none => .giveBack frame none
      | some p => .copy frame 0 [] [] p.first p.next
    answers := s.answers ++ [(o.pbufAlloc frame.len).isSome] }

def copyStep (frame : Frame) (l : Nat) (filled : Chain) (payload : List UInt8) (left : Nat)
    (next : List Nat) (s : St) : St :=
  match left, next with
  | left + 1, next =>
    { s with pc := .copy frame (l + 1) filled (payload ++ [frame.read s.rxBuff l]) left next }
  | 0, q :: next => { s with pc := .copy frame l (filled ++ [payload]) [] q next }
  | 0, [] => { s with pc := .giveBack frame (some (filled ++ [payload])) }

def giveBackStep (frame : Frame) (p : Option Chain) (s : St) : St :=
  let desc := match frame.descriptor with
    | some i => Function.update s.desc i ownedByDma
    | none => s.desc
  match p with
  | none => { s with desc := desc, pc := .test, outcomes := s.outcomes ++ [.noMem] }
  | some p => { s with desc := desc, pc := .input p }

def inputStep (o : Outside) (p : Chain) (s : St) : St :=
  { s with
    pc := .test
    answers := s.answers ++ [o.inputOk]
    outcomes := s.outcomes ++ [if o.inputOk then .passed p else .refused p] }

def handlerStep (o : Outside) (s : St) : St :=
  match s.pc with
  | .idle => s
  | .test =>
    { s with pc := if ethGetRxPktSize (s.desc s.dmaRxDescToGet) ≠ 0 then .rxPacket else .clearR }
  | .rxPacket =>
    let r := ethRxPacket s
    { r.2 with pc := .alloc r.1 }
  | .alloc frame => allocStep o frame s
  | .copy frame l filled payload left next => copyStep frame l filled payload left next s
  | .giveBack frame p => giveBackStep frame p s
  | .input p => inputStep o p s
  | .clearR => { s with pc := .clearNis }
  | .clearNis => { s with pc := .idle }

def irqStep (s : St) : St :=
  match s.pc with
  | .idle => { s with pc := .test }
  | _ => s

def dmaStore (b : UInt8) (s : St) : St :=
  if (s.desc s.current).own ∧ s.filling.length < ethRxBufSize then
    { s with
      rxBuff := Function.update s.rxBuff (buffer1Addr s.current + s.filling.length) b
      filling := s.filling ++ [b] }
  else s

/-- The DMA writes its descriptor back. The length field has 14 bits. -/
def dmaWriteBack (status : Status) (s : St) : St :=
  if (s.desc s.current).own then
    let status := { status with fl := status.fl % 2^14 }
    { s with
      desc := Function.update s.desc s.current ⟨false, status⟩
      current := nextDesc s.current
      filling := []
      frames := s.frames ++ [⟨status, s.filling⟩] }
  else s

inductive Label
  | irq
  | handler (o : Outside)
  | store (b : UInt8)
  | writeBack (status : Status)

def step : Label → St → St
  | .irq, s => irqStep s
  | .handler o, s => handlerStep o s
  | .store b, s => dmaStore b s
  | .writeBack status, s => dmaWriteBack status s

/-- After `ETH_DMARxDescChainInit`, over buffers with anything in them. -/
def start (rxBuff : Mem) : St where
  desc _ := ownedByDma
  rxBuff := rxBuff
  dmaRxDescToGet := 0
  pc := .idle
  current := 0
  filling := []
  frames := []
  answers := []
  outcomes := []

/-- The test of the loop accepts it. -/
def Received.good (r : Received) : Bool := !r.status.es && r.status.ls && r.status.fl ≠ 0

/-- An error-free frame in one descriptor. -/
def Received.Proper (r : Received) : Prop :=
  r.status.es = false ∧ r.status.fs = true ∧ r.status.ls = true ∧
    r.status.fl = r.bytes.length ∧ 64 ≤ r.status.fl ∧ r.status.fl ≤ ethRxBufSize

instance (r : Received) : Decidable r.Proper :=
  inferInstanceAs (Decidable (_ ∧ _ ∧ _ ∧ _ ∧ _ ∧ _))

theorem Received.Proper.good {r : Received} (proper : r.Proper) : r.good = true := by
  obtain ⟨es, -, ls, -, least, -⟩ := proper
  have some : r.status.fl ≠ 0 := by omega
  simp [Received.good, es, ls, some]

def Received.text (r : Received) : List UInt8 := r.bytes.take (r.status.fl - 4)

def Outcome.chain : Outcome → Option Chain
  | .noMem => none
  | .passed p => some p
  | .refused p => some p

/-- A chain passed to the stack carries its frame. -/
def Delivers (r : Received) (o : Outcome) : Prop := ∀ p ∈ o.chain, p.flatten = r.text

/-- The descriptor that `low_level_input` works on. -/
def Pc.inHand : Pc → Option Nat
  | .alloc frame => frame.descriptor
  | .copy frame _ _ _ _ _ => frame.descriptor
  | .giveBack frame _ => frame.descriptor
  | _ => none

section Receives

structure Holds (desc : Nat → Desc) (rxBuff : Mem) (i : Nat) (r : Received) : Prop where
  status : (desc i).status = r.status
  bytes : slice rxBuff (buffer1Addr i) r.bytes.length = r.bytes
  size : r.bytes.length ≤ ethRxBufSize

structure Taken (dmaRxDescToGet head : Nat) (frame : Frame) (r : Received) : Prop where
  good : r.good = true
  next : dmaRxDescToGet = nextDesc head
  descriptor : frame.descriptor = some head
  buffer : r.Proper → frame.buffer = some (buffer1Addr head)
  len : r.Proper → frame.len = r.status.fl - 4

def Handles (dmaRxDescToGet head : Nat) (rxBuff : Mem) (inHand late : List Received) : Pc → Prop
  | .idle => dmaRxDescToGet = head ∧ inHand = [] ∧ late = []
  | .test => dmaRxDescToGet = head ∧ inHand = [] ∧ late = []
  | .clearR => dmaRxDescToGet = head ∧ inHand = [] ∧ late = []
  | .clearNis => dmaRxDescToGet = head ∧ inHand = [] ∧ late = []
  | .rxPacket => dmaRxDescToGet = head ∧ late = [] ∧ ∃ r, inHand = [r] ∧ r.good = true
  | .alloc frame => late = [] ∧ ∃ r, inHand = [r] ∧ Taken dmaRxDescToGet head frame r
  | .copy frame l filled payload left next => late = [] ∧ ∃ r, inHand = [r] ∧
      Taken dmaRxDescToGet head frame r ∧ (r.Proper → l + left + next.sum = r.status.fl - 4 ∧
        (filled ++ [payload]).flatten = slice rxBuff (buffer1Addr head) l)
  | .giveBack frame p => late = [] ∧ ∃ r, inHand = [r] ∧ Taken dmaRxDescToGet head frame r ∧
      (r.Proper → ∀ chain ∈ p, chain.flatten = r.text)
  | .input p => dmaRxDescToGet = head ∧ inHand = [] ∧ ∃ r, late = [r] ∧ r.good = true ∧
      (r.Proper → p.flatten = r.text)

/-- The frames written back are those with an outcome, the one that is passed on, the one in
the handler's hands, and the ones that wait in the ring. -/
structure Receives (s : St) (head : Nat) (done late inHand pending : List Received) : Prop where
  queued : Queued ethRxBufNb (fun i => !(s.desc i).own) (Holds s.desc s.rxBuff) head s.current
    (inHand ++ pending)
  frames : s.frames = done ++ late ++ inHand ++ pending
  outcomes : List.Forall₂ (fun r o => r.good = true ∧ (r.Proper → Delivers r o)) done s.outcomes
  handles : Handles s.dmaRxDescToGet head s.rxBuff inHand late s.pc
  filling : slice s.rxBuff (buffer1Addr s.current) s.filling.length = s.filling
  size : s.filling.length ≤ ethRxBufSize

theorem receives_start (rxBuff : Mem) : Receives (start rxBuff) 0 [] [] [] [] where
  queued := queued_nil (Nat.succ_pos 4) (fun _ _ => rfl)
  frames := rfl
  outcomes := .nil
  handles := ⟨rfl, rfl, rfl⟩
  filling := rfl
  size := Nat.zero_le _

variable {s : St} {head : Nat} {done late inHand pending : List Received}

theorem receives_irq (receives : Receives s head done late inHand pending) :
    Receives (irqStep s) head done late inHand pending := by
  have handles := receives.handles
  unfold irqStep
  split
  · rename_i pc
    rw [pc] at handles
    exact ⟨receives.queued, receives.frames, receives.outcomes, handles, receives.filling,
      receives.size⟩
  · exact receives

theorem Receives.held (receives : Receives s head done late inHand pending) {r : Received}
    (hand : inHand = [r]) : (s.desc head).own = false ∧ Holds s.desc s.rxBuff head r := by
  have queued := receives.queued
  rw [hand] at queued
  have full := queued.full_head
  have member := queued.holds 0 r rfl
  rw [slot_head queued.inside] at member
  exact ⟨by simpa using full, member⟩

theorem Holds.text {r : Received} {desc : Nat → Desc} {rxBuff : Mem} (held : Holds desc rxBuff head r) (proper : r.Proper) :
    slice rxBuff (buffer1Addr head) (r.status.fl - 4) = r.text := by
  obtain ⟨more, length⟩ := Nat.exists_eq_add_of_le (Nat.sub_le r.status.fl 4)
  have whole := held.bytes
  rw [← proper.2.2.2.1, length, slice_add] at whole
  rw [Received.text, ← whole, List.take_left' (slice_length _ _ _)]

theorem handles_update {dmaRxDescToGet : Nat} {rxBuff : Mem} {pc : Pc}
    (handles : Handles dmaRxDescToGet head rxBuff inHand late pc) {k l : Nat}
    (other : inHand ≠ [] → head ≠ k) (inside : l < ethRxBufSize) (b : UInt8) :
    Handles dmaRxDescToGet head (Function.update rxBuff (buffer1Addr k + l) b) inHand late pc := by
  cases pc with
  | copy frame done filled payload left next =>
    obtain ⟨none, r, hand, taken, copied⟩ := handles
    refine ⟨none, r, hand, taken, fun proper => ⟨(copied proper).1, ?_⟩⟩
    have place := (copied proper).1
    have small : r.status.fl ≤ ethRxBufSize := proper.2.2.2.2.2
    have same := slice_block_apart rxBuff (n := done)
      (other (by simp [hand])) (by omega) inside b
    exact (copied proper).2.trans same.symm
  | _ => exact handles

theorem released_apart {desc : Nat → Desc} {i k : Nat} (own : (desc k).own = true)
    (full : (!(desc i).own) = true) : i ≠ k := by
  rintro rfl
  rw [own] at full
  cases full

theorem receives_store (receives : Receives s head done late inHand pending) (b : UInt8) :
    Receives (dmaStore b s) head done late inHand pending := by
  unfold dmaStore
  split
  · rename_i room
    obtain ⟨own, inside⟩ := room
    have apart := fun i => released_apart (i := i) own
    refine ⟨receives.queued.imp (fun k r member held => ⟨held.status, ?_, held.size⟩),
      receives.frames, receives.outcomes, handles_update receives.handles (fun some => ?_) inside b,
      ?_, ?_⟩
    · have away := apart _ (receives.queued.full_slot member)
      exact (slice_block_apart _ away held.size inside b).trans held.bytes
    · refine apart head ?_
      rw [receives.queued.full_head]
      have positive := List.length_pos_iff.mpr some
      rw [List.length_append]
      exact decide_eq_true (by omega)
    · rw [List.length_append, List.length_singleton, slice_update_last, receives.filling]
    · rw [List.length_append, List.length_singleton]
      exact inside
  · exact receives

theorem released_update (desc : Nat → Desc) (a : Nat) (d : Desc) :
    (fun i => !(Function.update desc a d i).own) =
      Function.update (fun i => !(desc i).own) a (!d.own) := by
  funext i
  by_cases here : i = a
  · rw [here, Function.update_self, Function.update_self]
  · rw [Function.update_of_ne here, Function.update_of_ne here]

theorem receives_writeBack (receives : Receives s head done late inHand pending)
    (status : Status) :
    ∃ pending', Receives (dmaWriteBack status s) head done late inHand pending' := by
  simp only [dmaWriteBack]
  split
  · rename_i own
    refine ⟨pending ++ [⟨{ status with fl := status.fl % 2^14 }, s.filling⟩], ?_, ?_,
      receives.outcomes, receives.handles, rfl, Nat.zero_le _⟩
    · have kept : Queued ethRxBufNb (fun i => !(s.desc i).own) (Holds (Function.update s.desc
          s.current ⟨false, { status with fl := status.fl % 2^14 }⟩) s.rxBuff) head s.current
          (inHand ++ pending) := by
        refine receives.queued.imp (fun k r member held => ⟨?_, held.bytes, held.size⟩)
        rw [Function.update_of_ne (released_apart own (receives.queued.full_slot member))]
        exact held.status
      have pushed := kept.push (by simp [own]) (a := ⟨{ status with fl := status.fl % 2^14 }, s.filling⟩)
        ⟨by rw [Function.update_self], receives.filling, receives.size⟩
      rw [released_update, ← List.append_assoc]
      exact pushed
    · rw [receives.frames, List.append_assoc]
  · exact ⟨pending, receives⟩

theorem receives_test (receives : Receives s head done late inHand pending) (pc : s.pc = .test) :
    ∃ inHand' pending', Receives { s with pc := if ethGetRxPktSize (s.desc s.dmaRxDescToGet) ≠ 0
      then .rxPacket else .clearR } head done late inHand' pending' := by
  have handles := receives.handles
  rw [pc] at handles
  obtain ⟨rfl, rfl, rfl⟩ := handles
  split
  · rename_i some
    have own : (s.desc s.dmaRxDescToGet).own = false := by
      cases own : (s.desc s.dmaRxDescToGet).own with
      | false => rfl
      | true => simp [ethGetRxPktSize, own] at some
    have waits := receives.queued.full_head
    rw [own, List.nil_append] at waits
    obtain ⟨r, pending, rfl⟩ := List.exists_cons_of_length_pos (of_decide_eq_true waits.symm)
    have member := receives.queued.holds 0 r rfl
    rw [slot_head receives.queued.inside] at member
    have good : r.good = true := by
      simp only [ethGetRxPktSize, own, member.status, Bool.not_false, Bool.true_and] at some
      split at some
      · rename_i accepted
        rw [Received.good, accepted, Bool.true_and]
        exact decide_eq_true some
      · exact absurd rfl some
    refine ⟨[r], pending, receives.queued, ?_, receives.outcomes,
      ⟨rfl, rfl, r, rfl, good⟩, receives.filling, receives.size⟩
    simpa using receives.frames
  · exact ⟨[], pending, receives.queued, receives.frames, receives.outcomes, ⟨rfl, rfl, rfl⟩,
      receives.filling, receives.size⟩

theorem receives_rxPacket (receives : Receives s head done late inHand pending)
    (pc : s.pc = .rxPacket) : Receives { (ethRxPacket s).2 with pc := .alloc (ethRxPacket s).1 }
      head done late inHand pending := by
  have handles := receives.handles
  rw [pc] at handles
  obtain ⟨rfl, none, r, hand, good⟩ := handles
  obtain ⟨own, held⟩ := receives.held hand
  simp only [ethRxPacket, own, Bool.false_eq_true, if_false]
  refine ⟨receives.queued, receives.frames, receives.outcomes,
    ⟨none, r, hand, good, rfl, rfl, fun proper => ?_, fun proper => ?_⟩, receives.filling,
    receives.size⟩
  · obtain ⟨es, fs, ls, -⟩ := proper
    simp [held.status, es, fs, ls]
  · obtain ⟨es, fs, ls, -, least, most⟩ := proper
    have bound : ethRxBufSize = 1524 := rfl
    simp only [Frame.len, held.status, es, fs, ls, Bool.not_false, Bool.and_self, if_true]
    omega

theorem receives_alloc (receives : Receives s head done late inHand pending) {frame : Frame}
    (pc : s.pc = .alloc frame) (o : Outside) :
    Receives (allocStep o frame s) head done late inHand pending := by
  have handles := receives.handles
  rw [pc] at handles
  obtain ⟨none, r, hand, taken⟩ := handles
  refine ⟨receives.queued, receives.frames, receives.outcomes, ?_, receives.filling, receives.size⟩
  simp only [allocStep]
  split
  · exact ⟨none, r, hand, taken, fun _ => nofun⟩
  · rename_i p _
    refine ⟨none, r, hand, taken, fun proper => ⟨?_, rfl⟩⟩
    have total := p.total
    have len := taken.len proper
    omega

theorem receives_copy (receives : Receives s head done late inHand pending) {frame : Frame}
    {l left : Nat} {filled : Chain} {payload : List UInt8} {next : List Nat}
    (pc : s.pc = .copy frame l filled payload left next) :
    Receives (copyStep frame l filled payload left next s) head done late inHand pending := by
  have handles := receives.handles
  rw [pc] at handles
  obtain ⟨none, r, hand, taken, copied⟩ := handles
  obtain ⟨-, held⟩ := receives.held hand
  cases left with
  | succ left =>
    refine ⟨receives.queued, receives.frames, receives.outcomes,
      ⟨none, r, hand, taken, fun proper => ?_⟩, receives.filling, receives.size⟩
    obtain ⟨size, same⟩ := copied proper
    refine ⟨by omega, ?_⟩
    have read : frame.read s.rxBuff l = s.rxBuff (buffer1Addr head + l) := by
      rw [Frame.read, taken.buffer proper]
    have last : slice s.rxBuff (buffer1Addr head + l) 1 = [s.rxBuff (buffer1Addr head + l)] := by
      simp [slice]
    show _ = slice s.rxBuff (buffer1Addr head) (l + 1)
    rw [slice_add, last, ← same, read]
    simp
  | zero =>
    cases next with
    | cons q next =>
      refine ⟨receives.queued, receives.frames, receives.outcomes,
        ⟨none, r, hand, taken, fun proper => ?_⟩, receives.filling, receives.size⟩
      obtain ⟨size, same⟩ := copied proper
      refine ⟨by simpa [Nat.add_assoc] using size, ?_⟩
      show _ = slice s.rxBuff (buffer1Addr head) l
      rw [← same]
      simp
    | nil =>
      refine ⟨receives.queued, receives.frames, receives.outcomes,
        ⟨none, r, hand, taken, fun proper chain member => ?_⟩, receives.filling, receives.size⟩
      obtain ⟨size, same⟩ := copied proper
      obtain rfl := Option.some.inj member
      rw [same, ← held.text proper, ← size]
      rfl

theorem receives_giveBack (receives : Receives s head done late inHand pending) {frame : Frame}
    {p : Option Chain} (pc : s.pc = .giveBack frame p) :
    ∃ done' late', Receives (giveBackStep frame p s) (nextDesc head) done' late' [] pending := by
  have handles := receives.handles
  rw [pc] at handles
  obtain ⟨none, r, hand, taken, text⟩ := handles
  have queued := receives.queued
  have frames := receives.frames
  rw [hand] at queued frames
  rw [none, List.append_nil] at frames
  have popped := queued.pop.2
  have kept : Queued ethRxBufNb (fun i => !(Function.update s.desc head ownedByDma i).own)
      (Holds (Function.update s.desc head ownedByDma) s.rxBuff) (nextDesc head) s.current pending := by
    rw [released_update]
    refine popped.imp (fun k g member held => ⟨?_, held.bytes, held.size⟩)
    have other : ((head + 1) % ethRxBufNb + k) % ethRxBufNb ≠ head := by
      intro here
      have full := popped.full_slot member
      rw [here, Function.update_self] at full
      cases full
    rw [Function.update_of_ne other]
    exact held.status
  unfold giveBackStep
  rw [taken.descriptor]
  cases p with
  | none =>
    refine ⟨done ++ [r], [], kept, ?_, ?_, ⟨taken.next, rfl, rfl⟩, receives.filling, receives.size⟩
    · simpa using frames
    · exact List.rel_append receives.outcomes (.cons ⟨taken.good, fun _ => nofun⟩ .nil)
  | some chain =>
    refine ⟨done, [r], kept, ?_, receives.outcomes,
      ⟨taken.next, rfl, r, rfl, taken.good, fun proper => text proper chain rfl⟩, receives.filling,
      receives.size⟩
    simpa using frames

theorem receives_input (receives : Receives s head done late inHand pending) {p : Chain}
    (pc : s.pc = .input p) (o : Outside) :
    ∃ done', Receives (inputStep o p s) head done' [] inHand pending := by
  have handles := receives.handles
  rw [pc] at handles
  obtain ⟨get, hand, r, passing, good, text⟩ := handles
  have frames := receives.frames
  rw [passing] at frames
  refine ⟨done ++ [r], receives.queued, ?_, ?_, ⟨get, hand, rfl⟩, receives.filling, receives.size⟩
  · show s.frames = _
    simpa using frames
  · refine List.rel_append receives.outcomes (.cons ⟨good, fun proper chain member => ?_⟩ .nil)
    have same : some p = some chain := by
      split at member <;> exact member
    obtain rfl := Option.some.inj same
    exact text proper

theorem receives_handler (receives : Receives s head done late inHand pending) (o : Outside) :
    ∃ head done late inHand pending, Receives (handlerStep o s) head done late inHand pending := by
  unfold handlerStep
  cases pc : s.pc with
  | idle => exact ⟨_, _, _, _, _, receives⟩
  | test =>
    obtain ⟨inHand', pending', next⟩ := receives_test receives pc
    exact ⟨_, _, _, _, _, next⟩
  | rxPacket => exact ⟨_, _, _, _, _, receives_rxPacket receives pc⟩
  | alloc frame => exact ⟨_, _, _, _, _, receives_alloc receives pc o⟩
  | copy frame l filled payload left next => exact ⟨_, _, _, _, _, receives_copy receives pc⟩
  | giveBack frame p =>
    obtain ⟨done', late', next⟩ := receives_giveBack receives pc
    exact ⟨_, _, _, _, _, next⟩
  | input p =>
    obtain ⟨done', next⟩ := receives_input receives pc o
    exact ⟨_, _, _, _, _, next⟩
  | clearR =>
    have handles := receives.handles
    rw [pc] at handles
    exact ⟨_, _, _, _, _, receives.queued, receives.frames, receives.outcomes, handles,
      receives.filling, receives.size⟩
  | clearNis =>
    have handles := receives.handles
    rw [pc] at handles
    exact ⟨_, _, _, _, _, receives.queued, receives.frames, receives.outcomes, handles,
      receives.filling, receives.size⟩

end Receives

theorem receives_step (label : Label) (s : St)
    (receives : ∃ head done late inHand pending, Receives s head done late inHand pending) :
    ∃ head done late inHand pending, Receives (step label s) head done late inHand pending := by
  obtain ⟨head, done, late, inHand, pending, receives⟩ := receives
  cases label with
  | irq => exact ⟨_, _, _, _, _, receives_irq receives⟩
  | handler o => exact receives_handler receives o
  | store b => exact ⟨_, _, _, _, _, receives_store receives b⟩
  | writeBack status =>
    obtain ⟨pending', next⟩ := receives_writeBack receives status
    exact ⟨_, _, _, _, _, next⟩

theorem receives_run (rxBuff : Mem) (labels : List Label) :
    ∃ head done late inHand pending,
      Receives (run step labels (start rxBuff)) head done late inHand pending :=
  run_invariant (fun label s _ => receives_step label s) (along_true step labels (start rxBuff))
    ⟨_, _, _, _, _, receives_start rxBuff⟩

/-- The test finds nothing that it accepts: the loop is over. -/
def Returns (s : St) : Prop :=
  s.pc = .test ∧ ethGetRxPktSize (s.desc s.dmaRxDescToGet) = 0

/-- The way from the loop to the return. -/
def Leaves (behind : List Label) (s : St) : Prop :=
  Along step (fun _ s => s.pc = .clearR ∨ s.pc = .clearNis) behind s ∧
    (run step behind s).pc = .idle

theorem outside_pending {s : St} (pc : s.pc = .test ∨ s.pc = .idle) {head : Nat}
    {done late inHand pending : List Received}
    (receives : Receives s head done late inHand pending) :
    s.frames = done ++ pending ∧
      Queued ethRxBufNb (fun i => !(s.desc i).own) (Holds s.desc s.rxBuff) s.dmaRxDescToGet s.current
        pending := by
  have handles := receives.handles
  obtain ⟨get, rfl, rfl⟩ : s.dmaRxDescToGet = head ∧ inHand = [] ∧ late = [] := by
    rcases pc with pc | pc <;> rwa [pc] at handles
  have frames := receives.frames
  have queued := receives.queued
  simp only [List.append_nil] at frames
  rw [← get, List.nil_append] at queued
  exact ⟨frames, queued⟩

theorem returns_bad {s : St} (returns : Returns s) {r : Received} {pending : List Received}
    (queued : Queued ethRxBufNb (fun i => !(s.desc i).own) (Holds s.desc s.rxBuff)
      s.dmaRxDescToGet s.current (r :: pending)) : r.good = false := by
  have full := queued.full_head
  have own : (s.desc s.dmaRxDescToGet).own = false := by simpa using full
  have member := queued.holds 0 r rfl
  rw [slot_head queued.inside] at member
  have size := returns.2
  simp only [ethGetRxPktSize, own, member.status, Bool.not_false, Bool.true_and] at size
  rw [Received.good]
  split at size
  · simp [size]
  · rename_i refused
    rw [Bool.not_eq_true] at refused
    rw [refused, Bool.false_and]

/-- On the way to the return only the DMA does something. -/
theorem leaves_quiet {behind : List Label} {s : St}
    (leaves : Along step (fun _ s => s.pc = .clearR ∨ s.pc = .clearNis) behind s) :
    (run step behind s).outcomes = s.outcomes ∧ s.frames <+: (run step behind s).frames := by
  refine run_invariant (I := fun t => t.outcomes = s.outcomes ∧ s.frames <+: t.frames) ?_ leaves
    ⟨rfl, List.prefix_rfl⟩
  rintro label t pc ⟨outcomes, more⟩
  cases label with
  | irq =>
    simp only [step, irqStep]
    split <;> exact ⟨outcomes, more⟩
  | handler o =>
    rcases pc with pc | pc <;> simp only [step, handlerStep, pc] <;> exact ⟨outcomes, more⟩
  | store b =>
    simp only [step, dmaStore]
    split <;> exact ⟨outcomes, more⟩
  | writeBack status =>
    simp only [step, dmaWriteBack]
    split
    · exact ⟨outcomes, more.trans (List.prefix_append _ _)⟩
    · exact ⟨outcomes, more⟩

/-- Whenever the handler returns, the descriptor at `DMARxDescToGet` is the DMA's just when
every descriptor written back so far had no error, the last segment and a length, and none was
written back behind the last test of the loop. -/
theorem head_owned (rxBuff : Mem) (labels : List Label) (o : Outside) (behind : List Label)
    (returns : Returns (run step labels (start rxBuff)))
    (leaves : Leaves behind (step (.handler o) (run step labels (start rxBuff)))) :
    let s := run step (labels ++ .handler o :: behind) (start rxBuff)
    (s.desc s.dmaRxDescToGet).own = true ↔
      (∀ r ∈ s.frames, r.good = true) ∧
        s.frames.length = (run step labels (start rxBuff)).frames.length := by
  dsimp only
  obtain ⟨head, done, late, inHand, pending, receives⟩ := receives_run rxBuff labels
  obtain ⟨head', done', late', inHand', pending', receives'⟩ :=
    receives_run rxBuff (labels ++ .handler o :: behind)
  rw [run_append, run_cons] at receives' ⊢
  generalize run step labels (start rxBuff) = s at returns leaves receives receives' ⊢
  have last : step (.handler o) s = { s with pc := .clearR } := by
    simp only [step, handlerStep, returns.1, returns.2, ne_eq, not_true, if_false]
  obtain ⟨outcomes, more⟩ := leaves_quiet leaves.1
  have pc := leaves.2
  rw [last] at outcomes more pc receives' ⊢
  generalize run step behind { s with pc := .clearR } = s' at outcomes more pc receives' ⊢
  obtain ⟨frames, queued⟩ := outside_pending (.inl returns.1) receives
  obtain ⟨frames', queued'⟩ := outside_pending (.inr pc) receives'
  have goods := ((List.forall₂_and_left _ _).mp receives'.outcomes).1
  have full := queued'.full_head
  have same : done'.length = done.length := by
    rw [receives'.outcomes.length_eq, receives.outcomes.length_eq, outcomes]
  cases pending' with
  | nil =>
    have own : (s'.desc s'.dmaRxDescToGet).own = true := by simpa using full
    have all := more.length_le
    dsimp only at all
    rw [List.append_nil] at frames'
    refine iff_of_true own ⟨frames' ▸ goods, ?_⟩
    rw [frames, frames', List.length_append] at all ⊢
    omega
  | cons r' pending' =>
    have own : (s'.desc s'.dmaRxDescToGet).own = false := by simpa using full
    refine iff_of_false (by simp [own]) (fun ⟨all, still⟩ => ?_)
    -- with nothing written back behind the test, the head was bad there already
    cases pending with
    | nil =>
      rw [frames, frames', List.length_append, List.length_append, same] at still
      exact absurd still (by simp)
    | cons r pending =>
      have good := all r (more.subset (by simp [frames]))
      rw [returns_bad returns queued] at good
      cases good

instance (s : St) : Decidable (Returns s) := inferInstanceAs (Decidable (_ ∧ _))

instance (behind : List Label) (s : St) : Decidable (Leaves behind s) :=
  inferInstanceAs (Decidable (_ ∧ _))

/-- A `pbuf_alloc` that finds one pbuf for everything, and a stack that takes it. -/
def allTaken : Outside := ⟨fun len => some ⟨len, [], Nat.add_zero len⟩, true⟩

def frame64 (b : UInt8) : List Label :=
  List.replicate 64 (.store b) ++ [.writeBack ⟨false, true, true, 64⟩]

def handle (n : Nat) : List Label := .irq :: List.replicate n (.handler allTaken)

def leave : List Label := List.replicate 2 (.handler allTaken)

theorem head_owned_one :
    let s := run step (frame64 7 ++ handle 66 ++ .handler allTaken :: leave) (start (fun _ => 0))
    s.pc = .idle ∧ (s.desc s.dmaRxDescToGet).own = true :=
  ⟨by decide +kernel, (head_owned (fun _ => 0) (frame64 7 ++ handle 66) allTaken leave
    (by decide +kernel) (by decide +kernel)).mpr (by decide +kernel)⟩

/-- A frame with its error summary set stays at the head, and so does a good one that comes
between the last test and the clears. -/
theorem head_stuck :
    (let s := run step (.writeBack ⟨true, true, true, 64⟩ :: handle 1 ++ leave) (start (fun _ => 0))
     s.pc = .idle ∧ (s.desc s.dmaRxDescToGet).own = false) ∧
    (let s := run step (handle 1 ++ frame64 7 ++ leave) (start (fun _ => 0))
     s.pc = .idle ∧ (s.desc s.dmaRxDescToGet).own = false ∧ ∀ r ∈ s.frames, r.good = true) := by
  decide +kernel

/-- The outcomes are those of the first frames, in order. -/
def Accounted (frames : List Received) (outcomes : List Outcome) : Prop :=
  ∃ done waiting, frames = done ++ waiting ∧ List.Forall₂ Delivers done outcomes

/-- The answers that an outcome comes from: a failed `pbuf_alloc`, or a successful one and
what `netif->input` said. -/
def Outcome.answers : Outcome → List Bool
  | .noMem => [false]
  | .passed _ => [true, true]
  | .refused _ => [true, false]

def Pc.answered : Pc → List Bool
  | .copy _ _ _ _ _ _ => [true]
  | .giveBack _ p => [p.isSome]
  | .input _ => [true]
  | _ => []

/-- The answers so far are those of the outcomes, and of the frame in the handler's hands. -/
def Answered (s : St) : Prop := s.answers = s.outcomes.flatMap Outcome.answers ++ s.pc.answered

theorem answered_handler (o : Outside) {s : St} (answered : Answered s) :
    Answered (handlerStep o s) := by
  unfold Answered at answered
  unfold handlerStep
  cases pc : s.pc with
  | idle => exact answered
  | test =>
    rw [pc] at answered
    show s.answers = _
    rw [answered]
    dsimp only
    split <;> rfl
  | rxPacket =>
    rw [pc] at answered
    simp only [ethRxPacket]
    split <;> exact answered
  | alloc frame =>
    rw [pc] at answered
    simp only [Pc.answered, List.append_nil] at answered
    simp only [Answered, allocStep, answered]
    split <;> rename_i found <;> simp [found, Pc.answered]
  | copy frame l filled payload left next =>
    rw [pc] at answered
    cases left with
    | succ left => exact answered
    | zero => cases next <;> exact answered
  | giveBack frame p =>
    rw [pc] at answered
    cases p with
    | none => simpa [Answered, giveBackStep, Pc.answered, Outcome.answers] using answered
    | some p => exact answered
  | input p =>
    rw [pc] at answered
    simp only [Answered, inputStep, answered, Pc.answered]
    cases o.inputOk <;> simp [Outcome.answers]
  | clearR =>
    rw [pc] at answered
    exact answered
  | clearNis =>
    rw [pc] at answered
    exact answered

theorem answered_step (label : Label) (s : St) (answered : Answered s) :
    Answered (step label s) := by
  cases label with
  | irq =>
    simp only [step, irqStep]
    split
    · rename_i pc
      unfold Answered at answered
      rw [pc] at answered
      exact answered
    · exact answered
  | handler o => exact answered_handler o answered
  | store b =>
    simp only [step, dmaStore]
    split <;> exact answered
  | writeBack status =>
    simp only [step, dmaWriteBack]
    split <;> exact answered

section Delivery

variable {s : St} {head : Nat} {done late inHand pending : List Received}

theorem inHand_head (receives : Receives s head done late inHand pending) {i : Nat}
    (hand : i ∈ s.pc.inHand) : i = head ∧ ∃ r, inHand = [r] := by
  have handles := receives.handles
  cases pc : s.pc with
  | alloc frame =>
    rw [pc] at handles hand
    obtain ⟨-, r, held, taken⟩ := handles
    rw [Pc.inHand, taken.descriptor] at hand
    exact ⟨(Option.some.inj hand).symm, r, held⟩
  | copy frame l filled payload left next =>
    rw [pc] at handles hand
    obtain ⟨-, r, held, taken, -⟩ := handles
    rw [Pc.inHand, taken.descriptor] at hand
    exact ⟨(Option.some.inj hand).symm, r, held⟩
  | giveBack frame p =>
    rw [pc] at handles hand
    obtain ⟨-, r, held, taken, -⟩ := handles
    rw [Pc.inHand, taken.descriptor] at hand
    exact ⟨(Option.some.inj hand).symm, r, held⟩
  | _ =>
    rw [pc] at hand
    cases hand

theorem accounted (receives : Receives s head done late inHand pending)
    (proper : ∀ r ∈ s.frames, r.Proper) : Accounted s.frames s.outcomes := by
  refine ⟨done, late ++ inHand ++ pending, ?_, ?_⟩
  · rw [receives.frames, List.append_assoc, List.append_assoc, List.append_assoc]
  · have all : ∀ r ∈ done, r.Proper := fun r member => proper r (by
      rw [receives.frames]
      simp [member])
    have delivers := ((List.forall₂_and_left _ _).mp receives.outcomes).2
    exact (((List.forall₂_and_left _ _).mpr ⟨all, delivers⟩).imp fun r o h => h.2 h.1)

theorem returns_all (receives : Receives s head done late inHand pending)
    (proper : ∀ r ∈ s.frames, r.Proper) (returns : Returns s) :
    s.outcomes.length = s.frames.length ∧ ∀ i < ethRxBufNb, (s.desc i).own = true := by
  obtain ⟨frames, queued⟩ := outside_pending (.inl returns.1) receives
  cases pending with
  | nil =>
    refine ⟨?_, fun i hi => ?_⟩
    · rw [frames, List.append_nil, receives.outcomes.length_eq]
    · simpa using queued.empty hi
  | cons r pending =>
    have bad := returns_bad returns queued
    rw [(proper r (by simp [frames])).good] at bad
    cases bad

end Delivery

/-- Frames that each come whole and without error in one descriptor get their outcomes in
order: a chain passed to the stack carries its frame without the CRC, and only a frame
whose `pbuf_alloc` failed has none. While a frame is copied its descriptor is not the DMA's,
and when the handler returns every frame has its outcome and every descriptor is given
back. -/
theorem frames_delivered (rxBuff : Mem) (labels : List Label)
    (proper : ∀ r ∈ (run step labels (start rxBuff)).frames, r.Proper) :
    Accounted (run step labels (start rxBuff)).frames (run step labels (start rxBuff)).outcomes ∧
      Answered (run step labels (start rxBuff)) ∧
      (∀ i ∈ (run step labels (start rxBuff)).pc.inHand,
        ((run step labels (start rxBuff)).desc i).own = false) ∧
      (Returns (run step labels (start rxBuff)) →
        (run step labels (start rxBuff)).outcomes.length =
          (run step labels (start rxBuff)).frames.length ∧
        ∀ i < ethRxBufNb, ((run step labels (start rxBuff)).desc i).own = true) := by
  obtain ⟨head, done, late, inHand, pending, receives⟩ := receives_run rxBuff labels
  refine ⟨accounted receives proper, ?_, fun i hand => ?_, returns_all receives proper⟩
  · exact run_invariant (fun label s _ => answered_step label s)
      (along_true step labels (start rxBuff)) rfl
  · obtain ⟨rfl, r, held⟩ := inHand_head receives hand
    exact (receives.held held).1

def twoFrames : List Label :=
  frame64 7 ++ frame64 8 ++ handle 66 ++ [.handler allTaken, .handler allTaken] ++
    [.handler ⟨fun _ => none, true⟩, .handler allTaken, .handler allTaken]

theorem frames_delivered_two :
    (run step twoFrames (start (fun _ => 0))).outcomes =
        [.passed [List.replicate 60 7], .noMem] ∧
      Accounted (run step twoFrames (start (fun _ => 0))).frames
        (run step twoFrames (start (fun _ => 0))).outcomes :=
  ⟨by decide +kernel, (frames_delivered (fun _ => 0) twoFrames (by decide +kernel)).1⟩

end BoxFirmware.EthRx
