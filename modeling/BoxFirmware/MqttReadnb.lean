import BoxFirmware.GuardedRun
import BoxFirmware.MqttWire
import Mathlib.Tactic.Ring

/-! `MQTTPacket_readnb`, which is called again until a packet is there. What a run of calls
returns is what a reader of single bytes makes of the bytes that the run has taken from the
stream, so it does not matter how the stream is cut into pieces. -/
namespace BoxFirmware.MqttReadnb
open GuardedRun MqttPacket MqttWire

section Calls

/-- `MQTTTransport`. -/
structure Transport where
  multiplier : Nat
  remLen : Nat
  len : Nat
  state : Nat

/-- What is still to be read of the stream, and what the next calls of `recv` return: an error
or timeout, or at most so many bytes. -/
structure Source where
  inbox : List UInt8
  recv : List (Option Nat)

/-- `transport_getdatanb`: `none` is the -1 of a `getfn`, which it does not return. -/
def transportGetdatanb (count : Nat) (s : Source) : Option (List UInt8) × Source :=
  match s.recv with
  | [] => (some [], s)
  | none :: recv => (some [], { s with recv })
  | some arrived :: recv =>
    let r := transportGetdata arrived count s.inbox
    (some r.1, ⟨r.2, recv⟩)

/-- The `do` loop of `MQTTPacket_decodenb`, with the length bytes that may still come. -/
def decodenbLoop : (left : Nat) → Transport → Source → Int × Transport × Source
  | 0, trp, s => (-1, trp, s)
  | left + 1, trp, s =>
    match transportGetdatanb 1 s with
    | (none, s) => (-1, trp, s)
    | (some [], s) => (0, trp, s)
    | (some (c :: _), s) =>
      let trp := { trp with
        len := trp.len + 1
        remLen := trp.remLen + c.toNat % 128 * trp.multiplier
        multiplier := trp.multiplier * 128 }
      if c.toNat ≥ 128 then decodenbLoop left trp s else (trp.len, trp, s)

def mqttPacketDecodenb (trp : Transport) (s : Source) : Int × Transport × Source :=
  let trp := if trp.len = 0 then { trp with multiplier := 1, remLen := 0 } else trp
  decodenbLoop (4 - trp.len) trp s

def writeAt (buf : List UInt8) (i : Nat) (bytes : List UInt8) : List UInt8 :=
  buf.take i ++ bytes ++ buf.drop (i + bytes.length)

/-- The end of a call at `exit`. -/
def exit (rc : Int) (buf : List UInt8) (trp : Transport) (s : Source) :
    Int × List UInt8 × Transport × Source :=
  (rc, buf, { trp with state := 0 }, s)

def readBody (buf : List UInt8) (trp : Transport) (s : Source) :
    Int × List UInt8 × Transport × Source :=
  if trp.remLen = 0 then exit (packetType buf) buf trp s
  else
    match transportGetdatanb trp.remLen s with
    | (none, s) => exit (-1) buf trp s
    | (some [], s) => (0, buf, trp, s)
    | (some (c :: got), s) =>
      let bytes := c :: got
      let buf := writeAt buf trp.len bytes
      let trp := { trp with remLen := trp.remLen - bytes.length, len := trp.len + bytes.length }
      if trp.remLen ≠ 0 then (0, buf, trp, s) else exit (packetType buf) buf trp s

def readLength (buflen : Nat) (buf : List UInt8) (trp : Transport) (s : Source) :
    Int × List UInt8 × Transport × Source :=
  let (frc, trp, s) := mqttPacketDecodenb trp s
  if frc = -1 then exit (-1) buf trp s
  else if frc = 0 then (0, buf, trp, s)
  else
    let digits := mqttPacketEncode trp.remLen
    let buf := writeAt buf 1 digits
    let trp := { trp with len := 1 + digits.length }
    if trp.remLen + trp.len > buflen then exit (-1) buf trp s
    else readBody buf { trp with state := 2 } s

def mqttPacketReadnb (buflen : Nat) (buf : List UInt8) (trp : Transport) (s : Source) :
    Int × List UInt8 × Transport × Source :=
  match trp.state with
  | 1 => readLength buflen buf trp s
  | 2 => readBody buf trp s
  | _ =>
    match transportGetdatanb 1 s with
    | (none, s) => exit (-1) buf trp s
    | (some [], s) => (0, buf, { trp with state := 0 }, s)
    | (some (c :: _), s) =>
      readLength buflen (writeAt buf 0 [c]) { trp with len := 0, state := 1 } s

/-- What the calls of a run work on. -/
structure Conn where
  buf : List UInt8
  trp : Transport
  inbox : List UInt8

/-- A call, with what `recv` returns in it: its code and the bytes that it has counted. -/
def Conn.step (buflen : Nat) (recv : List (Option Nat)) (c : Conn) : (Int × List UInt8) × Conn :=
  let (rc, buf, trp, s) := mqttPacketReadnb buflen c.buf c.trp ⟨c.inbox, recv⟩
  ((rc, buf.take trp.len), ⟨buf, trp, s.inbox⟩)

/-- A packet, or an error. -/
def result : Int × List UInt8 → List (Option (List UInt8))
  | (rc, packet) => if rc = 0 then [] else if rc < 0 then [none] else [some packet]

end Calls

section Bytes

/-- Where a reader of single bytes stands. -/
inductive Scan
  | header
  | length (head : UInt8) (digits : List UInt8)
  | body (packet : List UInt8) (missing : Nat)

def digitsValue : List UInt8 → Nat
  | [] => 0
  | c :: digits => c.toNat % 128 + 128 * digitsValue digits

def whole (packet : List UInt8) : List (Option (List UInt8)) :=
  if packetType packet = 0 then [] else [some packet]

def lengthRead (buflen : Nat) (head : UInt8) (remLen : Nat) : List (Option (List UInt8)) × Scan :=
  let front := head :: mqttPacketEncode remLen
  if remLen + front.length > buflen then ([none], .header)
  else if remLen = 0 then (whole front, .header)
  else ([], .body front remLen)

def Scan.step (buflen : Nat) (b : UInt8) : Scan → List (Option (List UInt8)) × Scan
  | .header => ([], .length b [])
  | .length head digits =>
    let digits := digits ++ [b]
    if b.toNat ≥ 128 then
      if digits.length = 4 then ([none], .header) else ([], .length head digits)
    else lengthRead buflen head (digitsValue digits)
  | .body packet missing =>
    let packet := packet ++ [b]
    if missing = 1 then (whole packet, .header) else ([], .body packet (missing - 1))

variable (buflen : Nat)

def Scans (a : Scan) (bytes : List UInt8) (results : List (Option (List UInt8))) (a' : Scan) : Prop :=
  (outputs (Scan.step buflen) bytes a).flatten = results ∧ final (Scan.step buflen) bytes a = a'

variable {buflen} {a b c : Scan} {bytes more : List UInt8} {results results' : List (Option (List UInt8))}

theorem scans_nil (a : Scan) : Scans buflen a [] [] a := ⟨rfl, rfl⟩

theorem Scans.append (first : Scans buflen a bytes results b) (second : Scans buflen b more results' c) :
    Scans buflen a (bytes ++ more) (results ++ results') c := by
  obtain ⟨rfl, rfl⟩ := first
  obtain ⟨rfl, rfl⟩ := second
  exact ⟨by rw [outputs_append, List.flatten_append], final_append _ _ _ _⟩

theorem scans_one (buflen : Nat) (a : Scan) (byte : UInt8) :
    Scans buflen a [byte] (Scan.step buflen byte a).1 (Scan.step buflen byte a).2 :=
  ⟨List.append_nil _, rfl⟩

theorem digitsValue_concat (digits : List UInt8) (byte : UInt8) :
    digitsValue (digits ++ [byte]) = digitsValue digits + byte.toNat % 128 * 128 ^ digits.length := by
  induction digits with
  | nil => simp [digitsValue]
  | cons d digits ih =>
    rw [List.cons_append, digitsValue, digitsValue, ih, List.length_cons, Nat.pow_succ]
    ring

theorem scans_part {got packet : List UInt8} {missing : Nat} (short : got.length < missing) :
    Scans buflen (.body packet missing) got [] (.body (packet ++ got) (missing - got.length)) := by
  induction got generalizing packet missing with
  | nil =>
    rw [List.append_nil]
    exact scans_nil _
  | cons byte got ih =>
    rw [List.length_cons] at short
    have one : Scans buflen (.body packet missing) [byte] [] (.body (packet ++ [byte]) (missing - 1)) := by
      have step := scans_one buflen (.body packet missing) byte
      rw [Scan.step, if_neg (by omega)] at step
      exact step
    have rest : Scans buflen (.body (packet ++ [byte]) (missing - 1)) got []
        (.body (packet ++ [byte] ++ got) (missing - 1 - got.length)) := ih (by omega)
    rw [List.append_assoc, Nat.sub_sub, Nat.add_comm 1] at rest
    exact one.append rest

theorem scans_rest {got packet : List UInt8} {missing : Nat} (positive : 0 < missing)
    (size : got.length = missing) :
    Scans buflen (.body packet missing) got (whole (packet ++ got)) .header := by
  rcases List.eq_nil_or_concat got with rfl | ⟨front, last, rfl⟩
  · rw [← size] at positive
    cases positive
  · rw [List.concat_eq_append] at size ⊢
    rw [List.length_append, List.length_singleton] at size
    have step := scans_one buflen (.body (packet ++ front) (missing - front.length)) last
    rw [Scan.step, if_pos (by omega), List.append_assoc] at step
    exact (scans_part (by omega)).append step

end Bytes

section Refines
variable {buflen : Nat}

theorem getdatanb_cases (count : Nat) (s : Source) : ∃ got,
    (transportGetdatanb count s).1 = some got ∧
      s.inbox = got ++ (transportGetdatanb count s).2.inbox ∧ got.length ≤ count := by
  unfold transportGetdatanb
  cases s.recv with
  | nil => exact ⟨[], rfl, rfl, Nat.zero_le _⟩
  | cons answer recv =>
    cases answer with
    | none => exact ⟨[], rfl, rfl, Nat.zero_le _⟩
    | some arrived =>
      refine ⟨s.inbox.take (min arrived count), rfl, (List.take_append_drop _ _).symm, ?_⟩
      rw [List.length_take]
      omega

/-- The transport has counted these length bytes. -/
structure Counting (trp : Transport) (digits : List UInt8) : Prop where
  len : trp.len = digits.length
  remLen : trp.remLen = digitsValue digits
  multiplier : trp.multiplier = 128 ^ digits.length

/-- What the loop has made of the length bytes that it has taken. -/
inductive Decoded (buflen : Nat) (head : UInt8) (digits : List UInt8) (trp : Transport)
    (taken : List UInt8) : Int × Transport × Source → Prop
  | bad {trp' s} (scans : Scans buflen (.length head digits) taken [none] .header) :
    Decoded buflen head digits trp taken (-1, trp', s)
  | wait {trp' s} (counting : Counting trp' (digits ++ taken)) (few : (digits ++ taken).length < 4)
    (state : trp'.state = trp.state)
    (scans : Scans buflen (.length head digits) taken [] (.length head (digits ++ taken))) :
    Decoded buflen head digits trp taken (0, trp', s)
  | done {rc trp' s} (positive : 0 < rc) (scans : Scans buflen (.length head digits) taken
      (lengthRead buflen head trp'.remLen).1 (lengthRead buflen head trp'.remLen).2) :
    Decoded buflen head digits trp taken (rc, trp', s)

theorem decodenbLoop_decoded (buflen : Nat) (head : UInt8) {left : Nat} {digits : List UInt8} {trp : Transport}
    {s : Source} (few : digits.length + left = 3) (counting : Counting trp digits) :
    ∃ taken, s.inbox = taken ++ (decodenbLoop (left + 1) trp s).2.2.inbox ∧
      Decoded buflen head digits trp taken (decodenbLoop (left + 1) trp s) := by
  induction left using Nat.strong_induction_on generalizing digits trp s with
  | _ left ih =>
    obtain ⟨got, gives, split, small⟩ := getdatanb_cases 1 s
    rw [decodenbLoop]
    generalize transportGetdatanb 1 s = r at gives split
    obtain ⟨given, s'⟩ := r
    dsimp only at gives split ⊢
    subst gives
    cases got with
    | nil =>
      refine ⟨[], split, .wait ?_ ?_ rfl ?_⟩
      · rwa [List.append_nil]
      · rw [List.append_nil]
        omega
      · rw [List.append_nil]
        exact scans_nil _
    | cons byte got =>
      obtain rfl : got = [] := List.length_eq_zero_iff.mp (by rw [List.length_cons] at small; omega)
      have counted : Counting { trp with
          len := trp.len + 1
          remLen := trp.remLen + byte.toNat % 128 * trp.multiplier
          multiplier := trp.multiplier * 128 } (digits ++ [byte]) := by
        refine ⟨?_, ?_, ?_⟩
        · rw [List.length_append, List.length_singleton, counting.len]
        · rw [digitsValue_concat, counting.remLen, counting.multiplier]
        · rw [List.length_append, List.length_singleton, Nat.pow_succ, counting.multiplier]
      have step := scans_one buflen (.length head digits) byte
      rw [Scan.step] at step
      dsimp only
      by_cases more : byte.toNat ≥ 128
      · rw [if_pos more] at step ⊢
        rw [List.length_append, List.length_singleton] at step
        cases left with
        | zero =>
          rw [if_pos (by omega)] at step
          exact ⟨[byte], split, .bad step⟩
        | succ left =>
          rw [if_neg (by omega)] at step
          obtain ⟨taken, split', decoded⟩ := ih left (Nat.lt_succ_self left)
            (by rw [List.length_append, List.length_singleton]; omega) counted
          refine ⟨byte :: taken, ?_, ?_⟩
          · rw [split, split']
            rfl
          · generalize decodenbLoop (left + 1) _ s' = r at decoded
            cases decoded with
            | bad scans => exact .bad (step.append scans)
            | wait counting few state scans =>
              rw [List.append_assoc] at counting few scans
              exact .wait counting few state (step.append scans)
            | done positive scans => exact .done positive (step.append scans)
      · rw [if_neg more] at step ⊢
        refine ⟨[byte], split, .done ?_ ?_⟩
        · omega
        · rw [counted.remLen]
          exact step

def Stands (buf : List UInt8) (trp : Transport) : Scan → Prop
  | .header => trp.state = 0
  | .length head digits =>
    trp.state = 1 ∧ buf.take 1 = [head] ∧ Counting trp digits ∧ digits.length < 4
  | .body packet missing =>
    trp.state = 2 ∧ trp.len = packet.length ∧ buf.take packet.length = packet ∧ packet ≠ [] ∧
      trp.remLen = missing ∧ 0 < missing

def Called (buflen : Nat) (inbox : List UInt8) (a : Scan) (r : Int × List UInt8 × Transport × Source) :
    Prop :=
  ∃ taken a', inbox = taken ++ r.2.2.2.inbox ∧ Stands r.2.1 r.2.2.1 a' ∧
    Scans buflen a taken (result (r.1, r.2.1.take r.2.2.1.len)) a'

variable {buf : List UInt8} {trp : Transport} {s : Source} {a b : Scan} {bytes : List UInt8}

theorem Called.after {inbox : List UInt8} {r : Int × List UInt8 × Transport × Source}
    (called : Called buflen s.inbox b r) (split : inbox = bytes ++ s.inbox)
    (scans : Scans buflen a bytes [] b) : Called buflen inbox a r := by
  obtain ⟨taken, a', split', stands, scans'⟩ := called
  refine ⟨bytes ++ taken, a', ?_, stands, scans.append scans'⟩
  rw [split, split', List.append_assoc]

theorem writeAt_take (buf : List UInt8) {i : Nat} {front : List UInt8} (bytes : List UInt8)
    (here : buf.take i = front) (size : front.length = i) :
    (writeAt buf i bytes).take (i + bytes.length) = front ++ bytes := by
  rw [writeAt, here, ← size, ← List.length_append]
  exact List.take_left

theorem packetType_take {packet : List UInt8} (here : buf.take packet.length = packet)
    (some : packet ≠ []) : packetType buf = packetType packet := by
  cases buf with
  | nil =>
    rw [List.take_nil] at here
    exact absurd here.symm some
  | cons c buf =>
    cases packet with
    | nil => exact absurd rfl some
    | cons d packet =>
      rw [List.length_cons, List.take_succ_cons] at here
      rw [(List.cons.inj here).1]
      rfl

theorem result_whole {packet : List UInt8} (here : buf.take packet.length = packet)
    (some : packet ≠ []) : result ((packetType buf : Int), packet) = whole packet := by
  rw [packetType_take here some, result, whole]
  by_cases zero : packetType packet = 0
  · rw [if_pos (by omega), if_pos zero]
  · rw [if_neg (by omega), if_neg (by omega), if_neg zero]

theorem readBody_called {packet : List UInt8} {missing : Nat}
    (stands : Stands buf trp (.body packet missing)) :
    Called buflen s.inbox (.body packet missing) (readBody buf trp s) := by
  obtain ⟨state, len, here, some, remLen, positive⟩ := stands
  obtain ⟨got, gives, split, small⟩ := getdatanb_cases trp.remLen s
  unfold readBody
  rw [if_neg (by omega)]
  generalize transportGetdatanb trp.remLen s = r at gives split
  obtain ⟨given, s'⟩ := r
  dsimp only at gives split ⊢
  subst gives
  cases got with
  | nil => exact ⟨[], .body packet missing, split, ⟨state, len, here, some, remLen, positive⟩, scans_nil _⟩
  | cons c got =>
    have written := writeAt_take buf (c :: got) here rfl
    rw [← List.length_append] at written
    have some' : packet ++ c :: got ≠ [] := by simp
    dsimp only
    rw [remLen] at small ⊢
    rw [len]
    by_cases last : missing - (c :: got).length = 0
    · rw [if_neg (by omega)]
      refine ⟨c :: got, .header, split, rfl, ?_⟩
      have scans : Scans buflen (.body packet missing) (c :: got) (whole (packet ++ c :: got)) .header :=
        scans_rest positive (by omega)
      rw [exit]
      dsimp only
      rw [← List.length_append, written, result_whole written some']
      exact scans
    · rw [if_pos last]
      refine ⟨c :: got, .body (packet ++ c :: got) (missing - (c :: got).length), split,
        ⟨state, ?_, written, some', rfl, by omega⟩, ?_⟩
      · rw [List.length_append]
      · exact scans_part (by omega)

theorem decodenb_decoded (buflen : Nat) (head : UInt8) (s : Source) {digits : List UInt8} (few : digits.length < 4)
    (ready : trp.len = 0 ∧ digits = [] ∨ Counting trp digits) :
    ∃ taken, s.inbox = taken ++ (mqttPacketDecodenb trp s).2.2.inbox ∧
      Decoded buflen head digits trp taken (mqttPacketDecodenb trp s) := by
  have started : ∃ trp', mqttPacketDecodenb trp s = decodenbLoop (3 - digits.length + 1) trp' s ∧
      Counting trp' digits ∧ trp'.state = trp.state := by
    unfold mqttPacketDecodenb
    by_cases first : trp.len = 0
    · have none : digits = [] := by
        rcases ready with ⟨-, none⟩ | counting
        · exact none
        · exact List.length_eq_zero_iff.mp (by rw [← counting.len, first])
      subst none
      refine ⟨{ trp with multiplier := 1, remLen := 0 }, ?_, ⟨first, rfl, rfl⟩, rfl⟩
      rw [if_pos first]
      dsimp only
      rw [first]
      rfl
    · have counting := ready.resolve_left (fun fresh => first fresh.1)
      refine ⟨trp, ?_, counting, rfl⟩
      rw [if_neg first]
      dsimp only
      rw [counting.len]
      congr 1
      omega
  obtain ⟨trp', same, counting, state⟩ := started
  rw [same]
  obtain ⟨taken, split, decoded⟩ := decodenbLoop_decoded buflen head (s := s)
    (show digits.length + (3 - digits.length) = 3 by omega) counting
  refine ⟨taken, split, ?_⟩
  generalize decodenbLoop (3 - digits.length + 1) trp' s = r at decoded
  cases decoded with
  | bad scans => exact .bad scans
  | wait counting few state' scans => exact .wait counting few (state'.trans state) scans
  | done positive scans => exact .done positive scans

theorem readLength_called {head : UInt8} {digits : List UInt8} (few : digits.length < 4)
    (ready : trp.len = 0 ∧ digits = [] ∨ Counting trp digits) (state : trp.state = 1)
    (here : buf.take 1 = [head]) :
    Called buflen s.inbox (.length head digits) (readLength buflen buf trp s) := by
  obtain ⟨taken, split, decoded⟩ := decodenb_decoded buflen head s few ready
  unfold readLength
  generalize mqttPacketDecodenb trp s = r at decoded split
  cases decoded with
  | bad scans =>
    dsimp only
    rw [if_pos rfl]
    exact ⟨taken, .header, split, rfl, scans⟩
  | wait counting few state' scans =>
    dsimp only at split ⊢
    rw [if_neg (by decide), if_pos rfl]
    exact ⟨taken, .length head (digits ++ taken), split, ⟨state'.trans state, here, counting, few⟩, scans⟩
  | @done rc trp' s' positive scans =>
    dsimp only at split ⊢
    rw [if_neg (by omega), if_neg (by omega)]
    have written := writeAt_take buf (mqttPacketEncode trp'.remLen) here rfl
    rw [lengthRead] at scans
    rw [List.length_cons, Nat.add_comm _ 1] at scans
    have size : ([head] ++ mqttPacketEncode trp'.remLen).length =
        1 + (mqttPacketEncode trp'.remLen).length := by
      rw [List.length_append, List.length_singleton]
    by_cases large : trp'.remLen + (1 + (mqttPacketEncode trp'.remLen).length) > buflen
    · rw [if_pos large] at scans ⊢
      exact ⟨taken, .header, split, rfl, scans⟩
    · rw [if_neg large] at scans ⊢
      by_cases empty : trp'.remLen = 0
      · rw [if_pos empty] at scans
        rw [readBody, if_pos empty]
        refine ⟨taken, .header, split, rfl, ?_⟩
        rw [exit]
        dsimp only
        rw [written]
        rw [← size] at written
        rw [result_whole written (by simp)]
        exact scans
      · rw [if_neg empty] at scans
        have stands : Stands (writeAt buf 1 (mqttPacketEncode trp'.remLen))
            { trp' with len := 1 + (mqttPacketEncode trp'.remLen).length, state := 2 }
            (.body ([head] ++ mqttPacketEncode trp'.remLen) trp'.remLen) :=
          ⟨rfl, size.symm, by rw [size]; exact written, by simp, rfl, Nat.pos_of_ne_zero empty⟩
        exact (readBody_called (s := s') stands).after split scans

theorem readnb_called (buflen : Nat) (s : Source) (stands : Stands buf trp a) :
    Called buflen s.inbox a (mqttPacketReadnb buflen buf trp s) := by
  cases a with
  | header =>
    have state : trp.state = 0 := stands
    obtain ⟨got, gives, split, small⟩ := getdatanb_cases 1 s
    unfold mqttPacketReadnb
    rw [state]
    generalize transportGetdatanb 1 s = r at gives split
    obtain ⟨given, s'⟩ := r
    dsimp only at gives split ⊢
    subst gives
    cases got with
    | nil => exact ⟨[], .header, split, rfl, scans_nil _⟩
    | cons byte got =>
      obtain rfl : got = [] := List.length_eq_zero_iff.mp (by rw [List.length_cons] at small; omega)
      have front : (writeAt buf 0 [byte]).take 1 = [byte] := by simp [writeAt]
      exact (readLength_called (s := s') (by decide) (Or.inl ⟨rfl, rfl⟩) rfl front).after split
        (scans_one buflen .header byte)
  | length head digits =>
    obtain ⟨state, here, counting, few⟩ := stands
    unfold mqttPacketReadnb
    rw [state]
    exact readLength_called few (Or.inr counting) state here
  | body packet missing =>
    unfold mqttPacketReadnb
    rw [stands.1]
    exact readBody_called stands

/-- However the stream is cut into pieces, a run of calls returns what a reader of single bytes
makes of the bytes that the calls have taken. -/
theorem readnb_pieces (buflen : Nat) (calls : List (List (Option Nat))) (c : Conn)
    (fresh : c.trp.state = 0) :
    ∃ taken, c.inbox = taken ++ (final (Conn.step buflen) calls c).inbox ∧
      (outputs (Conn.step buflen) calls c).flatMap result =
        (outputs (Scan.step buflen) taken .header).flatten := by
  have each : ∀ recv (c : Conn) a, Stands c.buf c.trp a → ∃ taken,
      c.inbox = taken ++ (Conn.step buflen recv c).2.inbox ∧
        Stands (Conn.step buflen recv c).2.buf (Conn.step buflen recv c).2.trp
          (final (Scan.step buflen) taken a) ∧
        result (Conn.step buflen recv c).1 = (outputs (Scan.step buflen) taken a).flatten := by
    intro recv c a stands
    obtain ⟨taken, a', split, stands', results, rfl⟩ :=
      readnb_called buflen ⟨c.inbox, recv⟩ stands
    exact ⟨taken, split, stands', results.symm⟩
  obtain ⟨taken, split, -, results⟩ := outputs_batched each calls (t := .header) fresh
  exact ⟨taken, split, results⟩

end Refines

section Packets
variable {buflen : Nat}

theorem scans_digits (buflen : Nat) (head : UInt8) {fuel n : Nat} {digits : List UInt8}
    (enough : n < 128 ^ (fuel + 1)) (few : digits.length < 4) (small : n < 128 ^ (4 - digits.length)) :
    Scans buflen (.length head digits) (encodeDigits (fuel + 1) n)
      (lengthRead buflen head (digitsValue digits + 128 ^ digits.length * n)).1
      (lengthRead buflen head (digitsValue digits + 128 ^ digits.length * n)).2 := by
  have last : ∀ {n : Nat}, n < 128 → ∀ {digits : List UInt8},
      Scans buflen (.length head digits) [UInt8.ofNat (n % 128)]
        (lengthRead buflen head (digitsValue digits + 128 ^ digits.length * n)).1
        (lengthRead buflen head (digitsValue digits + 128 ^ digits.length * n)).2 := by
    intro n low digits
    have digit : (UInt8.ofNat n).toNat = n := by
      rw [UInt8.toNat_ofNat']
      omega
    have step := scans_one buflen (.length head digits) (UInt8.ofNat n)
    rw [Nat.mod_eq_of_lt low]
    rw [Scan.step, digit, if_neg (by omega), digitsValue_concat, digit, Nat.mod_eq_of_lt low,
      Nat.mul_comm n] at step
    exact step
  induction fuel generalizing n digits with
  | zero =>
    rw [encodeDigits, if_neg (by omega)]
    exact last enough
  | succ fuel ih =>
    by_cases more : n / 128 > 0
    · have digit : (UInt8.ofNat (n % 128 + 128)).toNat = n % 128 + 128 := by
        rw [UInt8.toNat_ofNat']
        omega
      have room : digits.length < 3 := by
        by_contra full
        rw [show 4 - digits.length = 1 by omega] at small
        omega
      have step := scans_one buflen (.length head digits) (UInt8.ofNat (n % 128 + 128))
      rw [Scan.step, digit, if_pos (by omega), List.length_append, List.length_singleton,
        if_neg (by omega)] at step
      have size : (digits ++ [UInt8.ofNat (n % 128 + 128)]).length = digits.length + 1 := by
        rw [List.length_append, List.length_singleton]
      have rest := ih (n := n / 128) (by rw [Nat.pow_succ] at enough; omega)
        (show (digits ++ [UInt8.ofNat (n % 128 + 128)]).length < 4 by omega)
        (by
          rw [size]
          rw [show 4 - digits.length = 4 - (digits.length + 1) + 1 by omega, Nat.pow_succ] at small
          omega)
      have value : digitsValue digits + (n % 128 + 128) % 128 * 128 ^ digits.length +
          128 ^ (digits.length + 1) * (n / 128) = digitsValue digits + 128 ^ digits.length * n := by
        have split := Nat.div_add_mod n 128
        rw [Nat.add_mod_right, Nat.mod_mod, Nat.add_assoc]
        congr 1
        calc n % 128 * 128 ^ digits.length + 128 ^ (digits.length + 1) * (n / 128)
            = 128 ^ digits.length * (128 * (n / 128) + n % 128) := by ring
          _ = 128 ^ digits.length * n := by rw [split]
      rw [digitsValue_concat, digit, size, value] at rest
      rw [encodeDigits, if_pos more]
      exact step.append rest
    · rw [encodeDigits, if_neg more]
      exact last (by omega)

theorem scans_frame {head : UInt8} {body : List UInt8} (small : body.length < 128 ^ 4)
    (fits : (head :: mqttPacketEncode body.length ++ body).length ≤ buflen)
    (typed : typeBits head ≠ 0) :
    ∃ front last b, head :: mqttPacketEncode body.length ++ body = front ++ [last] ∧
      Scans buflen .header front [] b ∧
      Scan.step buflen last b = ([some (head :: mqttPacketEncode body.length ++ body)], .header) := by
  have reported : ∀ rest, whole (head :: rest) = [some (head :: rest)] := fun rest => if_neg typed
  rcases List.eq_nil_or_concat body with rfl | ⟨front, last, rfl⟩
  · refine ⟨[head], 0, .length head [], rfl, scans_one buflen .header head, ?_⟩
    have room : ¬ 0 + (head :: mqttPacketEncode 0).length > buflen := by
      rw [List.append_nil] at fits
      rw [Nat.zero_add]
      exact Nat.not_lt.mpr fits
    show lengthRead buflen head 0 = _
    rw [lengthRead, if_neg room, if_pos rfl, reported]
    rfl
  · rw [List.concat_eq_append] at small fits ⊢
    have size : (front ++ [last]).length = front.length + 1 := by
      rw [List.length_append, List.length_singleton]
    rw [size] at small fits ⊢
    rw [List.cons_append, List.length_cons, List.length_append, size] at fits
    have counted := scans_digits buflen head (show front.length + 1 < 128 ^ (4 + 1) by omega)
      (show ([] : List UInt8).length < 4 by decide) small
    have value : digitsValue [] + 128 ^ ([] : List UInt8).length * (front.length + 1) =
        front.length + 1 := by
      simp [digitsValue]
    have room : ¬ front.length + 1 + (head :: mqttPacketEncode (front.length + 1)).length > buflen := by
      rw [List.length_cons]
      omega
    rw [value, lengthRead, if_neg room, if_neg (by omega)] at counted
    have body : Scans buflen (.body (head :: mqttPacketEncode (front.length + 1)) (front.length + 1))
        front [] _ := scans_part (Nat.lt_succ_self front.length)
    refine ⟨_, last, _, (List.append_assoc _ front [last]).symm,
      ((scans_one buflen .header head).append counted).append body, ?_⟩
    rw [Scan.step, if_pos (by omega), List.cons_append, List.cons_append, reported]
    simp

/-- What a run has taken of a stream of packets is reported packet by packet, each with its
last byte. -/
theorem scans_packets {packets : List (List UInt8)} (framed : ∀ p ∈ packets, ∃ front last b,
      p = front ++ [last] ∧ Scans buflen .header front [] b ∧
        Scan.step buflen last b = ([some p], .header))
    {taken rest : List UInt8} (split : packets.flatten = taken ++ rest) :
    ∃ k, (outputs (Scan.step buflen) taken .header).flatten = (packets.take k).map some ∧
      (packets.take k).flatten <+: taken ∧
        (k < packets.length → taken.length < (packets.take (k + 1)).flatten.length) := by
  induction packets generalizing taken with
  | nil =>
    have none : taken = [] := (List.append_eq_nil_iff.mp split.symm).1
    subst none
    exact ⟨0, rfl, List.prefix_refl _, fun more => absurd more (Nat.lt_irrefl 0)⟩
  | cons p packets ih =>
    obtain ⟨front, last, b, text, quiet, ends⟩ := framed p List.mem_cons_self
    by_cases short : taken.length < p.length
    · refine ⟨0, ?_, List.nil_prefix, fun _ => by simpa using short⟩
      have part : taken <+: front := by
        have inside : taken <+: p ++ packets.flatten := ⟨rest, split.symm⟩
        have inside' : taken <+: front ++ ([last] ++ packets.flatten) := by
          rwa [text, List.append_assoc] at inside
        rw [text, List.length_append, List.length_singleton] at short
        exact List.prefix_of_prefix_length_le inside' (List.prefix_append _ _) (by omega)
      obtain ⟨back, rfl⟩ := part
      have none := quiet.1
      rw [outputs_append, List.flatten_append, List.append_eq_nil_iff] at none
      exact none.1
    · obtain ⟨later, rfl⟩ : p <+: taken :=
        List.prefix_of_prefix_length_le (List.prefix_append _ packets.flatten) ⟨rest, split.symm⟩
          (by omega)
      rw [List.flatten_cons, List.append_assoc] at split
      obtain ⟨k, results, inside, more⟩ := ih (fun q member => framed q (List.mem_cons_of_mem p member))
        (List.append_cancel_left split)
      have scans : Scans buflen .header p [some p] .header := by
        have step := scans_one buflen b last
        rw [ends] at step
        rw [text] at step ⊢
        exact quiet.append step
      refine ⟨k + 1, ?_, ?_, fun less => ?_⟩
      · rw [outputs_append, scans.2, List.flatten_append, scans.1, results, List.take_succ_cons]
        rfl
      · rw [List.take_succ_cons, List.flatten_cons]
        exact (List.prefix_append_right_inj p).mpr inside
      · have next := more (by rw [List.length_cons] at less; omega)
        rw [List.take_succ_cons, List.flatten_cons, List.length_append, List.length_append]
        omega

theorem bytes_frame (p : Packet) (counted : p.uncounted = 0) :
    ∃ head body, p.bytes = head :: mqttPacketEncode p.remLen ++ body ∧ body.length = p.remLen := by
  have front : ∃ head body, p.bytes = [head] ++ (mqttPacketEncode p.remLen ++ body) := by
    cases p <;> simp only [Packet.bytes, Packet.remLen, connectPacket, connackPacket, publishPacket,
      subscribePacket, subackPacket, unsubscribePacket, unsubackPacket, List.append_assoc]
    case zero => exact ⟨_, [], by rw [List.append_nil]⟩
    all_goals exact ⟨_, _, rfl⟩
  obtain ⟨head, body, text⟩ := front
  have size := p.bytes_length
  rw [text, counted] at size
  simp only [List.length_append, List.length_singleton] at size
  exact ⟨head, body, text, by omega⟩

/-- Of a stream of packets as the serializers write them a run of calls returns each once, in
order, in the call that takes its last byte. -/
theorem readnb_packets {packets : List Packet} (framed : ∀ p ∈ packets, p.uncounted = 0 ∧
      p.remLen < 128 ^ 4 ∧ p.bytes.length ≤ buflen ∧ packetType p.bytes ≠ 0)
    (calls : List (List (Option Nat))) {c : Conn} (fresh : c.trp.state = 0)
    (stream : c.inbox = packets.flatMap Packet.bytes) :
    ∃ k taken, c.inbox = taken ++ (final (Conn.step buflen) calls c).inbox ∧
      (outputs (Conn.step buflen) calls c).flatMap result =
        (packets.take k).map (fun p => some p.bytes) ∧
      (packets.take k).flatMap Packet.bytes <+: taken ∧
      (k < packets.length → taken.length < ((packets.take (k + 1)).flatMap Packet.bytes).length) := by
  obtain ⟨taken, split, results⟩ := readnb_pieces buflen calls c fresh
  have frames : ∀ bytes ∈ packets.map Packet.bytes, ∃ front last b, bytes = front ++ [last] ∧
      Scans buflen .header front [] b ∧ Scan.step buflen last b = ([some bytes], .header) := by
    intro bytes member
    obtain ⟨p, listed, rfl⟩ := List.mem_map.mp member
    obtain ⟨counted, small, fits, typed⟩ := framed p listed
    obtain ⟨head, body, text, size⟩ := bytes_frame p counted
    rw [← size] at text small
    rw [text] at fits typed ⊢
    exact scans_frame small fits typed
  have whole : (packets.map Packet.bytes).flatten =
      taken ++ (final (Conn.step buflen) calls c).inbox := by
    rw [← split, stream, List.flatMap_def]
  obtain ⟨k, reports, inside, more⟩ := scans_packets frames whole
  refine ⟨k, taken, split, ?_, ?_, fun less => ?_⟩
  · rw [results, reports, ← List.map_take, List.map_map]
    rfl
  · rwa [List.flatMap_def, List.map_take]
  · rw [List.flatMap_def, List.map_take]
    exact more (by rwa [List.length_map])

def twoPackets : Conn := ⟨[], ⟨0, 0, 0, 0⟩,
  [Packet.publish 0 1 0 7 [0x74] [0x6F, 0x6E], Packet.zero msgPingresp].flatMap Packet.bytes⟩

theorem readnb_packets_two : ∃ k taken,
    twoPackets.inbox = taken ++ (final (Conn.step 64) [[some 1, none], [some 5, some 5]] twoPackets).inbox ∧
      (outputs (Conn.step 64) [[some 1, none], [some 5, some 5]] twoPackets).flatMap result =
        (List.take k [Packet.publish 0 1 0 7 [0x74] [0x6F, 0x6E], Packet.zero msgPingresp]).map
          (fun p => some p.bytes) ∧
      (List.take k [Packet.publish 0 1 0 7 [0x74] [0x6F, 0x6E], Packet.zero msgPingresp]).flatMap
        Packet.bytes <+: taken ∧
      (k < 2 → taken.length < ((List.take (k + 1)
        [Packet.publish 0 1 0 7 [0x74] [0x6F, 0x6E], Packet.zero msgPingresp]).flatMap
          Packet.bytes).length) :=
  readnb_packets (by decide) [[some 1, none], [some 5, some 5]] rfl rfl

end Packets

end BoxFirmware.MqttReadnb
