import BoxFirmware.MqttHeard

/-! Two runs of `mqtt_thread` that receive the same packets but for the DUP and RETAIN flags and
the packet ids of the PUBLISHes. The deserializer writes these three into variables of the
thread, and two of them are in the packets that the thread makes. -/
namespace BoxFirmware.MqttTwoRuns
open ByteMem CText GuardedRun Malloc MqttHeard MqttPacket MqttQos2 MqttThread

section Packets

def blotted (buf : List UInt8) : List UInt8 :=
  if typeBits (ofList buf 0) = msgPublish then
    let flags := buf.set 0 (header msgPublish 0 (qosBits (ofList buf 0)) 0)
    if 0 < qosBits (ofList buf 0) then
      (flags.set (idAt (ofList buf)) 0).set (idAt (ofList buf) + 1) 0
    else flags
  else buf

def Alike (buf buf' : List UInt8) : Prop := blotted buf = blotted buf'

instance (buf buf' : List UInt8) : Decidable (Alike buf buf') :=
  inferInstanceAs (Decidable (_ = _))

theorem blotted_length (buf : List UInt8) : (blotted buf).length = buf.length := by
  unfold blotted
  dsimp only
  split_ifs <;> simp only [List.length_set]

theorem Alike.length {buf buf' : List UInt8} (alike : Alike buf buf') :
    buf.length = buf'.length := by
  rw [← blotted_length buf, ← blotted_length buf', alike]

theorem ofList_set {buf : List UInt8} {i j : Nat} (v : UInt8) (other : j ≠ i) :
    ofList (buf.set i v) j = ofList buf j := by
  simp only [ofList, List.getD_eq_getElem?_getD, List.getElem?_set_ne (Ne.symm other)]

theorem blotted_head {buf : List UInt8} (publish : typeBits (ofList buf 0) = msgPublish) :
    ofList (blotted buf) 0 = header msgPublish 0 (qosBits (ofList buf 0)) 0 := by
  cases buf with
  | nil => cases publish
  | cons b rest =>
    have behind : idAt (ofList (b :: rest)) ≠ 0 := by
      unfold idAt
      dsimp only
      omega
    unfold blotted
    rw [if_pos publish]
    dsimp only
    split
    · rw [ofList_set _ (Nat.succ_ne_zero _).symm, ofList_set _ behind.symm]
      rfl
    · rfl

theorem blotted_rest {buf : List UInt8} (publish : typeBits (ofList buf 0) = msgPublish) {j : Nat}
    (behind : j ≠ 0) (other : 0 < qosBits (ofList buf 0) →
      j ≠ idAt (ofList buf) ∧ j ≠ idAt (ofList buf) + 1) :
    ofList (blotted buf) j = ofList buf j := by
  unfold blotted
  rw [if_pos publish]
  dsimp only
  split
  · rename_i id
    rw [ofList_set _ (other id).2, ofList_set _ (other id).1, ofList_set _ behind]
  · exact ofList_set _ behind

theorem idAt_congr {m m' : Mem} (same : ∀ j, 0 < j → j < idAt m → m j = m' j) :
    idAt m = idAt m' ∧
      mqttPacketDecodeBuf (shift m 1) = mqttPacketDecodeBuf (shift m' 1) := by
  have far : idAt m = 1 + (mqttPacketDecodeBuf (shift m 1)).1 + 2 +
      readInt (shift m (1 + (mqttPacketDecodeBuf (shift m 1)).1)) := rfl
  have decoded : mqttPacketDecodeBuf (shift m 1) = mqttPacketDecodeBuf (shift m' 1) :=
    decodeBuf_agree (fun i inside => same (1 + i) (by omega) (by omega))
  have topic : readInt (shift m (1 + (mqttPacketDecodeBuf (shift m 1)).1)) =
      readInt (shift m' (1 + (mqttPacketDecodeBuf (shift m 1)).1)) := by
    simp only [readInt, shift_apply]
    rw [same _ (by omega) (by omega), same (1 + (mqttPacketDecodeBuf (shift m 1)).1 + 1) (by omega)
      (by omega)]
  refine ⟨?_, decoded⟩
  rw [far, topic, decoded]
  rfl

/-- Two PUBLISHes in memory that differ in the flags and the id alone. -/
structure Twins (m m' : Mem) : Prop where
  publish : typeBits (m 0) = msgPublish ∧ typeBits (m' 0) = msgPublish
  qos : qosBits (m' 0) = qosBits (m 0)
  rest : ∀ j, 0 < j → (0 < qosBits (m 0) → j ≠ idAt m ∧ j ≠ idAt m + 1) → m' j = m j

theorem Twins.place {m m' : Mem} (twins : Twins m m') :
    idAt m = idAt m' ∧ mqttPacketDecodeBuf (shift m 1) = mqttPacketDecodeBuf (shift m' 1) :=
  idAt_congr (fun j behind before => (twins.rest j behind (fun _ => by omega)).symm)

theorem Alike.twins {buf buf' : List UInt8} (alike : Alike buf buf')
    (publish : typeBits (ofList buf 0) = msgPublish) : Twins (ofList buf) (ofList buf') := by
  have head : ofList (blotted buf) 0 = header msgPublish 0 (qosBits (ofList buf 0)) 0 :=
    blotted_head publish
  have publish' : typeBits (ofList buf' 0) = msgPublish := by
    by_contra other
    have clear : blotted buf' = buf' := if_neg other
    rw [Alike, clear] at alike
    rw [alike] at head
    rw [head] at other
    exact other (typeBits_header _ _ _ _)
  have qos : qosBits (ofList buf' 0) = qosBits (ofList buf 0) := by
    have head' := blotted_head publish'
    rw [← show blotted buf = blotted buf' from alike, head] at head'
    have bits := congrArg qosBits head'
    rw [qosBits_header, qosBits_header] at bits
    unfold qosBits at bits ⊢
    omega
  have before : ∀ {l : List UInt8}, typeBits (ofList l 0) = msgPublish →
      idAt (ofList l) = idAt (ofList (blotted l)) := by
    intro l publish
    exact (idAt_congr (m := ofList l) (fun j behind before =>
      (blotted_rest publish (by omega) (fun _ => by omega)).symm)).1
  have place : idAt (ofList buf') = idAt (ofList buf) := by
    rw [before publish', before publish, show blotted buf = blotted buf' from alike]
  refine ⟨⟨publish, publish'⟩, qos, fun j behind other => ?_⟩
  rw [← blotted_rest publish (by omega) other, ← blotted_rest publish' (by omega)
    (by rw [qos, place]; exact other), show blotted buf = blotted buf' from alike]

theorem Alike.other {buf buf' : List UInt8} (alike : Alike buf buf')
    (other : typeBits (ofList buf 0) ≠ msgPublish) : buf' = buf := by
  by_cases publish' : typeBits (ofList buf' 0) = msgPublish
  · exact absurd (Alike.twins (show Alike buf' buf from alike.symm) publish').publish.2 other
  · have clear : blotted buf = buf := if_neg other
    have clear' : blotted buf' = buf' := if_neg publish'
    rw [← clear, ← clear', ← show blotted buf = blotted buf' from alike]

theorem Twins.refl {m : Mem} (publish : typeBits (m 0) = msgPublish) : Twins m m :=
  ⟨⟨publish, publish⟩, rfl, fun _ _ _ => rfl⟩

theorem ofList_left {l : List UInt8} {j : Nat} (inside : j < l.length) (tail : List UInt8) :
    ofList (l ++ tail) j = ofList l j := by
  simp only [ofList, List.getD_eq_getElem?_getD, List.getElem?_append_left inside]

theorem ofList_right {l : List UInt8} {j : Nat} (behind : l.length ≤ j) (tail : List UInt8) :
    ofList (l ++ tail) j = ofList tail (j - l.length) := by
  simp only [ofList, List.getD_eq_getElem?_getD, List.getElem?_append_right behind]

/-- The length fields lie in the first eight bytes. -/
theorem idAt_near {m m' : Mem} (same : ∀ j < 8, m j = m' j) : idAt m = idAt m' := by
  obtain ⟨decoded, bound⟩ := decodeBuf_congr (p := shift m 1) (q := shift m' 1)
    (fun i inside => same (1 + i) (by omega))
  unfold idAt readInt
  dsimp only [shift_apply]
  rw [← decoded, same _ (by omega), same (1 + (mqttPacketDecodeBuf (shift m 1)).1 + 1) (by omega)]

theorem Twins.append {buf buf' : List UInt8} (twins : Twins (ofList buf) (ofList buf'))
    (size : buf.length = buf'.length) (long : 8 ≤ buf.length) (tail : List UInt8) :
    Twins (ofList (buf ++ tail)) (ofList (buf' ++ tail)) := by
  have place : idAt (ofList (buf ++ tail)) = idAt (ofList buf) :=
    idAt_near (fun j near => ofList_left (by omega) tail)
  have head : ofList (buf ++ tail) 0 = ofList buf 0 := ofList_left (by omega) tail
  have head' : ofList (buf' ++ tail) 0 = ofList buf' 0 := ofList_left (by omega) tail
  refine ⟨?_, ?_, fun j behind other => ?_⟩
  · rw [head, head']
    exact twins.publish
  · rw [head, head']
    exact twins.qos
  · rw [head, place] at other
    by_cases inside : j < buf.length
    · rw [ofList_left inside, ofList_left (by omega)]
      exact twins.rest j behind other
    · rw [ofList_right (by omega), ofList_right (by omega), size]

theorem Twins.deserialize {m m' : Mem} (twins : Twins m m') (vars vars' : PublishVars)
    (unset : vars.payload = none) (unset' : vars'.payload = none) :
    (mqttDeserializePublish vars' m').2.qos = (mqttDeserializePublish vars m).2.qos ∧
      (mqttDeserializePublish vars' m').2.payload = (mqttDeserializePublish vars m).2.payload ∧
      ∀ offset, (mqttDeserializePublish vars m).2.payload = some offset →
        ∀ j, offset ≤ j → m' j = m j := by
  obtain ⟨qos, payload⟩ := deserializePublish_view vars twins.publish.1
  obtain ⟨qos', payload'⟩ := deserializePublish_view vars' twins.publish.2
  obtain ⟨place, decoded⟩ := twins.place
  refine ⟨?_, ?_, fun offset found j behind => ?_⟩
  · rw [qos, qos', twins.qos]
  · rw [payload, payload', ← decoded, ← place, twins.qos, unset, unset']
  · rw [payload, unset] at found
    split at found
    · cases found
    · have far : 0 < idAt m := by
        unfold idAt
        dsimp only
        omega
      obtain rfl := Option.some.inj found
      split at behind
      · exact twins.rest j (by omega) (fun _ => by omega)
      · rename_i none
        exact twins.rest j (by omega) (fun id => absurd id none)

/-- The buffers of two runs: equal, or as long as `buf` and alike. -/
def Matching (buf buf' : List UInt8) : Prop := buf = buf' ∨ buf.length = buflen ∧ Alike buf buf'

theorem Matching.cases {buf buf' : List UInt8} (matching : Matching buf buf') (tail : List UInt8) :
    buf' = buf ∧ typeBits (ofList (buf ++ tail) 0) ≠ msgPublish ∨
      buf.length = buf'.length ∧ Twins (ofList (buf ++ tail)) (ofList (buf' ++ tail)) := by
  rcases matching with rfl | ⟨size, alike⟩
  · by_cases publish : typeBits (ofList (buf ++ tail) 0) = msgPublish
    · exact .inr ⟨rfl, Twins.refl publish⟩
    · exact .inl ⟨rfl, publish⟩
  · have head : ofList (buf ++ tail) 0 = ofList buf 0 := ofList_left (by rw [size]; decide) tail
    rw [head]
    by_cases publish : typeBits (ofList buf 0) = msgPublish
    · exact .inr ⟨alike.length, (alike.twins publish).append alike.length (by rw [size]; decide) tail⟩
    · exact .inl ⟨alike.other publish, publish⟩

theorem drop_of_ofList {xs ys : List UInt8} {k : Nat} (size : xs.length = ys.length)
    (same : ∀ j, k ≤ j → ofList xs j = ofList ys j) : xs.drop k = ys.drop k := by
  refine List.ext_getElem (by rw [List.length_drop, List.length_drop, size]) (fun i here there => ?_)
  have entry := same (k + i) (Nat.le_add_right k i)
  rw [List.length_drop] at here there
  simpa [ofList, List.getD_eq_getElem?_getD, List.getElem?_eq_getElem (show k + i < xs.length by omega),
    List.getElem?_eq_getElem (show k + i < ys.length by omega)] using entry

end Packets

section Reports

variable (b : Board) (env : Env) {st st' : St}

def blind (st : St) : St :=
  { st with dup := 0, retained := 0, msgid := 0, inbox := [], buf := [], log := [] }

def basis (st : St) : St := { st with dup := 0, inbox := [], buf := [] }

theorem blind_of_basis (same : basis st = basis st') : blind st = blind st' :=
  (congrArg blind same :)

theorem eq_of_blind (same : blind st = blind st') : st' = { st with
    dup := st'.dup, retained := st'.retained, msgid := st'.msgid, inbox := st'.inbox
    buf := st'.buf, log := st'.log } := by
  cases st
  cases st'
  simp only [blind, St.mk.injEq] at same ⊢
  simp [same]

theorem sendPublish_basis (site : Site) (payload : List UInt8) (same : basis st = basis st') :
    basis (sendPublish env site payload st) = basis (sendPublish env site payload st') := by
  have view : ∀ st, basis (sendPublish env site payload st) = (basis st).emit
      [publishEvent (basis st).mysock (basis st).msgid (basis st).retained (env.writeRc site)
        payload] := by
    intro st
    have log := sendPublish_log env site payload st
    exact (congrArg (fun log => { basis st with log := log }) log :)
  rw [view, view, same]

theorem eventReport_basis (site : Site) (message : String) (same : basis st = basis st') :
    basis (eventReport b env site message st) = basis (eventReport b env site message st') := by
  have heap : st.heap = st'.heap := (congrArg St.heap same :)
  have block : (mallocSramin b 256 st).1 = (mallocSramin b 256 st').1 := by
    simp only [mallocSramin, heap]
  have taken : basis (mallocSramin b 256 st).2 = basis (mallocSramin b 256 st').2 :=
    (congrArg (fun st => (mallocSramin b 256 st).2) same :)
  have sent := sendPublish_basis env site
    (if (mallocSramin b 256 st).1 = 0 then b.nullText else eventText b message) taken
  rw [eventReport, eventReport, ← block]
  generalize (mallocSramin b 256 st).1 = ptr at sent ⊢
  exact (congrArg (fun st => { freeSramin b ptr st with buf := [] }) sent :)

theorem doorReport_basis (same : basis st = basis st') :
    basis (doorReport b env st) = basis (doorReport b env st') := by
  have flag : st.doorFlag = st'.doorFlag := (congrArg St.doorFlag same :)
  have report := eventReport_basis b env .door "open the door" same
  rw [doorReport, doorReport, flag]
  split
  · exact congrArg (fun st => { st with doorFlag := false }) report
  · exact same

theorem fanReport_basis (same : basis st = basis st') :
    basis (fanReport b env st) = basis (fanReport b env st') := by
  have flag : st.fanWarn = st'.fanWarn := (congrArg St.fanWarn same :)
  have report := eventReport_basis b env .fan "fan is not work" same
  rw [fanReport, fanReport, flag]
  split
  · exact congrArg (fun st => { st with fanWarn := false }) report
  · exact same

theorem record_basis (site : Site) (n : Nat) (same : basis st = basis st') :
    basis (freeSramin b (mallocSramin b 1024 st).1 (sendPublish env site
        (recordText b env site (mallocSramin b 1024 st).1 n) (mallocSramin b 1024 st).2)) =
      basis (freeSramin b (mallocSramin b 1024 st').1 (sendPublish env site
        (recordText b env site (mallocSramin b 1024 st').1 n) (mallocSramin b 1024 st').2)) := by
  have heap : st.heap = st'.heap := (congrArg St.heap same :)
  have block : (mallocSramin b 1024 st).1 = (mallocSramin b 1024 st').1 := by
    simp only [mallocSramin, heap]
  have taken : basis (mallocSramin b 1024 st).2 = basis (mallocSramin b 1024 st').2 :=
    (congrArg (fun st => (mallocSramin b 1024 st).2) same :)
  have sent := sendPublish_basis env site
    (recordText b env site (mallocSramin b 1024 st).1 n) taken
  rw [← block]
  generalize (mallocSramin b 1024 st).1 = ptr at sent ⊢
  exact (congrArg (freeSramin b ptr) sent :)

theorem initReport_basis (same : basis st = basis st') :
    basis (initReport b env st) = basis (initReport b env st') := by
  have flag : st.ti = st'.ti := (congrArg St.ti same :)
  have report := record_basis b env .init 1024 same
  rw [initReport, initReport, flag]
  split
  · exact congrArg (fun st => { st with ti := false }) report
  · exact same

theorem mailReport_basis (same : basis st = basis st') :
    basis (mailReport b env st) = basis (mailReport b env st') := by
  unfold mailReport
  split
  · exact same
  · exact congrArg (freeSramin b b.payloadOutAddr) (sendPublish_basis env .mail _ same)

theorem timedReports_basis (same : basis st = basis st') :
    basis (timedReports b env st) = basis (timedReports b env st') := by
  have flag : st.connectFlag = st'.connectFlag := (congrArg St.connectFlag same :)
  have tick : st.sendtick = st'.sendtick := (congrArg St.sendtick same :)
  rw [timedReports, timedReports, flag, tick]
  split
  · exact mailReport_basis b env (initReport_basis b env (fanReport_basis b env
      (doorReport_basis b env (congrArg (fun st =>
        { st.emit [.uart (ascii "displaynew\r\n")] with sendtick := env.sendSet }) same))))
  · exact same

theorem wake_blind (same : blind st = blind st') : blind (wake env st) = blind (wake env st') := by
  rw [eq_of_blind same]
  unfold wake pingTimer
  split <;> rfl

theorem wake_basis (same : blind st = blind st') (retained : st.retained = st'.retained)
    (msgid : st.msgid = st'.msgid) : basis (wake env st) = basis (wake env st') := by
  rw [eq_of_blind same, ← retained, ← msgid]
  unfold wake pingTimer
  split <;> rfl

theorem beforeSwitch_blind (same : blind st = blind st')
    (agree : 0 < reportCount env st → st.retained = st'.retained ∧ st.msgid = st'.msgid) :
    blind (beforeSwitch b env st) = blind (beforeSwitch b env st') ∧
      (beforeSwitch b env st).log = (beforeSwitch b env st').log := by
  by_cases idle : reportCount env st = 0
  · have idle' : reportCount env st' = 0 := by
      rw [eq_of_blind same]
      exact idle
    have flag : st.connectFlag = st'.connectFlag := (congrArg St.connectFlag same :)
    have tick : st.sendtick = st'.sendtick := (congrArg St.sendtick same :)
    have woken := wake_blind env same
    have log : (wake env st).log = [] := (wake_flags env st).2.2.2.2.2.2
    have log' : (wake env st').log = [] := (wake_flags env st').2.2.2.2.2.2
    rw [beforeSwitch_quiet b env st idle, beforeSwitch_quiet b env st' idle', ← flag, ← tick]
    split
    · refine ⟨congrArg (fun st => { st with sendtick := env.sendSet }) woken, ?_⟩
      simp only [St.emit, log, log']
    · exact ⟨woken, log.trans log'.symm⟩
  · obtain ⟨retained, msgid⟩ := agree (Nat.pos_of_ne_zero idle)
    have woken : basis (wake env st) = basis (wake env st') := wake_basis env same retained msgid
    have reported := timedReports_basis b env woken
    exact ⟨blind_of_basis reported, (congrArg St.log reported :)⟩

def mailLength (payloadOut : List UInt8) : Nat :=
  (publishPacket 0 publishReqQos 0 0 devicePublish (cstr payloadOut)).length

theorem publishPacket_length (retained packetid : Nat) (payload : List UInt8) :
    (publishPacket 0 publishReqQos retained packetid devicePublish payload).length =
      (publishPacket 0 publishReqQos 0 0 devicePublish payload).length := by
  simp only [publishPacket, List.length_append, List.length_cons, List.length_nil]
  congr 1

def Ready (type : Nat) (buf buf' : List UInt8) : Prop :=
  Matching buf buf' ∨
    type ≠ msgPublish ∧ packetType buf = msgPublish ∧ packetType buf' = msgPublish

theorem mailReport_ready {type : Nat} {payloadOut : List UInt8} (mail : env.mail = some payloadOut)
    (retained : st.retained = st'.retained) (msgid : st.msgid = st'.msgid)
    (matching : Matching st.buf st'.buf) (behind : type = msgPublish →
      st.buf.drop (mailLength payloadOut) = st'.buf.drop (mailLength payloadOut)) :
    Ready type (mailReport b env st).buf (mailReport b env st').buf := by
  rw [mailReport_packet b env st mail, mailReport_packet b env st' mail, mqttSerializePublish,
    mqttSerializePublish, serialized_snd, serialized_snd, ← retained, ← msgid, publishPacket_length]
  split
  · exact .inl matching
  · by_cases publish : type = msgPublish
    · exact .inl (.inl (congrArg (_ ++ ·) (behind publish)))
    · exact .inr ⟨publish, packetType_header _ _ _ _ _, packetType_header _ _ _ _ _⟩

theorem beforeSwitch_ready (same : blind st = blind st') (matching : Matching st.buf st'.buf)
    (agree : 0 < reportCount env st → st.retained = st'.retained ∧ st.msgid = st'.msgid)
    (behind : ∀ payloadOut ∈ env.mail, reportCount env st = 1 → switchOn env st = msgPublish →
      st.buf.drop (mailLength payloadOut) = st'.buf.drop (mailLength payloadOut)) :
    Ready (switchOn env st) (beforeSwitch b env st).buf (beforeSwitch b env st').buf := by
  by_cases idle : reportCount env st = 0
  · have idle' : reportCount env st' = 0 := by
      rw [eq_of_blind same]
      exact idle
    rw [(beforeSwitch_idle b env st idle).1, (beforeSwitch_idle b env st' idle').1]
    exact .inl matching
  · obtain ⟨retained, msgid⟩ := agree (Nat.pos_of_ne_zero idle)
    have due : st.connectFlag ∧ env.sendNow - st.sendtick ≥ 10 * 200 := by
      by_contra early
      exact idle (if_neg early)
    have due' : st'.connectFlag ∧ env.sendNow - st'.sendtick ≥ 10 * 200 := by
      rw [eq_of_blind same]
      exact due
    have flags : blanks env st' = blanks env st := by
      rw [eq_of_blind same]
      rfl
    have between : Matching (blockReports b env st).buf (blockReports b env st').buf := by
      rw [blockReports_buf, blockReports_buf, flags]
      split
      · exact .inl rfl
      · exact matching
    rw [beforeSwitch_due b due, beforeSwitch_due b due']
    cases mail : env.mail with
    | none =>
      simp only [mailReport, mail]
      exact .inl between
    | some payloadOut =>
      have core := blockReports_core b env st
      have core' := blockReports_core b env st'
      refine mailReport_ready b env mail ?_ ?_ between (fun publish => ?_)
      · exact (congrArg Core.retained core).trans
          (retained.trans (congrArg Core.retained core').symm)
      · exact (congrArg Core.msgid core).trans (msgid.trans (congrArg Core.msgid core').symm)
      · rw [blockReports_buf, blockReports_buf, flags]
        cases blank : blanks env st with
        | true => rfl
        | false =>
          have only : reportCount env st = 1 := by
            rw [reportCount_blanks due blank, mail]
            rfl
          exact behind payloadOut mail only publish

end Reports

section Switch

variable (b : Board) (env : Env) {st st' : St}

def isReport : Event → Bool
  | .sent _ packet _ _ => packetType packet = msgPublish || packetType packet = msgSubscribe
  | _ => false

def reports (r : Round) : List Event := r.events.filter isReport

theorem connack_ready (ready : Ready msgConnack st.buf st'.buf) :
    mqttDeserializeConnack (bufMem env st) = mqttDeserializeConnack (bufMem env st') := by
  have other : ∀ {m : Mem}, typeBits (m 0) = msgPublish → mqttDeserializeConnack m = (0, none) := by
    intro m publish
    exact if_pos (by rw [publish]; decide)
  rcases ready with matching | ⟨-, publish, publish'⟩
  · rcases matching.cases env.stackTail with ⟨equal, -⟩ | ⟨-, twins⟩
    · rw [bufMem, bufMem, equal]
    · rw [bufMem, bufMem, other twins.publish.1, other twins.publish.2]
  · have head : ∀ {l : List UInt8}, packetType l = msgPublish →
        typeBits (ofList (l ++ env.stackTail) 0) = msgPublish := by
      intro l type
      cases l with
      | nil => cases type
      | cons head rest => exact type
    rw [bufMem, bufMem, other (head publish), other (head publish')]

theorem publish_matching (same : blind st = blind st') (matching : Matching st.buf st'.buf) :
    (deserializePublish env st).qos = (deserializePublish env st').qos ∧
      publishText b env st = publishText b env st' ∧ payloadIn b env st = payloadIn b env st' := by
  have heap : st.heap = st'.heap := (congrArg St.heap same :)
  have qos : st.qos = st'.qos := (congrArg St.qos same :)
  have block : payloadBlock b st = payloadBlock b st' := by
    simp only [payloadBlock, mallocSramin, heap]
  rcases matching.cases env.stackTail with ⟨equal, other⟩ | ⟨size, twins⟩
  · have unread : deserializePublish env st = ⟨st.dup, st.qos, st.retained, st.msgid, none, 0⟩ :=
      congrArg Prod.snd (deserializePublish_other _ other)
    have unread' : deserializePublish env st' =
        ⟨st'.dup, st'.qos, st'.retained, st'.msgid, none, 0⟩ :=
      congrArg Prod.snd (deserializePublish_other _ (by rw [bufMem, equal]; exact other))
    simp only [publishText, payloadIn, unread, unread', payloadText, block, qos, and_self]
  · obtain ⟨qos, payload, text⟩ := twins.deserialize
      ⟨st.dup, st.qos, st.retained, st.msgid, none, 0⟩
      ⟨st'.dup, st'.qos, st'.retained, st'.msgid, none, 0⟩ rfl rfl
    have payload : (deserializePublish env st').payload = (deserializePublish env st).payload :=
      payload
    have text : ∀ offset, (deserializePublish env st).payload = some offset →
        ∀ j, offset ≤ j → ofList (st'.buf ++ env.stackTail) j = ofList (st.buf ++ env.stackTail) j :=
      text
    refine ⟨qos.symm, ?_, ?_⟩
    · rw [publishText, publishText, payload, ← block]
      cases found : (deserializePublish env st).payload with
      | none => rfl
      | some offset =>
        have behind := drop_of_ofList (by simp only [List.length_append, size])
          (fun j far => (text offset found j far).symm)
        exact congrArg cstr behind
    · rw [payloadIn, payloadIn, payload, ← block]

theorem isReport_sent {sock len rc : Int} {packet : List UInt8}
    (other : packetType packet ∉ [msgPublish, msgSubscribe]) :
    isReport (.sent sock packet len rc) = false := by
  simpa [isReport] using other

theorem isReport_command {e : Event} (command : CommandEvent e) : isReport e = false := by
  cases e <;> first | rfl | cases command

theorem dispatch_other {st : St} (empty : st.log = [])
    (running : st.halted = false) (subscribe : st.msgtypes ≠ msgSubscribe)
    (info : st.msgtypes ≠ 15) : ∀ e ∈ (dispatch b env st).log, isReport e = false := by
  have answers := @dispatch_answers b env st empty running
  generalize (dispatch b env st).log = es at answers ⊢
  cases answers with
  | connect type =>
    rw [List.forall_mem_singleton]
    exact isReport_sent (by rw [sentBytes_connect _ _ (connect_fits b)]; decide)
  | publish type =>
    intro e member
    rcases publishEvents_cases member with rfl | command | rfl | puback
    · rfl
    · exact isReport_command command
    · rfl
    · obtain ⟨packet, len, rc, rfl, ack⟩ := pubackEvents_kind puback
      exact isReport_sent (by rw [ack]; decide)
  | pubrel type =>
    rw [List.forall_mem_singleton, sentBytes_ack _ _ _ _ (by decide)]
    exact isReport_sent (by rw [packetType_header]; decide)
  | subscribe type => exact absurd type subscribe
  | pingreq type =>
    have ping : ∀ sock len rc, isReport (.sent sock [header msgPingreq 0 0 0, 0] len rc) = false :=
      fun _ _ _ => isReport_sent (by rw [packetType_header]; decide)
    rw [sentBytes_pingreq _ (by decide)]
    intro e member
    rcases List.mem_cons.mp member with rfl | closed
    · exact ping _ _ _
    · split at closed
      · cases closed
      · simp only [List.mem_cons, List.not_mem_nil, or_false] at closed
        rcases closed with rfl | rfl <;> rfl
  | info type => exact absurd type info
  | quiet other => simp

theorem subscribe_same (msgid : st.msgid = st'.msgid) :
    (mqttSerializeSubscribe st.buf buflen 0 st.msgid b.deviceSubscribe 1).1 =
        (mqttSerializeSubscribe st'.buf buflen 0 st'.msgid b.deviceSubscribe 1).1 ∧
      sentBytes (mqttSerializeSubscribe st.buf buflen 0 st.msgid b.deviceSubscribe 1) =
        sentBytes (mqttSerializeSubscribe st'.buf buflen 0 st'.msgid b.deviceSubscribe 1) := by
  simp only [mqttSerializeSubscribe, sentBytes_serialized, msgid, and_true]
  rw [serialized_fst st.buf, serialized_fst st'.buf]

theorem connackCase_blind (same : blind st = blind st') (ready : Ready msgConnack st.buf st'.buf) :
    blind (connackCase env st) = blind (connackCase env st') := by
  have rc : st.connackRc = st'.connackRc := (congrArg St.connackRc same :)
  unfold connackCase
  dsimp only
  rw [← connack_ready env ready, ← rc]
  generalize (mqttDeserializeConnack (bufMem env st)).2.getD st.connackRc = connackRc
  split
  · exact (congrArg (fun st => { st with connackRc := connackRc, msgtypes := msgConnect }) same :)
  · exact (congrArg (fun st => { st with
      connackRc := connackRc, connectFlag := true, msgtypes := msgSubscribe }) same :)

theorem publishCase_blind (same : blind st = blind st') (running : st.halted = false)
    (matching : Matching st.buf st'.buf) :
    blind (publishCase b env st) = blind (publishCase b env st') := by
  obtain ⟨qos, text, pointer⟩ := publish_matching b env same matching
  have running' : st'.halted = false := (congrArg St.halted same :).symm.trans running
  cases resets : has (publishText b env st) "reset" with
  | false =>
    rw [publishCase_eq b env st running resets,
      publishCase_eq b env st' running' (text ▸ resets), ← text, ← pointer]
    generalize publishText b env st = words
    generalize payloadIn b env st = ptr
    exact (congrArg₂ (fun qos st => { st with
      qos := qos
      usartsendbuf := if has words "switch" then [] else st.usartsendbuf
      msgtypes := commandNext words st.msgtypes
      heap := myfree b.layout .sramin (mymalloc b.layout .sramin st.heap 125).2 ptr }) qos same :)
  | true =>
    rw [publishCase_reset b env st resets, publishCase_reset b env st' (text ▸ resets), ← text]
    generalize publishText b env st = words
    exact (congrArg₂ (fun qos st => { st with
      qos := qos
      usartsendbuf := if has words "switch" then [] else st.usartsendbuf
      msgtypes := commandNext words st.msgtypes
      heap := (mymalloc b.layout .sramin st.heap 125).2
      halted := true }) qos same :)

theorem subscribeCase_view (st : St) : blind (subscribeCase b env st) =
    if env.writeRc .answer =
        (mqttSerializeSubscribe st.buf buflen 0 st.msgid b.deviceSubscribe 1).1 then
      { blind st with msgtypes := 0 }
    else if (st.t + 1) % 256 ≥ 10 then { blind st with t := 0, msgtypes := msgConnect }
    else { blind st with t := (st.t + 1) % 256, msgtypes := msgSubscribe } := by
  have t : ∀ r, (sendPacket env .answer r st).t = st.t := fun _ => rfl
  unfold subscribeCase
  dsimp only
  rw [t]
  generalize mqttSerializeSubscribe st.buf buflen 0 st.msgid b.deviceSubscribe 1 = r
  split_ifs <;> rfl

theorem subscribeCase_blind (same : blind st = blind st') (msgid : st.msgid = st'.msgid) :
    blind (subscribeCase b env st) = blind (subscribeCase b env st') := by
  have t : st.t = st'.t := (congrArg St.t same :)
  rw [subscribeCase_view, subscribeCase_view, ← (subscribe_same b msgid).1, ← t, same]

theorem pingreqCase_blind (same : blind st = blind st') :
    blind (pingreqCase env st) = blind (pingreqCase env st') := by
  rw [pingreqCase_eq, pingreqCase_eq]
  split
  · exact (congrArg (fun st => { st with msgtypes := 0 }) same :)
  · exact (congrArg (fun st => { st with
      connectFlag := false, mysock := env.sock, msgtypes := msgConnect }) same :)

theorem infoCase_blind (same : blind st = blind st') :
    blind (infoCase b env st) = blind (infoCase b env st') := by
  have heap : st.heap = st'.heap := (congrArg St.heap same :)
  have view : ∀ st, blind (infoCase b env st) = { blind st with
      ti := false
      msgtypes := 0
      heap := myfree b.layout .sramin (mymalloc b.layout .sramin st.heap 1024).2
        (mymalloc b.layout .sramin st.heap 1024).1 } := by
    intro st
    simp only [infoCase, blind, freeSramin, sendPublish, sendPacket, mallocSramin, St.emit]
  rw [view, view, heap, same]

theorem sendPacket_blind (r : Int × List UInt8) (n : Nat) (st : St) :
    blind { sendPacket env .answer r st with msgtypes := n } = blind { st with msgtypes := n } := rfl

theorem dispatch_blind (same : blind st = blind st') (running : st.halted = false)
    (ready : Ready st.msgtypes st.buf st'.buf)
    (msgid : st.msgtypes = msgSubscribe → st.msgid = st'.msgid) :
    blind (dispatch b env st) = blind (dispatch b env st') := by
  have types : st.msgtypes = st'.msgtypes := (congrArg St.msgtypes same :)
  have clear : blind { st with msgtypes := 0 } = blind { st' with msgtypes := 0 } :=
    (congrArg (fun st => { st with msgtypes := 0 }) same :)
  unfold dispatch
  rw [← types]
  split
  case h_1 =>
    rw [connectCase, connectCase, sendPacket_blind, sendPacket_blind]
    exact clear
  case h_2 type => exact connackCase_blind env same (by rwa [type] at ready)
  case h_3 type =>
    exact publishCase_blind b env same running (ready.resolve_right (fun other => other.1 type))
  case h_5 => exact (congrArg (fun st => { st with msgtypes := msgPubrel }) same :)
  case h_6 =>
    rw [pubrelCase, pubrelCase, sendPacket_blind, sendPacket_blind]
    exact clear
  case h_8 type => exact subscribeCase_blind b env same (msgid type)
  case h_10 => exact pingreqCase_blind env same
  case h_12 => exact infoCase_blind b env same
  case h_13 => exact same
  all_goals exact clear

theorem dispatch_reports (same : blind st = blind st') (running : st.halted = false)
    (empty : st.log = []) (empty' : st'.log = [])
    (retained : st.msgtypes = 15 → st.retained = st'.retained)
    (msgid : st.msgtypes = 15 ∨ st.msgtypes = msgSubscribe → st.msgid = st'.msgid) :
    (dispatch b env st).log.filter isReport = (dispatch b env st').log.filter isReport := by
  have types : st.msgtypes = st'.msgtypes := (congrArg St.msgtypes same :)
  have sock : st.mysock = st'.mysock := (congrArg St.mysock same :)
  have heap : st.heap = st'.heap := (congrArg St.heap same :)
  have running' : st'.halted = false := (congrArg St.halted same :).symm.trans running
  by_cases subscribe : st.msgtypes = msgSubscribe
  · obtain ⟨code, bytes⟩ := subscribe_same b (msgid (.inr subscribe))
    rw [dispatch_subscribe subscribe, dispatch_subscribe (types ▸ subscribe), subscribeCase_log,
      subscribeCase_log, empty, empty', code, bytes, sock]
  · by_cases info : st.msgtypes = 15
    · rw [dispatch_info info, dispatch_info (types ▸ info), infoCase_log, infoCase_log, empty, empty',
        sock, msgid (.inl info), retained info]
      simp only [mallocSramin, heap]
    · have none := dispatch_other b env empty running subscribe info
      have none' := dispatch_other b env empty' running' (types ▸ subscribe) (types ▸ info)
      rw [List.filter_eq_nil_iff.mpr (fun e member => by simp [none e member]),
        List.filter_eq_nil_iff.mpr (fun e member => by simp [none' e member])]

/-- The bytes of a new connection are no part of what the switch reports. -/
theorem dispatch_stream (st : St) (stream : List UInt8) :
    blind (dispatch b { env with stream := stream } st) = blind (dispatch b env st) ∧
      (dispatch b { env with stream := stream } st).log.filter isReport =
        (dispatch b env st).log.filter isReport := by
  unfold dispatch
  split
  case h_10 =>
    refine ⟨?_, ?_⟩
    · rw [pingreqCase_eq, pingreqCase_eq]
      split <;> rfl
    · rw [pingreqCase_log, pingreqCase_log]
      dsimp only
      split <;> simp [List.filter_cons, isReport]
  all_goals exact ⟨rfl, rfl⟩

end Switch

section Runs

def ReceivesAlike (b : Board) (turn : Env × Env) (pair : St × St) : Prop :=
  (afterSwitch b turn.1 pair.1).halted = false →
    (turnRead turn.1 pair.1).1 = (turnRead turn.2 pair.2).1 ∧
    Alike (turnRead turn.1 pair.1).2.1 (turnRead turn.2 pair.2).2.1

/-- In a turn that makes a PUBLISH both runs hold the same flag and the same id, in one that makes
a SUBSCRIBE the same id; and a mail report that takes the place of a PUBLISH to be handled has the
same bytes behind it. -/
def Equipped (turn : Env × Env) (pair : St × St) : Prop :=
  pair.1.halted = false →
    (0 < reportCount turn.1 pair.1 ∨ switchOn turn.1 pair.1 = 15 →
      pair.1.retained = pair.2.retained) ∧
    (0 < reportCount turn.1 pair.1 ∨ switchOn turn.1 pair.1 = 15 ∨
      switchOn turn.1 pair.1 = msgSubscribe → pair.1.msgid = pair.2.msgid) ∧
    ∀ payloadOut ∈ turn.1.mail, reportCount turn.1 pair.1 = 1 →
      switchOn turn.1 pair.1 = msgPublish →
      pair.1.buf.drop (mailLength payloadOut) = pair.2.buf.drop (mailLength payloadOut)

/-- The PUBLISHes handled so far: before a turn that makes a PUBLISH the last one has the same RETAIN
flag in both runs and the last one with an id the same id, before one that makes a SUBSCRIBE the
same id; and where a mail report is put over a PUBLISH, that has the same bytes behind it. -/
def Agrees (turn : Env × Env) (pair : (List (List UInt8) × St) × (List (List UInt8) × St)) : Prop :=
  pair.1.2.halted = false →
    (0 < reportCount turn.1 pair.1.2 ∨ switchOn turn.1 pair.1.2 = 15 →
      lastRetain pair.1.1 = lastRetain pair.2.1) ∧
    (0 < reportCount turn.1 pair.1.2 ∨ switchOn turn.1 pair.1.2 = 15 ∨
      switchOn turn.1 pair.1.2 = msgSubscribe → lastId pair.1.1 = lastId pair.2.1) ∧
    ∀ payloadOut ∈ turn.1.mail, reportCount turn.1 pair.1.2 = 1 →
      switchOn turn.1 pair.1.2 = msgPublish →
      pair.1.2.buf.drop (mailLength payloadOut) = pair.2.2.buf.drop (mailLength payloadOut)

instance (b : Board) (turn : Env × Env) (pair : St × St) : Decidable (ReceivesAlike b turn pair) :=
  inferInstanceAs (Decidable (_ → _))

instance (turn : Env × Env) (pair : (List (List UInt8) × St) × (List (List UInt8) × St)) :
    Decidable (Agrees turn pair) := inferInstanceAs (Decidable (_ → _))

/-- What the runs hold, they hold of the PUBLISHes that they have handled. -/
theorem Agrees.equipped {turn : Env × Env}
    {pair : (List (List UInt8) × St) × (List (List UInt8) × St)} (agrees : Agrees turn pair)
    (told : Told pair.1) (told' : Told pair.2) : Equipped turn (pair.1.2, pair.2.2) := by
  intro running
  obtain ⟨retain, id, behind⟩ := agrees running
  refine ⟨fun report => ?_, fun report => ?_, behind⟩
  · rw [told.retained, told'.retained, retain report]
  · rw [told.msgid, told'.msgid, id report]

theorem equipped_along {b : Board} {turns : List (Env × Env)}
    {pair : (List (List UInt8) × St) × (List (List UInt8) × St)}
    (agrees : Along (beside (listen b)) Agrees turns pair) (told : Told pair.1)
    (told' : Told pair.2) :
    Along (beside (iteration b)) Equipped turns (pair.1.2, pair.2.2) := by
  have both := along_invariant (I := fun pair => Told pair.1 ∧ Told pair.2)
    (fun turn pair _ told => ⟨told_listen b turn.1 told.1, told_listen b turn.2 told.2⟩) agrees
    ⟨told, told'⟩
  exact (@along_part _ _ (beside (iteration b)) _ (beside (listen b))
    (fun pair => (pair.1.2, pair.2.2)) (fun _ _ => rfl) Equipped turns pair).mp
    (along_mono (fun _ _ given => given.1.equipped given.2.1 given.2.2) both)

structure Related (pair : St × St) : Prop where
  same : blind pair.1 = blind pair.2
  matching : pair.1.halted = false → Matching pair.1.buf pair.2.buf

theorem related_start (s : Start) (stream : List UInt8) :
    Related (mqttThread s, mqttThread { s with stream := stream }) where
  same := rfl
  matching _ := .inl rfl

variable {b : Board} {env : Env} {stream : List UInt8} {st st' : St}

theorem afterSwitch_related (related : Related (st, st')) (running : st.halted = false)
    (equipped : Equipped (env, { env with stream := stream }) (st, st')) :
    (beforeSwitch b env st).log = (beforeSwitch b { env with stream := stream } st').log ∧
    blind (afterSwitch b env st) = blind (afterSwitch b { env with stream := stream } st') ∧
    (afterSwitch b env st).log.filter isReport =
      (afterSwitch b { env with stream := stream } st').log.filter isReport := by
  obtain ⟨retained, msgid, behind⟩ := equipped running
  dsimp only at retained msgid behind
  have both : 0 < reportCount env st → st.retained = st'.retained ∧ st.msgid = st'.msgid :=
    fun reported => ⟨retained (.inl reported), msgid (.inl reported)⟩
  obtain ⟨same, log⟩ := beforeSwitch_blind b env related.same both
  have ready := beforeSwitch_ready b env related.same (related.matching running) both behind
  have core := atSwitch_core b env st
  have core' := atSwitch_core b env st'
  have type : (atSwitch b env st).msgtypes = switchOn env st := atSwitch_msgtypes b env st
  have alive : (atSwitch b env st).halted = false := atSwitch_running b env running
  have flag : (atSwitch b env st).retained = st.retained := congrArg Core.retained core
  have flag' : (atSwitch b env st').retained = st'.retained := congrArg Core.retained core'
  have id : (atSwitch b env st).msgid = st.msgid := congrArg Core.msgid core
  have id' : (atSwitch b env st').msgid = st'.msgid := congrArg Core.msgid core'
  have seen : blind (atSwitch b env st) = blind (atSwitch b env st') := same
  have next := dispatch_blind b env seen alive (by rw [type]; exact ready)
    (by rw [type, id, id']; exact fun subscribe => msgid (.inr (.inr subscribe)))
  have made := dispatch_reports b env seen alive rfl rfl
    (by rw [type, flag, flag']; exact fun info => retained (.inr info))
    (by rw [type, id, id']; exact fun either => msgid (.inr either))
  obtain ⟨next', made'⟩ := dispatch_stream b env (atSwitch b env st') stream
  exact ⟨log, next.trans next'.symm, made.trans made'.symm⟩

theorem reports_eq (timed answer : List Event) (dispatched : Nat) (got : Option (List UInt8)) :
    reports ⟨timed, dispatched, answer, got⟩ =
      timed.filter isReport ++ answer.filter isReport := by
  unfold reports Round.events
  cases got <;> simp [isReport]

theorem receive_related {env' : Env}
    (same : blind (afterSwitch b env st) = blind (afterSwitch b env' st'))
    (code : arriving env st = arriving env' st')
    (alike : Alike (turnRead env st).2.1 (turnRead env' st').2.1) :
    Related ((receive env (afterSwitch b env st)).2, (receive env' (afterSwitch b env' st')).2) := by
  have size : (turnRead env st).2.1.length = buflen :=
    mqttPacketRead_length zeroBuf_length (by decide)
  by_cases packet : 0 < arriving env st
  · have packet' : 0 < arriving env' st' := code ▸ packet
    have type : packetType (turnRead env st).2.1 = packetType (turnRead env' st').2.1 := by
      have first := (arriving_type packet).1
      have second := (arriving_type packet').1
      rw [← code, first] at second
      exact Int.ofNat_inj.mp second
    rw [receive_packet packet, receive_packet packet', ← type]
    generalize packetType (turnRead env st).2.1 = arrived
    exact ⟨(congrArg (fun st => { st with msgtypes := arrived }) same :),
      fun _ => .inr ⟨size, alike⟩⟩
  · have quiet' : arriving env' st' ≤ 0 := code ▸ Int.not_lt.mp packet
    rw [receive_quiet (Int.not_lt.mp packet), receive_quiet quiet']
    exact ⟨same, fun _ => .inr ⟨size, alike⟩⟩

theorem related_turn {turn : Env × Env} {pair : St × St}
    (world : turn.2 = { turn.1 with stream := turn.2.stream })
    (alike : ReceivesAlike b turn pair) (equipped : Equipped turn pair) (related : Related pair) :
    Related (beside (iteration b) turn pair) ∧
      reports (iteration b turn.1 pair.1).1 = reports (iteration b turn.2 pair.2).1 := by
  obtain ⟨env, env'⟩ := turn
  obtain ⟨st, st'⟩ := pair
  have halted : st.halted = st'.halted := (congrArg St.halted related.same :)
  unfold beside
  dsimp only at world ⊢
  cases running : st.halted with
  | true =>
    rw [iteration_stopped b env running, iteration_stopped b env' (halted ▸ running)]
    exact ⟨related, rfl⟩
  | false =>
    obtain ⟨log, same, made⟩ : (beforeSwitch b env st).log = (beforeSwitch b env' st').log ∧
        blind (afterSwitch b env st) = blind (afterSwitch b env' st') ∧
        (afterSwitch b env st).log.filter isReport =
          (afterSwitch b env' st').log.filter isReport := by
      rw [world] at equipped ⊢
      exact afterSwitch_related related running equipped
    have stops : (afterSwitch b env st).halted = (afterSwitch b env' st').halted :=
      (congrArg St.halted same :)
    have running' : st'.halted = false := halted ▸ running
    cases goes : (afterSwitch b env st).halted with
    | true =>
      rw [iteration_halts running goes, iteration_halts running' (stops ▸ goes), reports_eq,
        reports_eq, log, made]
      exact ⟨⟨same, fun awake => by rw [goes] at awake; cases awake⟩, rfl⟩
    | false =>
      obtain ⟨code, packets⟩ := alike goes
      rw [iteration_reads running goes, iteration_reads running' (stops ▸ goes), reports_eq,
        reports_eq, log, made]
      exact ⟨receive_related same code packets, rfl⟩

end Runs

/-- Two runs that receive the same packets, but for the flags and the ids of the PUBLISHes, make
the same PUBLISHes and SUBSCRIBEs while those that they have handled last agree in flag and id. -/
theorem reports_same (b : Board) (s : Start) (stream : List UInt8) (turns : List (Env × Env))
    (world : ∀ turn ∈ turns, turn.2 = { turn.1 with stream := turn.2.stream })
    (alike : Along (beside (iteration b)) (ReceivesAlike b) turns
      (mqttThread s, mqttThread { s with stream := stream }))
    (agrees : Along (beside (listen b)) Agrees turns
      (([], mqttThread s), ([], mqttThread { s with stream := stream }))) :
    (rounds b s (turns.map Prod.fst)).map reports =
      (rounds b { s with stream := stream } (turns.map Prod.snd)).map reports := by
  have equipped := equipped_along agrees (told_start s) (told_start { s with stream := stream })
  have guarded := along_and (along_of_forall world _) (along_and alike equipped)
  exact outputs_alike
    (fun _ _ given related => (related_turn given.1 given.2.1 given.2.2 related).1)
    (fun _ _ given related => (related_turn given.1 given.2.1 given.2.2 related).2)
    guarded (related_start s stream)

def message (head id : UInt8) : List UInt8 := [head, 6, 0, 1, 97, 0, id, 120]

def inbound (messages : List UInt8) : List UInt8 := [0x20, 2, 0, 0] ++ messages

def alongside (envs : List Env) : List (Env × Env) := envs.map (fun env => (env, env))

theorem alongside_world (envs : List Env) :
    ∀ turn ∈ alongside envs, turn.2 = { turn.1 with stream := turn.2.stream } := by
  intro turn member
  obtain ⟨env, -, rfl⟩ := List.mem_map.mp member
  rfl

theorem reports_same_door :
    (rounds blankBoard (startOn (inbound (message 0x32 2 ++ message 0x32 9)))
        [calm, calm, calm, late, doorTurn]).map reports =
      (rounds blankBoard (startOn (inbound (message 0x3B 5 ++ message 0x32 9)))
        [calm, calm, calm, late, doorTurn]).map reports :=
  reports_same blankBoard (startOn (inbound (message 0x32 2 ++ message 0x32 9)))
    (inbound (message 0x3B 5 ++ message 0x32 9)) (alongside [calm, calm, calm, late, doorTurn])
    (alongside_world _) (by decide +kernel) (by decide +kernel)

/-- The report of the door carries the flag and the id of the last PUBLISH that came in. -/
theorem reports_differ : ¬ ∀ (b : Board) (s : Start) (stream : List UInt8)
    (turns : List (Env × Env)),
    (∀ turn ∈ turns, turn.2 = { turn.1 with stream := turn.2.stream }) →
    Along (beside (iteration b)) (ReceivesAlike b) turns
      (mqttThread s, mqttThread { s with stream := stream }) →
    (rounds b s (turns.map Prod.fst)).map reports =
      (rounds b { s with stream := stream } (turns.map Prod.snd)).map reports := by
  intro all
  have same := all blankBoard (startOn (inbound (message 0x32 2))) (inbound (message 0x3B 5))
    (alongside [calm, calm, late, doorTurn]) (alongside_world _) (by decide +kernel)
  revert same
  decide +kernel

end BoxFirmware.MqttTwoRuns
