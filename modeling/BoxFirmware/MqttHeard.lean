import BoxFirmware.MqttQos2

/-! What `mqtt_thread` holds of the PUBLISHes that have come in: its `retained` is the flag of the
last one that the switch has handled, its `msgid` the id of the last one with an id. A report that
is due in the turn of the switch may be put over the packet, which is then not handled. -/
namespace BoxFirmware.MqttHeard
open ByteMem CText GuardedRun Malloc MqttPacket MqttQos2 MqttThread

def fits (payloadOut : List UInt8) : Bool :=
  mqttPacketLen (mqttSerializePublishLength publishReqQos devicePublish (cstr payloadOut)) ≤ buflen

/-- A report is put over the packet in the buffer. -/
def covered (env : Env) (st : St) : Bool :=
  decide (st.connectFlag ∧ env.sendNow - st.sendtick ≥ 10 * 200) &&
    (blanks env st || env.mail.any fits)

/-- The PUBLISH that the switch of the turn handles, with the bytes behind the buffer. -/
def handled (env : Env) (st : St) : Option (List UInt8) :=
  if st.halted = false ∧ switchOn env st = msgPublish ∧ covered env st = false ∧
    typeBits (bufMem env st 0) = msgPublish then some (st.buf ++ env.stackTail) else none

def retainOf (packet : List UInt8) : Nat := retainBits (ofList packet 0)

/-- The id that `MQTTDeserialize_publish` reads of it. -/
def idOf (packet : List UInt8) : Option Nat :=
  let m := ofList packet
  let (rc, mylen) := mqttPacketDecodeBuf (shift m 1)
  if 0 < qosBits (m 0) ∧ 1 < mylen ∧ idAt m ≤ 1 + rc + mylen then some (readInt (shift m (idAt m)))
  else none

theorem deserializePublish_flags {packet : List UInt8} (vars : PublishVars)
    (publish : typeBits (ofList packet 0) = msgPublish) :
    (mqttDeserializePublish vars (ofList packet)).2.retained = retainOf packet ∧
      (mqttDeserializePublish vars (ofList packet)).2.packetid =
        (idOf packet).getD vars.packetid := by
  have known : ¬ typeBits (ofList packet 0) ≠ msgPublish := fun other => other publish
  unfold idOf retainOf
  generalize ofList packet = m at known
  have place : 1 + (mqttPacketDecodeBuf (shift m 1)).1 + 2 +
      readInt (shift m (1 + (mqttPacketDecodeBuf (shift m 1)).1)) = idAt m := rfl
  unfold mqttDeserializePublish
  rw [if_neg known]
  dsimp only
  rw [place]
  by_cases short : (mqttPacketDecodeBuf (shift m 1)).2 ≤ 1
  · rw [if_pos short, if_neg (fun all => Nat.not_le.mpr all.2.1 short)]
    exact ⟨rfl, rfl⟩
  · rw [if_neg short]
    by_cases cut : 1 + (mqttPacketDecodeBuf (shift m 1)).1 + (mqttPacketDecodeBuf (shift m 1)).2 < idAt m
    · rw [if_pos cut, if_neg (fun all => Nat.not_lt.mpr all.2.2 cut)]
      exact ⟨rfl, rfl⟩
    · rw [if_neg cut]
      refine ⟨rfl, ?_⟩
      by_cases id : qosBits (m 0) > 0
      · simp only [if_pos id]
        rw [if_pos ⟨id, Nat.not_le.mp short, Nat.not_lt.mp cut⟩]
        rfl
      · simp only [if_neg id]
        rw [if_neg (fun all => id all.1)]
        rfl

section Turn
variable {b : Board} {env : Env} {st : St}

theorem own_report (bounded : Bounded st) {payload : List UInt8} (rest : List UInt8)
    (vars : PublishVars)
    (small : mqttPacketLen (mqttSerializePublishLength publishReqQos devicePublish payload) ≤ buflen) :
    (mqttDeserializePublish vars (ofList (publishPacket 0 publishReqQos st.retained st.msgid
        devicePublish payload ++ rest))).2.retained = st.retained ∧
      (mqttDeserializePublish vars (ofList (publishPacket 0 publishReqQos st.retained st.msgid
        devicePublish payload ++ rest))).2.packetid = st.msgid := by
  have length : mqttSerializePublishLength publishReqQos devicePublish payload < 128 ^ 4 := by
    unfold mqttPacketLen buflen at small
    dsimp only at small
    split_ifs at small <;> omega
  have read := deserializePublish_packet vars ⟨0, publishReqQos, st.retained, st.msgid,
    devicePublish, payload, by decide, by decide, bounded.retained, bounded.msgid, by decide,
    length⟩ rest
  simp only [Publish.packet] at read
  rw [read]
  exact ⟨rfl, rfl⟩

theorem atSwitch_buf (b : Board) (env : Env) (st : St) :
    (covered env st = false → (atSwitch b env st).buf = st.buf) ∧
    (covered env st = true → (atSwitch b env st).buf = zeroBuf ∨
      ∃ payload rest, mqttPacketLen (mqttSerializePublishLength publishReqQos devicePublish payload) ≤
          buflen ∧ (atSwitch b env st).buf =
            publishPacket 0 publishReqQos st.retained st.msgid devicePublish payload ++ rest) := by
  by_cases due : st.connectFlag ∧ env.sendNow - st.sendtick ≥ 10 * 200
  · have blank := blockReports_buf b env st
    have core := blockReports_core b env st
    have retained : (blockReports b env st).retained = st.retained := congrArg Core.retained core
    have msgid : (blockReports b env st).msgid = st.msgid := congrArg Core.msgid core
    have mailed : (atSwitch b env st).buf = (mailReport b env (blockReports b env st)).buf :=
      (congrArg St.buf (beforeSwitch_due b due) :)
    have dueTrue : covered env st = (blanks env st || env.mail.any fits) := by
      rw [covered, decide_eq_true due, Bool.true_and]
    rw [dueTrue, mailed]
    cases mail : env.mail with
    | none =>
      simp only [mailReport, mail, blank, Option.any_none, Bool.or_false]
      exact ⟨fun none => by rw [none]; rfl, fun some => Or.inl (by rw [some]; rfl)⟩
    | some payloadOut =>
      rw [mailReport_packet b env _ mail, retained, msgid, mqttSerializePublish, serialized_snd, blank]
      by_cases long : mqttPacketLen
          (mqttSerializePublishLength publishReqQos devicePublish (cstr payloadOut)) > buflen
      · have cut : fits payloadOut = false := decide_eq_false (Nat.not_le.mpr long)
        rw [if_pos long, Option.any_some, cut, Bool.or_false]
        exact ⟨fun none => by rw [none]; rfl, fun some => Or.inl (by rw [some]; rfl)⟩
      · have whole : fits payloadOut = true := decide_eq_true (Nat.not_lt.mp long)
        rw [if_neg long, Option.any_some, whole, Bool.or_true]
        exact ⟨fun cut => absurd cut (by decide),
          fun _ => Or.inr ⟨cstr payloadOut, _, Nat.not_lt.mp long, rfl⟩⟩
  · have early : (atSwitch b env st).buf = (wake env st).buf :=
      (congrArg St.buf (beforeSwitch_early b due) :)
    rw [covered, decide_eq_false due, Bool.false_and, early, (wake_flags env st).2.2.2.2.1]
    exact ⟨fun _ => rfl, fun cut => absurd cut (by decide)⟩

theorem afterSwitch_told (b : Board) (env : Env) (bounded : Bounded st) (running : st.halted = false) :
    (afterSwitch b env st).retained = (handled env st).elim st.retained retainOf ∧
      (afterSwitch b env st).msgid = ((handled env st).bind idOf).getD st.msgid := by
  have core := atSwitch_core b env st
  have retained : (atSwitch b env st).retained = st.retained := congrArg Core.retained core
  have msgid : (atSwitch b env st).msgid = st.msgid := congrArg Core.msgid core
  have types := atSwitch_msgtypes b env st
  rw [afterSwitch_eq]
  by_cases publish : switchOn env st = msgPublish
  · have taken : (dispatch b env (atSwitch b env st)).retained =
          (deserializePublish env (atSwitch b env st)).retained ∧
        (dispatch b env (atSwitch b env st)).msgid =
          (deserializePublish env (atSwitch b env st)).packetid := by
      rw [dispatch_publish (types.trans publish)]
      cases resets : has (publishText b env (atSwitch b env st)) "reset" with
      | false =>
        rw [publishCase_eq b env _ (atSwitch_running b env running) resets]
        exact ⟨rfl, rfl⟩
      | true =>
        rw [publishCase_reset b env _ resets]
        exact ⟨rfl, rfl⟩
    rw [taken.1, taken.2, deserializePublish, retained, msgid, bufMem]
    cases cover : covered env st with
    | false =>
      rw [(atSwitch_buf b env st).1 cover]
      by_cases type : typeBits (bufMem env st 0) = msgPublish
      · rw [handled, if_pos ⟨running, publish, cover, type⟩]
        exact deserializePublish_flags _ type
      · rw [handled, if_neg (fun all => type all.2.2.2),
          deserializePublish_other (m := ofList (st.buf ++ env.stackTail)) _ type]
        exact ⟨rfl, rfl⟩
    | true =>
      rw [handled, if_neg (fun all => by rw [cover] at all; cases all.2.2.1)]
      rcases (atSwitch_buf b env st).2 cover with blank | ⟨payload, rest, small, own⟩
      · rw [blank, deserializePublish_other (m := ofList (zeroBuf ++ env.stackTail)) _
          (show typeBits 0 ≠ msgPublish by decide)]
        exact ⟨rfl, rfl⟩
      · rw [own, List.append_assoc]
        exact own_report bounded _ _ small
  · have same := dispatch_inbound b env (atSwitch b env st) (by rw [types]; exact publish)
    rw [handled, if_neg (fun all => publish all.2.1)]
    exact ⟨(congrArg Inbound.retained same).trans retained,
      (congrArg Inbound.msgid same).trans msgid⟩

theorem turn_told (b : Board) (env : Env) (bounded : Bounded st) :
    (iteration b env st).2.retained = (handled env st).elim st.retained retainOf ∧
      (iteration b env st).2.msgid = ((handled env st).bind idOf).getD st.msgid := by
  cases running : st.halted with
  | true =>
    rw [iteration_stopped b env running, handled, if_neg (fun all => by rw [running] at all; cases all.1)]
    exact ⟨rfl, rfl⟩
  | false =>
    have told := afterSwitch_told b env bounded running
    rw [iteration_state running]
    split
    · exact told
    · unfold receive
      dsimp only
      split <;> exact told

end Turn

section Runs

def listen (b : Board) (env : Env) (s : List (List UInt8) × St) : Round × List (List UInt8) × St :=
  ((iteration b env s.2).1, s.1 ++ (handled env s.2).toList, (iteration b env s.2).2)

def lastRetain (heard : List (List UInt8)) : Option Nat := heard.getLast?.map retainOf

def lastId (heard : List (List UInt8)) : Option Nat := (heard.filterMap idOf).getLast?

structure Told (s : List (List UInt8) × St) : Prop where
  retained : s.2.retained = (lastRetain s.1).getD 0
  msgid : s.2.msgid = (lastId s.1).getD 1
  bounded : Bounded s.2

theorem told_start (s : Start) : Told ([], mqttThread s) :=
  ⟨rfl, rfl, show 1 < 65536 by decide, show 0 < 2 by decide⟩

theorem told_listen (b : Board) (env : Env) {s : List (List UInt8) × St} (told : Told s) :
    Told (listen b env s).2 := by
  obtain ⟨heard, st⟩ := s
  obtain ⟨retained, msgid⟩ := turn_told b env told.bounded
  have flag := told.retained
  have id := told.msgid
  dsimp only at retained msgid flag id
  refine ⟨?_, ?_, turn_bounded b env told.bounded⟩
  · rw [listen, retained, lastRetain]
    cases handled env st with
    | none => simpa [lastRetain] using flag
    | some packet => simp
  · rw [listen, msgid, lastId]
    cases handled env st with
    | none => simpa [lastId] using id
    | some packet =>
      cases own : idOf packet with
      | none => simpa [lastId, own] using id
      | some word => simp [own]

end Runs

end BoxFirmware.MqttHeard
