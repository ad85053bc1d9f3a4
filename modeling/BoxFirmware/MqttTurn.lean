import BoxFirmware.MqttThread

/-! One turn of `mqtt_thread` in pieces: what the reports may do, each case of the switch, the
read, and the part of the history that belongs to the connection that is open. -/
namespace BoxFirmware.MqttThread
open ByteMem CText Malloc MqttPacket W25qxx

structure Core where
  mysock : Int
  msgid : Nat
  dup : Nat
  qos : Nat
  retained : Nat
  connackRc : Nat
  connectFlag : Bool
  msgtypes : Nat
  t : Nat
  usartsendbuf : List UInt8
  inbox : List UInt8
  halted : Bool

def St.core (st : St) : Core :=
  { mysock := st.mysock
    msgid := st.msgid
    dup := st.dup
    qos := st.qos
    retained := st.retained
    connackRc := st.connackRc
    connectFlag := st.connectFlag
    msgtypes := st.msgtypes
    t := st.t
    usartsendbuf := st.usartsendbuf
    inbox := st.inbox
    halted := st.halted }

@[simp] theorem sendPacket_inbox (env : Env) (site : Site) (r : Int × List UInt8) (st : St) :
    (sendPacket env site r st).inbox = st.inbox := rfl

@[simp] theorem sendPacket_mysock (env : Env) (site : Site) (r : Int × List UInt8) (st : St) :
    (sendPacket env site r st).mysock = st.mysock := rfl

@[simp] theorem eventReport_core (b : Board) (env : Env) (site : Site) (message : String)
    (st : St) : (eventReport b env site message st).core = st.core := by
  simp only [St.core, eventReport, freeSramin, sendPublish, sendPacket, mallocSramin, St.emit]

@[simp] theorem doorReport_core (b : Board) (env : Env) (st : St) :
    (doorReport b env st).core = st.core := by
  unfold doorReport
  split
  · exact eventReport_core b env .door "open the door" st
  · rfl

@[simp] theorem fanReport_core (b : Board) (env : Env) (st : St) :
    (fanReport b env st).core = st.core := by
  unfold fanReport
  split
  · exact eventReport_core b env .fan "fan is not work" st
  · rfl

@[simp] theorem initReport_core (b : Board) (env : Env) (st : St) :
    (initReport b env st).core = st.core := by
  unfold initReport
  split
  · simp only [St.core, freeSramin, sendPublish, sendPacket, mallocSramin, St.emit]
  · rfl

@[simp] theorem mailReport_core (b : Board) (env : Env) (st : St) :
    (mailReport b env st).core = st.core := by
  unfold mailReport
  split
  · rfl
  · simp only [St.core, freeSramin, sendPublish, sendPacket, St.emit]

@[simp] theorem timedReports_core (b : Board) (env : Env) (st : St) :
    (timedReports b env st).core = st.core := by
  unfold timedReports
  split
  · simp only [mailReport_core, initReport_core, fanReport_core, doorReport_core]
    rfl
  · rfl

def switchOn (env : Env) (st : St) : Nat :=
  if env.pingNow - st.curtick > 60 * 200 ∧ st.msgtypes = 0 then msgPingreq else st.msgtypes

theorem wake_core (env : Env) (st : St) :
    (wake env st).core = { st.core with msgtypes := switchOn env st } := by
  rw [wake, pingTimer, switchOn]
  split <;> rfl

theorem wake_connectFlag (env : Env) (st : St) : (wake env st).connectFlag = st.connectFlag :=
  congrArg Core.connectFlag (wake_core env st)

theorem beforeSwitch_core (b : Board) (env : Env) (st : St) :
    (beforeSwitch b env st).core = { st.core with msgtypes := switchOn env st } := by
  rw [beforeSwitch, timedReports_core, wake_core]

def publishEvent (sock : Int) (msgid retained : Nat) (rc : Int) (payload : List UInt8) : Event :=
  let r := mqttSerializePublish [] buflen 0 publishReqQos retained msgid devicePublish payload
  .sent sock (sentBytes r) r.1 rc

theorem serialized_fst (buf : List UInt8) (n remLen : Nat) (packet : List UInt8) :
    (serialized buf n remLen packet).1 = (serialized [] n remLen packet).1 := by
  unfold serialized
  split <;> rfl

theorem serialized_snd (buf : List UInt8) (n remLen : Nat) (packet : List UInt8) :
    (serialized buf n remLen packet).2 =
      if mqttPacketLen remLen > n then buf else packet ++ buf.drop packet.length := by
  unfold serialized
  split <;> rfl

theorem sendPublish_log (env : Env) (site : Site) (payload : List UInt8) (st : St) :
    (sendPublish env site payload st).log =
      st.log ++ [publishEvent st.mysock st.msgid st.retained (env.writeRc site) payload] := by
  unfold sendPublish sendPacket publishEvent mqttSerializePublish
  dsimp only [St.emit]
  rw [sentBytes_serialized, sentBytes_serialized, serialized_fst]

theorem eventText_fits (b : Board) (message : String) (short : (ascii message).length ≤ 100) :
    mqttPacketLen (mqttSerializePublishLength publishReqQos devicePublish (eventText b message)) ≤
      buflen := by
  have id := formatInt_length_le b.clientId
  have topic : devicePublish.length = 13 := by decide
  have front : (ascii "\x7b\"messageType\":\"event\",\"deviceNo\":").length = 34 := by decide
  have channel : (ascii ",\"chnl\":-1,\"eventCode\":0,\"eventMessage\":\"").length = 41 := by decide
  have behind : (ascii "\"\x7d").length = 2 := by decide
  have size : (eventText b message).length =
      77 + (formatInt b.clientId).length + (ascii message).length := by
    simp only [eventText, List.length_append, front, channel, behind]
    omega
  simp only [mqttSerializePublishLength, topic, size, mqttPacketLen, buflen]
  split_ifs <;> omega

def eventPacket (b : Board) (message : String) (retained msgid : Nat) : List UInt8 :=
  publishPacket 0 publishReqQos retained msgid devicePublish (eventText b message)

theorem serialize_event (b : Board) (message : String) (short : (ascii message).length ≤ 100)
    (buf : List UInt8) (retained msgid : Nat) :
    let r := mqttSerializePublish buf buflen 0 publishReqQos retained msgid devicePublish
      (eventText b message)
    sentBytes (r.1, r.2) = eventPacket b message retained msgid ∧
      r.1 = (eventPacket b message retained msgid).length := by
  have fits := Nat.not_lt.mpr (eventText_fits b message short)
  constructor
  · rw [mqttSerializePublish, sentBytes_serialized, if_neg fits, eventPacket]
  · rw [mqttSerializePublish, serialized, if_neg fits, eventPacket]

def Event.isSent : Event → Bool
  | .sent _ _ _ _ => true
  | _ => false

def ReportEvent (c : Core) : Event → Prop
  | .sent sock packet len rc =>
    ∃ payload, Event.sent sock packet len rc = publishEvent c.mysock c.msgid c.retained rc payload
  | .uart _ => True
  | .malloc _ _ => True
  | .free _ => True
  | _ => False

def writeResult : Event → Option Int
  | .sent _ _ _ rc => some rc
  | _ => none

structure Reported (st st' : St) (rcs : List Int) : Prop where
  core : st'.core = st.core
  log : ∃ es, st'.log = st.log ++ es ∧ (∀ e ∈ es, ReportEvent st.core e) ∧
    es.filterMap writeResult = rcs

theorem Reported.refl (st : St) : Reported st st [] :=
  ⟨rfl, [], by simp, by simp, rfl⟩

theorem Reported.trans {st mid st' : St} {rcs rcs' : List Int} (first : Reported st mid rcs)
    (second : Reported mid st' rcs') : Reported st st' (rcs ++ rcs') := by
  obtain ⟨es, log, events, results⟩ := first.log
  obtain ⟨fs, log', events', results'⟩ := second.log
  refine ⟨second.core.trans first.core, es ++ fs, ?_, ?_, ?_⟩
  · rw [log', log, List.append_assoc]
  · intro e he
    rw [first.core] at events'
    exact (List.mem_append.mp he).elim (events e) (events' e)
  · rw [List.filterMap_append, results, results']

theorem publishEvent_report (c : Core) (rc : Int) (payload : List UInt8) :
    ReportEvent c (publishEvent c.mysock c.msgid c.retained rc payload) := ⟨payload, rfl⟩

theorem reported_block {st st' : St} (core : st'.core = st.core) (size ptr : Nat) (rc : Int)
    (payload : List UInt8) (log : st'.log = st.log ++
      [.malloc size ptr, publishEvent st.mysock st.msgid st.retained rc payload, .free ptr]) :
    Reported st st' [rc] := by
  refine ⟨core, _, log, ?_, rfl⟩
  intro e he
  simp only [List.mem_cons, List.not_mem_nil, or_false] at he
  rcases he with rfl | rfl | rfl
  · trivial
  · exact publishEvent_report st.core rc payload
  · trivial

theorem eventReport_log (b : Board) (env : Env) (site : Site) (message : String) (st : St) :
    (eventReport b env site message st).log = st.log ++
      [.malloc 256 (mallocSramin b 256 st).1,
        publishEvent st.mysock st.msgid st.retained (env.writeRc site)
          (if (mallocSramin b 256 st).1 = 0 then b.nullText else eventText b message),
        .free (mallocSramin b 256 st).1] := by
  simp only [eventReport, freeSramin, St.emit]
  rw [sendPublish_log]
  simp only [mallocSramin, St.emit, List.append_assoc, List.cons_append, List.nil_append]

theorem doorReport_reported (b : Board) (env : Env) (st : St) :
    Reported st (doorReport b env st) (if st.doorFlag then [env.writeRc .door] else []) := by
  cases flag : st.doorFlag with
  | false =>
    rw [show doorReport b env st = st by simp [doorReport, flag]]
    exact Reported.refl st
  | true =>
    have log := eventReport_log b env .door "open the door" st
    rw [show (eventReport b env .door "open the door" st).log = (doorReport b env st).log by
      simp [doorReport, flag]] at log
    exact reported_block (doorReport_core b env st) _ _ _ _ log

theorem fanReport_reported (b : Board) (env : Env) (st : St) :
    Reported st (fanReport b env st) (if st.fanWarn then [env.writeRc .fan] else []) := by
  cases flag : st.fanWarn with
  | false =>
    rw [show fanReport b env st = st by simp [fanReport, flag]]
    exact Reported.refl st
  | true =>
    have log := eventReport_log b env .fan "fan is not work" st
    rw [show (eventReport b env .fan "fan is not work" st).log = (fanReport b env st).log by
      simp [fanReport, flag]] at log
    exact reported_block (fanReport_core b env st) _ _ _ _ log

theorem initReport_log (b : Board) (env : Env) (st : St) (first : st.ti = true) :
    (initReport b env st).log = st.log ++
      [.malloc 1024 (mallocSramin b 1024 st).1,
        publishEvent st.mysock st.msgid st.retained (env.writeRc .init)
          (recordText b env .init (mallocSramin b 1024 st).1 1024),
        .free (mallocSramin b 1024 st).1] := by
  simp only [initReport, first, if_true, freeSramin, St.emit]
  rw [sendPublish_log]
  simp only [mallocSramin, St.emit, List.append_assoc, List.cons_append, List.nil_append]

theorem initReport_reported (b : Board) (env : Env) (st : St) :
    Reported st (initReport b env st) (if st.ti then [env.writeRc .init] else []) := by
  cases flag : st.ti with
  | false =>
    rw [show initReport b env st = st by simp [initReport, flag]]
    exact Reported.refl st
  | true => exact reported_block (initReport_core b env st) _ _ _ _ (initReport_log b env st flag)

theorem mailReport_packet (b : Board) (env : Env) (st : St) {payloadOut : List UInt8}
    (mail : env.mail = some payloadOut) : (mailReport b env st).buf =
      (mqttSerializePublish st.buf buflen 0 publishReqQos st.retained st.msgid devicePublish
        (cstr payloadOut)).2 := by
  simp only [mailReport, mail]
  rfl

theorem mailReport_log (b : Board) (env : Env) (st : St) (payloadOut : List UInt8)
    (mail : env.mail = some payloadOut) :
    (mailReport b env st).log = st.log ++
      [publishEvent st.mysock st.msgid st.retained (env.writeRc .mail) (cstr payloadOut),
        .free b.payloadOutAddr] := by
  simp only [mailReport, mail, freeSramin, St.emit]
  rw [sendPublish_log, List.append_assoc]
  rfl

theorem mailReport_reported (b : Board) (env : Env) (st : St) :
    Reported st (mailReport b env st) (if env.mail.isSome then [env.writeRc .mail] else []) := by
  cases mail : env.mail with
  | none =>
    rw [show mailReport b env st = st by simp [mailReport, mail]]
    exact Reported.refl st
  | some payloadOut =>
    refine ⟨mailReport_core b env st, _, mailReport_log b env st payloadOut mail, ?_, rfl⟩
    intro e he
    simp only [List.mem_cons, List.not_mem_nil, or_false] at he
    rcases he with rfl | rfl
    · exact publishEvent_report st.core _ _
    · trivial

theorem doorReport_flags (b : Board) (env : Env) (st : St) :
    (doorReport b env st).fanWarn = st.fanWarn ∧ (doorReport b env st).ti = st.ti := by
  unfold doorReport
  split
  · simp only [eventReport, freeSramin, sendPublish, sendPacket, mallocSramin, St.emit,
      and_self]
  · exact ⟨rfl, rfl⟩

theorem fanReport_ti (b : Board) (env : Env) (st : St) :
    (fanReport b env st).ti = st.ti := by
  unfold fanReport
  split
  · simp only [eventReport, freeSramin, sendPublish, sendPacket, mallocSramin, St.emit]
  · rfl

def reportCount (env : Env) (st : St) : Nat :=
  if st.connectFlag ∧ env.sendNow - st.sendtick ≥ 10 * 200 then
    (st.doorFlag || env.doorOpened).toNat + (env.fanSet.getD st.fanWarn).toNat + st.ti.toNat +
      env.mail.isSome.toNat
  else 0

def reportRcs (env : Env) (st : St) : List Int :=
  if st.connectFlag ∧ env.sendNow - st.sendtick ≥ 10 * 200 then
    (if st.doorFlag || env.doorOpened then [env.writeRc .door] else []) ++
      (if env.fanSet.getD st.fanWarn then [env.writeRc .fan] else []) ++
      (if st.ti then [env.writeRc .init] else []) ++
      if env.mail.isSome then [env.writeRc .mail] else []
  else []

theorem wake_flags (env : Env) (st : St) :
    (wake env st).doorFlag = (st.doorFlag || env.doorOpened) ∧
      (wake env st).fanWarn = env.fanSet.getD st.fanWarn ∧ (wake env st).ti = st.ti ∧
      (wake env st).sendtick = st.sendtick ∧ (wake env st).buf = st.buf ∧
      (wake env st).heap = st.heap ∧ (wake env st).log = [] := by
  unfold wake pingTimer
  split <;> exact ⟨rfl, rfl, rfl, rfl, rfl, rfl, rfl⟩

theorem beforeSwitch_reported (b : Board) (env : Env) (st : St) :
    Reported (wake env st) (beforeSwitch b env st) (reportRcs env st) := by
  obtain ⟨door, fan, init, tick, _, _, _⟩ := wake_flags env st
  unfold beforeSwitch timedReports reportRcs
  rw [wake_connectFlag, tick]
  by_cases due : st.connectFlag ∧ env.sendNow - st.sendtick ≥ 10 * 200
  · rw [if_pos due, if_pos due]
    let shown := { (wake env st).emit [.uart (ascii "displaynew\r\n")] with sendtick := env.sendSet }
    have display : Reported (wake env st) shown [] :=
      ⟨rfl, [.uart (ascii "displaynew\r\n")], rfl, by simp [ReportEvent], rfl⟩
    have first := doorReport_reported b env shown
    have second := fanReport_reported b env (doorReport b env shown)
    have third := initReport_reported b env (fanReport b env (doorReport b env shown))
    have fourth := mailReport_reported b env (initReport b env (fanReport b env (doorReport b env shown)))
    rw [(doorReport_flags b env shown).1] at second
    rw [fanReport_ti, (doorReport_flags b env shown).2] at third
    have all := (((display.trans first).trans second).trans third).trans fourth
    rw [show shown.doorFlag = (wake env st).doorFlag from rfl,
      show shown.fanWarn = (wake env st).fanWarn from rfl,
      show shown.ti = (wake env st).ti from rfl, door, fan, init, List.nil_append] at all
    exact all
  · rw [if_neg due, if_neg due]
    exact Reported.refl _

theorem beforeSwitch_events (b : Board) (env : Env) (st : St) :
    (∀ e ∈ (beforeSwitch b env st).log, ReportEvent st.core e) ∧
      (beforeSwitch b env st).log.filterMap writeResult = reportRcs env st := by
  obtain ⟨es, log, events, results⟩ := (beforeSwitch_reported b env st).log
  rw [(wake_flags env st).2.2.2.2.2.2, List.nil_append] at log
  rw [wake_core] at events
  rw [log]
  refine ⟨fun e he => ?_, results⟩
  have event := events e he
  cases e <;> exact event

theorem beforeSwitch_unconnected (b : Board) (env : Env) (st : St)
    (flag : st.connectFlag = false) : beforeSwitch b env st = wake env st := by
  rw [beforeSwitch, timedReports, wake_connectFlag, flag]
  simp

theorem beforeSwitch_quiet (b : Board) (env : Env) (st : St) (idle : reportCount env st = 0) :
    beforeSwitch b env st = if st.connectFlag ∧ env.sendNow - st.sendtick ≥ 10 * 200 then
        { (wake env st).emit [.uart (ascii "displaynew\r\n")] with sendtick := env.sendSet }
      else wake env st := by
  obtain ⟨door, fan, init, tick, -, -, -⟩ := wake_flags env st
  unfold beforeSwitch timedReports
  unfold reportCount at idle
  rw [wake_connectFlag, tick]
  by_cases due : st.connectFlag ∧ env.sendNow - st.sendtick ≥ 10 * 200
  · rw [if_pos due] at idle
    rw [if_pos due, if_pos due]
    rw [← door, ← fan, ← init] at idle
    have none : env.mail = none := by
      cases mail : env.mail with
      | none => rfl
      | some payloadOut => simp [mail] at idle
    have quiet : (wake env st).doorFlag = false ∧ (wake env st).fanWarn = false ∧
        (wake env st).ti = false := by
      refine ⟨?_, ?_, ?_⟩ <;> refine Bool.eq_false_iff.mpr (fun set => ?_) <;>
        simp [set] at idle
    simp only [mailReport, none, initReport, fanReport, doorReport, quiet, St.emit]
    rfl
  · rw [if_neg due, if_neg due]

theorem beforeSwitch_idle (b : Board) (env : Env) (st : St) (idle : reportCount env st = 0) :
    (beforeSwitch b env st).buf = st.buf ∧ (beforeSwitch b env st).heap = st.heap := by
  obtain ⟨-, -, -, -, buf, heap, -⟩ := wake_flags env st
  rw [beforeSwitch_quiet b env st idle]
  split <;> exact ⟨buf, heap⟩

theorem doorReport_buf (b : Board) (env : Env) (st : St) :
    (doorReport b env st).buf = if st.doorFlag then zeroBuf else st.buf := by
  unfold doorReport
  split <;> rfl

theorem fanReport_buf (b : Board) (env : Env) (st : St) :
    (fanReport b env st).buf = if st.fanWarn then zeroBuf else st.buf := by
  unfold fanReport
  split <;> rfl

theorem initReport_buf (b : Board) (env : Env) (st : St) :
    (initReport b env st).buf = if st.ti then zeroBuf else st.buf := by
  unfold initReport
  split <;> rfl

def blockReports (b : Board) (env : Env) (st : St) : St :=
  let st := { (wake env st).emit [.uart (ascii "displaynew\r\n")] with sendtick := env.sendSet }
  initReport b env (fanReport b env (doorReport b env st))

def blanks (env : Env) (st : St) : Bool :=
  st.doorFlag || env.doorOpened || env.fanSet.getD st.fanWarn || st.ti

theorem beforeSwitch_due (b : Board) {env : Env} {st : St}
    (due : st.connectFlag ∧ env.sendNow - st.sendtick ≥ 10 * 200) :
    beforeSwitch b env st = mailReport b env (blockReports b env st) := by
  have tick : (wake env st).sendtick = st.sendtick := (wake_flags env st).2.2.2.1
  rw [beforeSwitch, timedReports, if_pos (by rw [tick, wake_connectFlag]; exact due)]
  rfl

theorem beforeSwitch_early (b : Board) {env : Env} {st : St}
    (early : ¬ (st.connectFlag ∧ env.sendNow - st.sendtick ≥ 10 * 200)) :
    beforeSwitch b env st = wake env st := by
  have tick : (wake env st).sendtick = st.sendtick := (wake_flags env st).2.2.2.1
  rw [beforeSwitch, timedReports, wake_connectFlag, tick]
  exact if_neg early

theorem blockReports_core (b : Board) (env : Env) (st : St) :
    (blockReports b env st).core = { st.core with msgtypes := switchOn env st } := by
  rw [blockReports, initReport_core, fanReport_core, doorReport_core]
  exact wake_core env st

theorem blockReports_buf (b : Board) (env : Env) (st : St) :
    (blockReports b env st).buf = if blanks env st then zeroBuf else st.buf := by
  obtain ⟨door, fan, init, -, buf, -, -⟩ := wake_flags env st
  rw [blockReports, initReport_buf, fanReport_buf, doorReport_buf, fanReport_ti,
    (doorReport_flags b env _).1, (doorReport_flags b env _).2, blanks, ← door, ← fan, ← init, ← buf]
  dsimp only [St.emit]
  grind

theorem reportCount_blanks {env : Env} {st : St}
    (due : st.connectFlag ∧ env.sendNow - st.sendtick ≥ 10 * 200) (blank : blanks env st = false) :
    reportCount env st = env.mail.isSome.toNat := by
  unfold blanks at blank
  rw [Bool.or_eq_false_iff, Bool.or_eq_false_iff] at blank
  rw [reportCount, if_pos due, blank.1.1, blank.1.2, blank.2]
  exact Nat.zero_add _

def reopens (env : Env) (st : St) : Prop :=
  switchOn env st = msgPingreq ∧ env.writeRc .answer ≠ 2

instance (env : Env) (st : St) : Decidable (reopens env st) :=
  inferInstanceAs (Decidable (_ ∧ _))

def inboxAtRead (env : Env) (st : St) : List UInt8 :=
  if reopens env st then (if env.sock < 0 then [] else env.stream) else st.inbox

def arriving (env : Env) (st : St) : Int :=
  (mqttPacketRead env.delivery zeroBuf buflen (inboxAtRead env st)).1

theorem zeroBuf_length : zeroBuf.length = buflen := List.length_replicate

theorem receive_none {env : Env} {st : St}
    (none : ¬ 0 < (mqttPacketRead env.delivery zeroBuf buflen st.inbox).1) :
    receive env st = (.none, { st with
      buf := (mqttPacketRead env.delivery zeroBuf buflen st.inbox).2.1
      inbox := (mqttPacketRead env.delivery zeroBuf buflen st.inbox).2.2 }) := by
  unfold receive
  exact if_neg none

theorem receive_some {env : Env} {st : St}
    (some : 0 < (mqttPacketRead env.delivery zeroBuf buflen st.inbox).1) :
    receive env st = (.some (mqttPacketRead env.delivery zeroBuf buflen st.inbox).2.1, { st with
      buf := (mqttPacketRead env.delivery zeroBuf buflen st.inbox).2.1
      inbox := (mqttPacketRead env.delivery zeroBuf buflen st.inbox).2.2
      msgtypes := packetType (mqttPacketRead env.delivery zeroBuf buflen st.inbox).2.1 }) := by
  have type := (mqttPacketRead_got zeroBuf_length some).1
  unfold receive
  dsimp only
  rw [if_pos some, type, Int.toNat_natCast]

theorem pingreq_rc (buf : List UInt8) : (mqttSerializePingreq buf buflen).1 = 2 := by
  simp [mqttSerializePingreq, mqttSerializeZero, mqttPacketEncode, encodeDigits, buflen]

structure Link where
  mysock : Int
  connectFlag : Bool
  t : Nat
  inbox : List UInt8

def St.link (st : St) : Link := ⟨st.mysock, st.connectFlag, st.t, st.inbox⟩

def commandEvents (text usartsendbuf : List UInt8) : List Event :=
  (if has text "switch" then [.uart (switchText text usartsendbuf), .mode 3] else []) ++
    if has text "reset" then [.reset]
    else (if has text "setMode" then [.mode (if has text "operation" then 1 else 0)] else []) ++
      if has text "restart" then [.restar] else []

/-- The value of `msgtypes` behind the keyword tests. -/
def commandNext (text : List UInt8) (msgtypes : Nat) : Nat :=
  if has text "reset" then (if has text "switch" then 0 else msgtypes)
  else if has text "setMode" || has text "restart" then 0
  else if has text "info" then 15
  else if has text "switch" then 0
  else msgtypes

theorem commands_eq (text : List UInt8) (st : St) :
    commands text st = { st with
      usartsendbuf := if has text "switch" then [] else st.usartsendbuf
      msgtypes := commandNext text st.msgtypes
      halted := st.halted || has text "reset"
      log := st.log ++ commandEvents text st.usartsendbuf } := by
  unfold commands switchCommand infoCommand setModeCommand restartCommand commandEvents commandNext
  cases has text "switch" <;> cases has text "reset" <;> cases has text "setMode" <;>
    cases has text "restart" <;> cases has text "info" <;> simp [St.emit]

theorem commands_link (text : List UInt8) (st : St) : (commands text st).link = st.link := by
  rw [commands_eq]
  rfl

theorem freeSramin_link (b : Board) (ptr : Nat) (st : St) : (freeSramin b ptr st).link = st.link := rfl

theorem sendPuback_link (env : Env) (st : St) : (sendPuback env st).link = st.link := by
  unfold sendPuback
  split <;> rfl

def pubackEvents (env : Env) (mysock : Int) (vars : PublishVars) : List Event :=
  if vars.qos = 1 then
    [.sent mysock (sentBytes (mqttSerializeAck zeroBuf buflen msgPuback vars.dup vars.packetid))
      (mqttSerializeAck zeroBuf buflen msgPuback vars.dup vars.packetid).1 (env.writeRc .answer)]
  else []

theorem pubackEvents_kind {env : Env} {mysock : Int} {vars : PublishVars} {e : Event}
    (h : e ∈ pubackEvents env mysock vars) :
    ∃ packet len rc, e = .sent mysock packet len rc ∧ packetType packet = msgPuback := by
  unfold pubackEvents at h
  split at h
  · rw [List.mem_singleton] at h
    refine ⟨_, _, _, h, ?_⟩
    rw [sentBytes_ack _ _ _ _ (by decide), packetType_header]
    rfl
  · cases h

theorem publishCase_eq (b : Board) (env : Env) (st : St) (running : st.halted = false)
    (stays : has (publishText b env st) "reset" = false) :
    publishCase b env st = { takeVars (deserializePublish env st) st with
      usartsendbuf := if has (publishText b env st) "switch" then [] else st.usartsendbuf
      msgtypes := commandNext (publishText b env st) st.msgtypes
      heap := myfree b.layout .sramin (mymalloc b.layout .sramin st.heap 125).2
        (payloadIn b env st)
      buf := if (deserializePublish env st).qos = 1 then
          (mqttSerializeAck zeroBuf buflen msgPuback (deserializePublish env st).dup
            (deserializePublish env st).packetid).2
        else st.buf
      log := st.log ++ (.malloc 125 (payloadBlock b st) ::
        commandEvents (publishText b env st) st.usartsendbuf ++ .free (payloadIn b env st) ::
        pubackEvents env st.mysock (deserializePublish env st)) } := by
  unfold publishCase
  dsimp only
  rw [commands_eq]
  simp only [takeVars, mallocSramin, St.emit, running, stays, Bool.or_self, Bool.false_eq_true,
    if_false, sendPuback, freeSramin, sendPacket, pubackEvents, payloadBlock]
  split <;> simp

theorem publishCase_reset (b : Board) (env : Env) (st : St)
    (resets : has (publishText b env st) "reset" = true) :
    publishCase b env st = { takeVars (deserializePublish env st) st with
      usartsendbuf := if has (publishText b env st) "switch" then [] else st.usartsendbuf
      msgtypes := commandNext (publishText b env st) st.msgtypes
      heap := (mymalloc b.layout .sramin st.heap 125).2
      halted := true
      log := st.log ++ (.malloc 125 (payloadBlock b st) ::
        commandEvents (publishText b env st) st.usartsendbuf) } := by
  unfold publishCase
  dsimp only
  rw [commands_eq]
  simp [takeVars, mallocSramin, St.emit, resets, payloadBlock]

theorem publishCase_link (b : Board) (env : Env) (st : St) :
    (publishCase b env st).link = st.link := by
  unfold publishCase
  dsimp only
  split
  · rw [commands_link]
    rfl
  · rw [sendPuback_link, freeSramin_link, commands_link]
    rfl

theorem dispatch_link (b : Board) (env : Env) (st : St) (connack : st.msgtypes ≠ msgConnack)
    (subscribe : st.msgtypes ≠ msgSubscribe) (pingreq : st.msgtypes ≠ msgPingreq) :
    (dispatch b env st).link = st.link := by
  unfold dispatch
  split
  · simp only [connectCase, St.link, sendPacket, St.emit]
  · exact absurd ‹_› connack
  · exact publishCase_link b env st
  · rfl
  · rfl
  · rfl
  · rfl
  · exact absurd ‹_› subscribe
  · rfl
  · exact absurd ‹_› pingreq
  · rfl
  · simp only [infoCase, St.link, freeSramin, sendPublish, sendPacket, mallocSramin, St.emit]
  · rfl

theorem connackCase_inbox (env : Env) (st : St) :
    (connackCase env st).inbox = st.inbox ∧ (connackCase env st).mysock = st.mysock := by
  unfold connackCase
  dsimp only
  split <;> exact ⟨rfl, rfl⟩

theorem subscribeCase_inbox (b : Board) (env : Env) (st : St) :
    (subscribeCase b env st).inbox = st.inbox ∧ (subscribeCase b env st).mysock = st.mysock := by
  unfold subscribeCase
  dsimp only
  split_ifs <;> simp only [sendPacket_inbox, sendPacket_mysock, and_self]

theorem dispatch_connect {b : Board} {env : Env} {st : St} (type : st.msgtypes = msgConnect) :
    dispatch b env st = connectCase b env st := by
  simp only [dispatch, type]

theorem dispatch_connack {b : Board} {env : Env} {st : St} (type : st.msgtypes = msgConnack) :
    dispatch b env st = connackCase env st := by
  simp only [dispatch, type]

theorem dispatch_publish {b : Board} {env : Env} {st : St} (type : st.msgtypes = msgPublish) :
    dispatch b env st = publishCase b env st := by
  simp only [dispatch, type]

theorem dispatch_pubrel {b : Board} {env : Env} {st : St} (type : st.msgtypes = msgPubrel) :
    dispatch b env st = pubrelCase env st := by
  simp only [dispatch, type]

theorem dispatch_subscribe {b : Board} {env : Env} {st : St} (type : st.msgtypes = msgSubscribe) :
    dispatch b env st = subscribeCase b env st := by
  simp only [dispatch, type]

theorem dispatch_pingreq {b : Board} {env : Env} {st : St} (type : st.msgtypes = msgPingreq) :
    dispatch b env st = pingreqCase env st := by
  simp only [dispatch, type]

theorem dispatch_info {b : Board} {env : Env} {st : St} (type : st.msgtypes = 15) :
    dispatch b env st = infoCase b env st := by
  simp only [dispatch, type]

theorem pingreqCase_eq (env : Env) (st : St) :
    pingreqCase env st =
      if env.writeRc .answer = 2 then
        { sendPacket env .answer (mqttSerializePingreq st.buf buflen) st with msgtypes := 0 }
      else
        { (sendPacket env .answer (mqttSerializePingreq st.buf buflen) st).emit
            [.closed st.mysock, .opened env.sock env.stream] with
          connectFlag := false
          mysock := env.sock
          inbox := if env.sock < 0 then [] else env.stream
          msgtypes := msgConnect } := by
  unfold pingreqCase
  dsimp only
  rw [pingreq_rc]
  rfl

structure Inbound where
  msgid : Nat
  dup : Nat
  qos : Nat
  retained : Nat
  usartsendbuf : List UInt8
  halted : Bool

def St.inbound (st : St) : Inbound :=
  ⟨st.msgid, st.dup, st.qos, st.retained, st.usartsendbuf, st.halted⟩

theorem dispatch_inbound (b : Board) (env : Env) (st : St) (other : st.msgtypes ≠ msgPublish) :
    (dispatch b env st).inbound = st.inbound := by
  unfold dispatch
  split
  case h_1 => simp only [connectCase, St.inbound, sendPacket, St.emit]
  case h_2 =>
    unfold connackCase
    dsimp only
    split <;> rfl
  case h_3 type => exact absurd type other
  case h_8 =>
    unfold subscribeCase
    dsimp only
    split_ifs <;> simp only [St.inbound, sendPacket, St.emit]
  case h_10 =>
    rw [pingreqCase_eq]
    split <;> simp only [St.inbound, sendPacket, St.emit]
  case h_12 => simp only [infoCase, St.inbound, freeSramin, sendPublish, sendPacket, mallocSramin, St.emit]
  all_goals rfl

theorem connectCase_log (b : Board) (env : Env) (st : St) : (connectCase b env st).log = st.log ++
    [Event.sent st.mysock (sentBytes (mqttSerializeConnect st.buf buflen b.data))
      (mqttSerializeConnect st.buf buflen b.data).1 (env.writeRc .answer)] := rfl

theorem connackCase_log (env : Env) (st : St) : (connackCase env st).log = st.log := by
  unfold connackCase
  dsimp only
  split <;> rfl

theorem subscribeCase_log (b : Board) (env : Env) (st : St) :
    (subscribeCase b env st).log = st.log ++
      [Event.sent st.mysock
        (sentBytes (mqttSerializeSubscribe st.buf buflen 0 st.msgid b.deviceSubscribe 1))
        (mqttSerializeSubscribe st.buf buflen 0 st.msgid b.deviceSubscribe 1).1
        (env.writeRc .answer)] := by
  unfold subscribeCase
  dsimp only
  split_ifs <;> rfl

theorem pubrelCase_log (env : Env) (st : St) : (pubrelCase env st).log = st.log ++
    [Event.sent st.mysock (sentBytes (mqttSerializeAck zeroBuf buflen msgPubrel st.dup st.msgid))
      (mqttSerializeAck zeroBuf buflen msgPubrel st.dup st.msgid).1 (env.writeRc .answer)] := rfl

theorem infoCase_log (b : Board) (env : Env) (st : St) : (infoCase b env st).log = st.log ++
    [.malloc 1024 (mallocSramin b 1024 st).1,
      publishEvent st.mysock st.msgid st.retained (env.writeRc .answer)
        (recordText b env .answer (mallocSramin b 1024 st).1 700),
      .free (mallocSramin b 1024 st).1] := by
  simp only [infoCase, freeSramin, St.emit]
  rw [sendPublish_log]
  simp only [mallocSramin, St.emit, List.append_assoc, List.cons_append, List.nil_append]

theorem pingreqCase_log (env : Env) (st : St) : (pingreqCase env st).log = st.log ++
    .sent st.mysock (sentBytes (mqttSerializePingreq st.buf buflen))
        (mqttSerializePingreq st.buf buflen).1 (env.writeRc .answer) ::
      if env.writeRc .answer = 2 then [] else [.closed st.mysock, .opened env.sock env.stream] := by
  rw [pingreqCase_eq]
  split <;> simp [sendPacket, St.emit]

def CommandEvent : Event → Prop
  | .uart _ => True
  | .mode _ => True
  | .restar => True
  | .reset => True
  | _ => False

theorem commandEvents_kind {text usartsendbuf : List UInt8} {e : Event}
    (h : e ∈ commandEvents text usartsendbuf) : CommandEvent e := by
  have all : ∀ e ∈ commandEvents text usartsendbuf, CommandEvent e := by
    unfold commandEvents
    split_ifs <;> simp [CommandEvent]
  exact all e h

theorem publishCase_log (b : Board) (env : Env) (st : St) (running : st.halted = false) :
    (publishCase b env st).log = st.log ++ (.malloc 125 (payloadBlock b st) ::
      commandEvents (publishText b env st) st.usartsendbuf ++
      if has (publishText b env st) "reset" then []
      else .free (payloadIn b env st) :: pubackEvents env st.mysock (deserializePublish env st)) := by
  cases resets : has (publishText b env st) "reset" with
  | false =>
    rw [publishCase_eq b env st running resets]
    simp
  | true =>
    rw [publishCase_reset b env st resets]
    simp

theorem packetType_publishEvent (sock : Int) (msgid retained : Nat) (rc : Int)
    (payload : List UInt8) :
    ∃ packet len, publishEvent sock msgid retained rc payload = .sent sock packet len rc ∧
      packetType packet ∈ [0, msgPublish] :=
  ⟨_, _, rfl, packetType_publish _ _ _ _ _ _ _ _⟩

def SwitchPacket (b : Board) (now : St) (packet : List UInt8) : Prop :=
  now.msgtypes = msgConnect ∧ packet = sentBytes (mqttSerializeConnect now.buf buflen b.data) ∨
    now.msgtypes = 15 ∧ packetType packet ∈ [0, msgPublish] ∨
    packetType packet ∈ [0, msgPuback, msgPubrel, msgSubscribe, msgPingreq]

/-- What the switch may log: no packet is read there, and only a failed ping opens a
connection. -/
def SwitchEvent (b : Board) (env : Env) (now : St) : Event → Prop
  | .received _ => False
  | .opened sock stream => now.msgtypes = msgPingreq ∧ env.writeRc .answer ≠ 2 ∧
    sock = env.sock ∧ stream = env.stream
  | .sent _ packet _ _ => SwitchPacket b now packet
  | _ => True

theorem switchPacket_ack {b : Board} {now : St} {packet : List UInt8}
    (type : packetType packet ∈ [0, msgPuback, msgPubrel, msgSubscribe, msgPingreq]) :
    SwitchPacket b now packet := Or.inr (Or.inr type)

theorem CommandEvent.switchEvent {b : Board} {env : Env} {now : St} {e : Event}
    (kind : CommandEvent e) : SwitchEvent b env now e := by
  cases e <;> trivial

inductive Answers (b : Board) (env : Env) (now : St) : List Event → Prop
  | connect (type : now.msgtypes = msgConnect) : Answers b env now
      [.sent now.mysock (sentBytes (mqttSerializeConnect now.buf buflen b.data))
        (mqttSerializeConnect now.buf buflen b.data).1 (env.writeRc .answer)]
  | publish (type : now.msgtypes = msgPublish) : Answers b env now
      (.malloc 125 (payloadBlock b now) ::
        commandEvents (publishText b env now) now.usartsendbuf ++
        if has (publishText b env now) "reset" then []
        else .free (payloadIn b env now) ::
          pubackEvents env now.mysock (deserializePublish env now))
  | pubrel (type : now.msgtypes = msgPubrel) : Answers b env now
      [.sent now.mysock (sentBytes (mqttSerializeAck zeroBuf buflen msgPubrel now.dup now.msgid))
        (mqttSerializeAck zeroBuf buflen msgPubrel now.dup now.msgid).1 (env.writeRc .answer)]
  | subscribe (type : now.msgtypes = msgSubscribe) : Answers b env now
      [.sent now.mysock
        (sentBytes (mqttSerializeSubscribe now.buf buflen 0 now.msgid b.deviceSubscribe 1))
        (mqttSerializeSubscribe now.buf buflen 0 now.msgid b.deviceSubscribe 1).1
        (env.writeRc .answer)]
  | pingreq (type : now.msgtypes = msgPingreq) : Answers b env now
      (.sent now.mysock (sentBytes (mqttSerializePingreq now.buf buflen))
          (mqttSerializePingreq now.buf buflen).1 (env.writeRc .answer) ::
        if env.writeRc .answer = 2 then []
        else [.closed now.mysock, .opened env.sock env.stream])
  | info (type : now.msgtypes = 15) : Answers b env now
      [.malloc 1024 (mallocSramin b 1024 now).1,
        publishEvent now.mysock now.msgid now.retained (env.writeRc .answer)
          (recordText b env .answer (mallocSramin b 1024 now).1 700),
        .free (mallocSramin b 1024 now).1]
  | quiet (other : now.msgtypes ≠ 15) : Answers b env now []

theorem dispatch_answers {b : Board} {env : Env} {now : St} (empty : now.log = [])
    (running : now.halted = false) : Answers b env now (dispatch b env now).log := by
  have quiet : now.msgtypes ≠ 15 → Answers b env now now.log := by
    rw [empty]
    exact .quiet
  unfold dispatch
  split
  case h_1 type =>
    rw [connectCase_log, empty]
    exact .connect type
  case h_2 type =>
    rw [connackCase_log]
    exact quiet (by rw [type]; decide)
  case h_3 type =>
    rw [publishCase_log b env now running, empty]
    exact .publish type
  case h_6 type =>
    rw [pubrelCase_log, empty]
    exact .pubrel type
  case h_8 type =>
    rw [subscribeCase_log, empty]
    exact .subscribe type
  case h_10 type =>
    rw [pingreqCase_log, empty]
    exact .pingreq type
  case h_12 type =>
    rw [infoCase_log, empty]
    exact .info type
  case h_13 other => exact quiet other
  all_goals exact quiet (by simp [*])

theorem publishEvents_cases {b : Board} {env : Env} {now : St} {e : Event}
    (h : e ∈ .malloc 125 (payloadBlock b now) ::
      commandEvents (publishText b env now) now.usartsendbuf ++
      if has (publishText b env now) "reset" then []
      else .free (payloadIn b env now) ::
        pubackEvents env now.mysock (deserializePublish env now)) :
    e = .malloc 125 (payloadBlock b now) ∨ CommandEvent e ∨ e = .free (payloadIn b env now) ∨
      e ∈ pubackEvents env now.mysock (deserializePublish env now) := by
  simp only [List.cons_append, List.mem_cons, List.mem_append] at h
  rcases h with block | command | behind
  · exact Or.inl block
  · exact Or.inr (Or.inl (commandEvents_kind command))
  · split at behind
    · cases behind
    · exact Or.inr (Or.inr (List.mem_cons.mp behind))

theorem dispatch_events {b : Board} {env : Env} {now : St} (empty : now.log = [])
    (running : now.halted = false) : ∀ e ∈ (dispatch b env now).log, SwitchEvent b env now e := by
  have answers := @dispatch_answers b env now empty running
  generalize (dispatch b env now).log = es at answers ⊢
  cases answers with
  | connect type =>
    rw [List.forall_mem_singleton]
    exact Or.inl ⟨type, rfl⟩
  | publish type =>
    intro e he
    rcases publishEvents_cases he with rfl | command | rfl | puback
    · trivial
    · exact command.switchEvent
    · trivial
    · obtain ⟨packet, len, rc, rfl, ack⟩ := pubackEvents_kind puback
      exact switchPacket_ack (by simp [ack])
  | pubrel type =>
    rw [List.forall_mem_singleton, sentBytes_ack _ _ _ _ (by decide)]
    exact switchPacket_ack (by rw [packetType_header]; decide)
  | subscribe type =>
    have subscribe := packetType_subscribe now.buf buflen 0 now.msgid 1 b.deviceSubscribe
    have known : [0, msgSubscribe] ⊆ [0, msgPuback, msgPubrel, msgSubscribe, msgPingreq] := by decide
    rw [List.forall_mem_singleton]
    exact switchPacket_ack (known subscribe)
  | pingreq type =>
    have ping : SwitchPacket b now [header msgPingreq 0 0 0, 0] :=
      switchPacket_ack (by rw [packetType_header]; decide)
    rw [sentBytes_pingreq _ (by decide)]
    split
    · simpa [SwitchEvent] using ping
    · rename_i failed
      simpa [SwitchEvent, type, failed] using ping
  | info type =>
    obtain ⟨packet, len, event, publish⟩ := packetType_publishEvent now.mysock now.msgid now.retained
      (env.writeRc .answer) (recordText b env .answer (mallocSramin b 1024 now).1 700)
    have sent : SwitchPacket b now packet := Or.inr (Or.inl ⟨type, publish⟩)
    rw [event]
    simpa [SwitchEvent] using sent
  | quiet other => simp

def atSwitch (b : Board) (env : Env) (st : St) : St := { beforeSwitch b env st with log := [] }

theorem atSwitch_core (b : Board) (env : Env) (st : St) :
    (atSwitch b env st).core = { st.core with msgtypes := switchOn env st } :=
  beforeSwitch_core b env st

theorem atSwitch_msgtypes (b : Board) (env : Env) (st : St) :
    (atSwitch b env st).msgtypes = switchOn env st := congrArg Core.msgtypes (atSwitch_core b env st)

theorem atSwitch_running (b : Board) (env : Env) {st : St} (running : st.halted = false) :
    (atSwitch b env st).halted = false :=
  (congrArg Core.halted (atSwitch_core b env st)).trans running

theorem atSwitch_mysock (b : Board) (env : Env) (st : St) :
    (atSwitch b env st).mysock = st.mysock := congrArg Core.mysock (atSwitch_core b env st)

theorem atSwitch_usartsendbuf (b : Board) (env : Env) (st : St) :
    (atSwitch b env st).usartsendbuf = st.usartsendbuf :=
  congrArg Core.usartsendbuf (atSwitch_core b env st)

theorem afterSwitch_eq (b : Board) (env : Env) (st : St) :
    afterSwitch b env st = dispatch b env (atSwitch b env st) := rfl

theorem afterSwitch_inbox (b : Board) (env : Env) (st : St) :
    (afterSwitch b env st).inbox = inboxAtRead env st := by
  have types := atSwitch_msgtypes b env st
  have inbox : (atSwitch b env st).inbox = st.inbox := congrArg Core.inbox (atSwitch_core b env st)
  rw [afterSwitch_eq, inboxAtRead]
  by_cases ping : switchOn env st = msgPingreq
  · rw [dispatch_pingreq (types.trans ping), pingreqCase_eq]
    by_cases sent : env.writeRc .answer = 2
    · rw [if_pos sent, if_neg (fun reopen => reopen.2 sent)]
      simp only [sendPacket_inbox, inbox]
    · rw [if_neg sent, if_pos (show reopens env st from ⟨ping, sent⟩)]
  · rw [if_neg (fun reopen => ping reopen.1), ← inbox]
    by_cases connack : switchOn env st = msgConnack
    · rw [dispatch_connack (types.trans connack)]
      exact (connackCase_inbox env _).1
    · by_cases subscribe : switchOn env st = msgSubscribe
      · rw [dispatch_subscribe (types.trans subscribe)]
        exact (subscribeCase_inbox b env _).1
      · rw [← types] at ping connack subscribe
        exact congrArg Link.inbox (dispatch_link b env _ connack subscribe ping)

theorem afterSwitch_events (b : Board) (env : Env) {st : St} (running : st.halted = false) :
    ∀ e ∈ (afterSwitch b env st).log, SwitchEvent b env (atSwitch b env st) e :=
  dispatch_events rfl (atSwitch_running b env running)

theorem iteration_stopped (b : Board) (env : Env) {st : St} (stopped : st.halted = true) :
    iteration b env st = (⟨[], 0, [], none⟩, st) := by
  rw [iteration, if_pos stopped]

theorem iteration_halts {b : Board} {env : Env} {st : St} (running : st.halted = false)
    (halts : (afterSwitch b env st).halted = true) : iteration b env st =
      (⟨(beforeSwitch b env st).log, switchOn env st, (afterSwitch b env st).log, none⟩,
        afterSwitch b env st) := by
  rw [iteration, running, if_neg (by simp)]
  dsimp only
  rw [if_pos halts, ← atSwitch_msgtypes b env st]
  rfl

theorem iteration_reads {b : Board} {env : Env} {st : St} (running : st.halted = false)
    (goes : (afterSwitch b env st).halted = false) : iteration b env st =
      (⟨(beforeSwitch b env st).log, switchOn env st, (afterSwitch b env st).log,
          (receive env (afterSwitch b env st)).1⟩,
        (receive env (afterSwitch b env st)).2) := by
  rw [iteration, running, if_neg (by simp)]
  dsimp only
  rw [goes, if_neg (by simp), ← atSwitch_msgtypes b env st]
  rfl

theorem iteration_state {b : Board} {env : Env} {st : St} (running : st.halted = false) :
    (iteration b env st).2 =
      if (afterSwitch b env st).halted then afterSwitch b env st
      else (receive env (afterSwitch b env st)).2 := by
  cases goes : (afterSwitch b env st).halted with
  | true =>
    rw [iteration_halts running goes]
    rfl
  | false =>
    rw [iteration_reads running goes]
    rfl

theorem turn_events (b : Board) (env : Env) (st : St) : ∀ e ∈ (iteration b env st).1.events,
    ReportEvent st.core e ∨ SwitchEvent b env (atSwitch b env st) e ∨ ∃ buf, e = .received buf := by
  intro e he
  cases running : st.halted with
  | true => simp [iteration_stopped b env running, Round.events] at he
  | false =>
    have piece : e ∈ (beforeSwitch b env st).log ∨ e ∈ (afterSwitch b env st).log ∨
        ∃ buf, e = .received buf := by
      cases goes : (afterSwitch b env st).halted with
      | true =>
        rw [iteration_halts running goes] at he
        exact (by simpa [Round.events] using he : _ ∨ _).imp_right Or.inl
      | false =>
        rw [iteration_reads running goes] at he
        rcases List.mem_append.mp he with own | read
        · exact (List.mem_append.mp own).imp_right Or.inl
        · split at read
          · exact Or.inr (Or.inr ⟨_, List.mem_singleton.mp read⟩)
          · cases read
    exact piece.imp ((beforeSwitch_events b env st).1 e)
      (Or.imp_left (afterSwitch_events b env running e))

def turnRead (env : Env) (st : St) : Int × List UInt8 × List UInt8 :=
  mqttPacketRead env.delivery zeroBuf buflen (inboxAtRead env st)

theorem receive_quiet {b : Board} {env : Env} {st : St} (quiet : arriving env st ≤ 0) :
    receive env (afterSwitch b env st) = (none, { afterSwitch b env st with
      buf := (turnRead env st).2.1
      inbox := (turnRead env st).2.2 }) := by
  rw [receive_none (by rw [afterSwitch_inbox]; exact Int.not_lt.mpr quiet), afterSwitch_inbox]
  rfl

theorem receive_packet {b : Board} {env : Env} {st : St} (packet : 0 < arriving env st) :
    receive env (afterSwitch b env st) = (some (turnRead env st).2.1, { afterSwitch b env st with
      buf := (turnRead env st).2.1
      inbox := (turnRead env st).2.2
      msgtypes := packetType (turnRead env st).2.1 }) := by
  rw [receive_some (by rw [afterSwitch_inbox]; exact packet), afterSwitch_inbox]
  rfl

theorem arriving_type {env : Env} {st : St} (packet : 0 < arriving env st) :
    arriving env st = packetType (turnRead env st).2.1 ∧ (turnRead env st).2.1.length = buflen :=
  mqttPacketRead_got zeroBuf_length packet

theorem turn_answer (b : Board) (env : Env) {st : St} (running : st.halted = false) :
    (iteration b env st).1.answer = (afterSwitch b env st).log ∧
      (iteration b env st).1.dispatched = switchOn env st ∧
      ((iteration b env st).1.got = none →
        (iteration b env st).2.halted = (afterSwitch b env st).halted ∧
          (iteration b env st).2.msgtypes = (afterSwitch b env st).msgtypes) := by
  cases goes : (afterSwitch b env st).halted with
  | true =>
    rw [iteration_halts running goes]
    exact ⟨rfl, rfl, fun _ => ⟨goes, rfl⟩⟩
  | false =>
    rw [iteration_reads running goes]
    refine ⟨rfl, rfl, fun none => ?_⟩
    by_cases packet : 0 < arriving env st
    · rw [receive_packet packet] at none
      cases none
    · rw [receive_quiet (Int.not_lt.mp packet)]
      exact ⟨goes, rfl⟩

theorem connect_fits (b : Board) : mqttPacketLen (mqttSerializeConnectLength b.data) ≤ buflen := by
  have id := formatInt_length_le b.clientId
  have credential : ∀ readAddr, (readCredential b.chip readAddr).length ≤ 64 := fun readAddr => by
    have short := cstr_length_le (slice (w25qxxRead b.chip (fun _ => 0) readAddr 40) 0 64)
    rwa [slice_length] at short
  have username := credential 100
  have password := credential 200
  simp only [mqttSerializeConnectLength, Board.data, credentialLength, mqttPacketLen, buflen]
  split_ifs <;> omega

theorem switchOn_of_ne {env : Env} {st : St} (busy : st.msgtypes ≠ 0) :
    switchOn env st = st.msgtypes := by
  rw [switchOn, if_neg (fun due => busy due.2)]

theorem trace_concat (s : Start) (past : List Round) (r : Round) :
    trace s (past ++ [r]) = trace s past ++ r.events := by
  simp [trace]

theorem trace_stopped (b : Board) (s : Start) (past : List Round) (env : Env) {st : St}
    (stopped : st.halted = true) : trace s (past ++ [(iteration b env st).1]) = trace s past := by
  simp [trace_concat, iteration_stopped b env stopped, Round.events]

theorem trace_turn (b : Board) (s : Start) (past : List Round) (env : Env) {st : St}
    (running : st.halted = false) : trace s (past ++ [(iteration b env st).1]) =
      trace s past ++ ((beforeSwitch b env st).log ++ (afterSwitch b env st).log) ++
        (iteration b env st).1.got.toList.map Event.received := by
  rw [trace_concat]
  cases goes : (afterSwitch b env st).halted with
  | true => simp [iteration_halts running goes, Round.events]
  | false =>
    rw [iteration_reads running goes]
    cases (receive env (afterSwitch b env st)).1 <;> simp [Round.events]

def isOpened : Event → Bool
  | .opened _ _ => true
  | _ => false

def current (past : List Event) : List Event :=
  (past.reverse.takeWhile (fun e => !isOpened e)).reverse

def lastOpened (past : List Event) : Option Event := past.reverse.find? isOpened

theorem lastOpened_append {past es : List Event} (same : ∀ e ∈ es, isOpened e = false) :
    lastOpened (past ++ es) = lastOpened past := by
  have none : es.reverse.find? isOpened = none := by simpa using same
  rw [lastOpened, List.reverse_append, List.find?_append, none, Option.none_or]
  rfl

@[simp] theorem lastOpened_opened (past : List Event) (sock : Int) (stream : List UInt8) :
    lastOpened (past ++ [.opened sock stream]) = some (.opened sock stream) := by
  simp [lastOpened, isOpened]

theorem current_concat (past : List Event) (e : Event) :
    current (past ++ [e]) = if isOpened e then [] else current past ++ [e] := by
  cases opened : isOpened e <;> simp [current, opened]

theorem current_append {past es : List Event} (same : ∀ e ∈ es, isOpened e = false) :
    current (past ++ es) = current past ++ es := by
  induction es generalizing past with
  | nil => simp
  | cons e es ih =>
    have rest : current (past ++ [e] ++ es) = current (past ++ [e]) ++ es :=
      ih (fun f hf => same f (by simp [hf]))
    rw [current_concat, same e (by simp)] at rest
    simpa using rest

def pending (past : List Round) : Option (List UInt8) := past.getLast?.bind Round.got

@[simp] theorem pending_concat (past : List Round) (r : Round) : pending (past ++ [r]) = r.got := by
  simp [pending]

def Event.isInner : Event → Bool
  | .opened _ _ => false
  | .received _ => false
  | _ => true

theorem isOpened_inner {es : List Event} (inner : ∀ e ∈ es, e.isInner = true) :
    ∀ e ∈ es, isOpened e = false := by
  intro e he
  have kind := inner e he
  cases e <;> first | rfl | cases kind

theorem timed_inner (b : Board) (env : Env) (st : St) :
    ∀ e ∈ (beforeSwitch b env st).log, e.isInner = true := by
  intro e he
  have event := (beforeSwitch_events b env st).1 e he
  cases e <;> first | rfl | exact event.elim

theorem answer_inner {b : Board} {env : Env} {st : St} (running : st.halted = false)
    (stays : ¬ reopens env st) : ∀ e ∈ (afterSwitch b env st).log, e.isInner = true := by
  intro e he
  have event := afterSwitch_events b env running e he
  cases e with
  | opened sock stream =>
    have ping := event.1
    rw [atSwitch_msgtypes] at ping
    exact absurd ⟨ping, event.2.1⟩ stays
  | received buf => exact event.elim
  | _ => rfl

theorem answer_reopens (b : Board) {env : Env} {st : St} (reopen : reopens env st) :
    ∃ front, (afterSwitch b env st).log = front ++ [.opened env.sock env.stream] ∧
      ∀ e ∈ front, e.isInner = true := by
  rw [afterSwitch_eq, dispatch_pingreq ((atSwitch_msgtypes b env st).trans reopen.1),
    pingreqCase_log, if_neg reopen.2]
  refine ⟨[.sent (atSwitch b env st).mysock
      (sentBytes (mqttSerializePingreq (atSwitch b env st).buf buflen))
      (mqttSerializePingreq (atSwitch b env st).buf buflen).1 (env.writeRc .answer),
    .closed (atSwitch b env st).mysock], rfl, by simp [Event.isInner]⟩

def Holding (past : List Round) (st : St) : Prop :=
  ∀ buf, pending past = some buf → st.halted = false ∧ st.buf = buf ∧ buf.length = buflen ∧
    st.msgtypes = packetType buf ∧ packetType buf ≠ 0

theorem holding_nil (st : St) : Holding [] st := by simp [Holding, pending]

theorem turn_read {b : Board} {env : Env} {st : St} {buf : List UInt8}
    (got : (iteration b env st).1.got = some buf) :
    0 < arriving env st ∧ buf = (turnRead env st).2.1 ∧ (afterSwitch b env st).halted = false ∧
      (iteration b env st).2 = { afterSwitch b env st with
        buf := (turnRead env st).2.1
        inbox := (turnRead env st).2.2
        msgtypes := packetType (turnRead env st).2.1 } := by
  cases running : st.halted with
  | true => simp [iteration_stopped b env running] at got
  | false =>
    cases goes : (afterSwitch b env st).halted with
    | true => simp [iteration_halts running goes] at got
    | false =>
      rw [iteration_reads running goes] at got ⊢
      by_cases packet : 0 < arriving env st
      · rw [receive_packet packet] at got ⊢
        exact ⟨packet, (Option.some.inj got).symm, rfl, rfl⟩
      · rw [receive_quiet (Int.not_lt.mp packet)] at got
        cases got

theorem holding_step (b : Board) (past : List Round) (env : Env) (st : St) :
    Holding (past ++ [(iteration b env st).1]) (iteration b env st).2 := by
  intro buf got
  rw [pending_concat] at got
  obtain ⟨packet, rfl, goes, next⟩ := turn_read got
  obtain ⟨type, size⟩ := arriving_type packet
  rw [next]
  exact ⟨goes, rfl, size, rfl, by omega⟩

section Raised

variable (b : Board) (env : Env) (st : St)

def St.raised (st : St) : Bool × Bool := (st.doorFlag, st.fanWarn)

theorem eventReport_raised (site : Site) (message : String) :
    (eventReport b env site message st).raised = st.raised := by
  simp only [St.raised, eventReport, freeSramin, sendPublish, sendPacket, mallocSramin, St.emit]

theorem initReport_raised : (initReport b env st).raised = st.raised := by
  unfold initReport
  split
  · simp only [St.raised, freeSramin, sendPublish, sendPacket, mallocSramin, St.emit]
  · rfl

theorem mailReport_raised : (mailReport b env st).raised = st.raised := by
  unfold mailReport
  split
  · rfl
  · simp only [St.raised, freeSramin, sendPublish, sendPacket, St.emit]

theorem commands_raised (text : List UInt8) : (commands text st).raised = st.raised := by
  rw [commands_eq]
  rfl

theorem freeSramin_raised (ptr : Nat) : (freeSramin b ptr st).raised = st.raised := rfl

theorem sendPuback_raised : (sendPuback env st).raised = st.raised := by
  unfold sendPuback
  split <;> rfl

theorem publishCase_raised : (publishCase b env st).raised = st.raised := by
  unfold publishCase
  dsimp only
  split
  · rw [commands_raised]
    rfl
  · rw [sendPuback_raised, freeSramin_raised, commands_raised]
    rfl

theorem dispatch_raised : (dispatch b env st).raised = st.raised := by
  unfold dispatch
  split
  case h_1 => simp only [St.raised, connectCase, sendPacket, St.emit]
  case h_2 =>
    unfold connackCase
    dsimp only
    split <;> rfl
  case h_3 => exact publishCase_raised b env st
  case h_8 =>
    unfold subscribeCase
    dsimp only
    split_ifs <;> simp only [St.raised, sendPacket, St.emit]
  case h_10 =>
    rw [pingreqCase_eq]
    split <;> simp only [St.raised, sendPacket, St.emit]
  case h_12 =>
    simp only [St.raised, infoCase, freeSramin, sendPublish, sendPacket, mallocSramin, St.emit]
  all_goals rfl

theorem receive_raised : (receive env st).2.raised = st.raised := by
  unfold receive
  dsimp only
  split <;> rfl

theorem pingTimer_raised : (pingTimer env st).raised = st.raised := by
  unfold pingTimer
  split <;> rfl

end Raised

def blankBoard : Board where
  layout := mapLayout
  bufAddr := 0x10000000
  payloadOutAddr := 0x2001FF00
  clientId := 7
  nullText := []
  chip := ⟨fun _ => 0xFF, false⟩

def calm : Env where
  pingNow := 0
  pingSet := 0
  sendNow := 0
  sendSet := 0
  doorOpened := false
  fanSet := none
  mail := none
  flash := ⟨fun _ => 0xFF, false⟩
  heapText := fun _ => []
  stackTail := []
  writeRc := fun _ => 4
  sock := 0
  stream := []
  delivery := ⟨true, fun _ => true, buflen⟩

def startOn (stream : List UInt8) : Start where
  tick := 0
  buf := zeroBuf
  dup := 0
  qos := 0
  connackRc := 0
  usartsendbuf := []
  doorFlag := false
  fanWarn := false
  heap := ⟨fun _ => 0, true⟩
  sock := 0
  stream := stream

end BoxFirmware.MqttThread
