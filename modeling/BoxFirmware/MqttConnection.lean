import BoxFirmware.MqttTurn

/-! What `mqtt_thread` sends on a connection, and when: CONNECT first and once, and
nothing that needs a session before the broker has accepted one. `msgtypes` is at
once the type of the last packet and the thread's own next step, so this holds
while no packet of the broker names a step of the thread. -/
namespace BoxFirmware.MqttConnection
open ByteMem CText GuardedRun MqttPacket MqttThread W25qxx

def openSock (past : List Event) : Int :=
  match lastOpened past with
  | some (.opened sock _) => sock
  | _ => -1

def accepts (buf : List UInt8) : Bool := mqttDeserializeConnack (ofList buf) = (1, some 0)

def isAccepted : Event → Bool
  | .received buf => accepts buf
  | _ => false

def used (past : List Event) : Bool := (current past).any Event.isSent

def accepted (past : List Event) : Bool := (current past).any isAccepted

/-- On an open socket a packet is a CONNECT exactly when it is the first of its connection,
and SUBSCRIBE, PUBLISH and PINGREQ follow an accepting CONNACK on it. -/
def Orderly (past : List Event) : Event → Prop
  | .sent sock packet _ _ => 0 ≤ sock →
    (packetType packet = msgConnect ↔ used past = false) ∧
      (packetType packet ∈ [msgPublish, msgSubscribe, msgPingreq] → accepted past = true)
  | _ => True

instance (past : List Event) : (e : Event) → Decidable (Orderly past e)
  | .sent _ _ _ _ => inferInstanceAs (Decidable (_ → _))
  | .opened _ _ | .closed _ | .received _ | .malloc _ _ | .free _ | .uart _ | .mode _ | .restar
  | .reset => inferInstanceAs (Decidable True)

def clientTypes : List Nat := [msgConnect, msgSubscribe, 10, msgPingreq, 14, 15]

/-- The switch sends nothing for a packet of a client's type. -/
def Unanswered (past : List Round) (r : Round) : Prop :=
  ∀ buf, pending past = some buf → packetType buf ∈ clientTypes →
    r.answer.any Event.isSent = false

/-- A turn that finds an open connection unused sends its CONNECT. -/
def Prompt (s : Start) (past : List Round) (r : Round) : Prop :=
  0 ≤ openSock (trace s past) → used (trace s past) = false →
    ∃ packet len rc, .sent (openSock (trace s past)) packet len rc ∈ r.answer ∧
      packetType packet = msgConnect

theorem used_append {past es : List Event} (same : ∀ e ∈ es, isOpened e = false) :
    used (past ++ es) = (used past || es.any Event.isSent) := by
  rw [used, current_append same, List.any_append]
  rfl

theorem accepted_append {past es : List Event} (same : ∀ e ∈ es, isOpened e = false) :
    accepted (past ++ es) = (accepted past || es.any isAccepted) := by
  rw [accepted, current_append same, List.any_append]
  rfl

theorem openSock_append {past es : List Event} (same : ∀ e ∈ es, isOpened e = false) :
    openSock (past ++ es) = openSock past := by
  rw [openSock, lastOpened_append same]
  rfl

theorem used_opened (past : List Event) (sock : Int) (stream : List UInt8) :
    used (past ++ [.opened sock stream]) = false := by
  rw [used, current_concat]
  rfl

structure Ready (log : List Event) (st : St) : Prop where
  orderly : Justified Orderly log
  flag : st.connectFlag = true → accepted log = true
  fresh : 0 ≤ st.mysock → (st.msgtypes = msgConnect ↔ used log = false)
  conn : st.msgtypes = msgConnect → st.connectFlag = false
  sock : openSock log = st.mysock

def Allowed (st : St) : Event → Prop
  | .sent sock packet _ _ => sock = st.mysock ∧ packetType packet ≠ msgConnect ∧
    (packetType packet ∈ [msgPublish, msgSubscribe, msgPingreq] →
      st.connectFlag = true ∨ st.mysock < 0)
  | .opened _ _ => False
  | _ => True

theorem Allowed.notOpened {st : St} {e : Event} (allowed : Allowed st e) : isOpened e = false := by
  cases e <;> first | rfl | exact allowed.elim

theorem Ready.extend {log es : List Event} {st st' : St} (ready : Ready log st)
    (started : st.msgtypes ≠ msgConnect) (next : st'.msgtypes ≠ msgConnect)
    (sock : st'.mysock = st.mysock) (flag : st'.connectFlag = st.connectFlag)
    (allowed : ∀ e ∈ es, Allowed st e) : Ready (log ++ es) st' := by
  have same : ∀ e ∈ es, isOpened e = false := fun e he => (allowed e he).notOpened
  have inUse : 0 ≤ st.mysock → used log = true := by
    intro online
    have fresh := ready.fresh online
    simpa [started] using fresh
  refine ⟨?_, ?_, ?_, fun type => absurd type next, ?_⟩
  · refine justified_extend ready.orderly (fun front e back split => ?_)
    have member : e ∈ es := by simp [split]
    have sameFront : ∀ f ∈ front, isOpened f = false := fun f hf => same f (by simp [split, hf])
    have event := allowed e member
    cases e with
    | sent s packet len rc =>
      intro online
      rw [event.1] at online
      rw [used_append sameFront, accepted_append sameFront, inUse online]
      refine ⟨by simp [event.2.1], fun session => ?_⟩
      rcases event.2.2 session with connected | offline
      · rw [ready.flag connected]
        rfl
      · omega
    | _ => trivial
  · intro connected
    rw [flag] at connected
    rw [accepted_append same, ready.flag connected]
    rfl
  · intro online
    rw [sock] at online
    rw [used_append same, inUse online]
    simp [next]
  · rw [openSock_append same, ready.sock, sock]

/-- The thread meets only what its own steps expect: a ping is due and `info` is answered
only while connected, a CONNACK accepts and is still in the buffer, SUBSCRIBE does not fail
for the tenth time, and the broker sends no packet of a client's type that is a step of the
thread, nor any packet before the CONNECT of a new connection. -/
def Polite (b : Board) (_ : List Round) (env : Env) (st : St) : Prop :=
  st.halted = false →
    (switchOn env st = msgPingreq → st.connectFlag = true ∨ st.mysock < 0) ∧
    (st.msgtypes = msgConnack → accepts st.buf = true ∧ reportCount env st = 0) ∧
    (st.msgtypes = msgSubscribe →
      env.writeRc .answer = (mqttSerializeSubscribe st.buf buflen 0 st.msgid b.deviceSubscribe 1).1
        ∨ (st.t + 1) % 256 < 10) ∧
    (st.msgtypes = 15 → st.connectFlag = true ∨ st.mysock < 0) ∧
    arriving env st ∉ [1, 8, 12, 15] ∧
    (reopens env st → arriving env st ≤ 0)

instance (b : Board) (past : List Round) (env : Env) (st : St) :
    Decidable (Polite b past env st) :=
  inferInstanceAs (Decidable (_ → _))

theorem allowed_publish (st : St) (sock : Int) (msgid retained : Nat) (rc : Int)
    (payload : List UInt8) (own : sock = st.mysock)
    (session : st.connectFlag = true ∨ st.mysock < 0) :
    Allowed st (publishEvent sock msgid retained rc payload) := by
  obtain ⟨packet, len, event, type⟩ := packetType_publishEvent sock msgid retained rc payload
  rw [event]
  refine ⟨own, ?_, fun _ => session⟩
  intro connect
  rw [connect] at type
  simp [msgConnect, msgPublish] at type

theorem ready_atSwitch {b : Board} {env : Env} {st : St} {log : List Event} (ready : Ready log st) :
    Ready (log ++ (beforeSwitch b env st).log) (atSwitch b env st) := by
  have core := atSwitch_core b env st
  have sock : (atSwitch b env st).mysock = st.mysock := congrArg Core.mysock core
  have flag : (atSwitch b env st).connectFlag = st.connectFlag := congrArg Core.connectFlag core
  have types : (atSwitch b env st).msgtypes = switchOn env st := congrArg Core.msgtypes core
  have own : st.msgtypes = msgConnect ↔ switchOn env st = msgConnect := by
    rw [switchOn]
    split
    · rename_i due
      simp [due.2, msgConnect, msgPingreq]
    · rfl
  by_cases started : st.msgtypes = msgConnect
  · have none : (beforeSwitch b env st).log = [] := by
      rw [beforeSwitch_unconnected b env st (ready.conn started)]
      exact (wake_flags env st).2.2.2.2.2.2
    rw [none, List.append_nil]
    refine ⟨ready.orderly, ?_, ?_, ?_, ready.sock.trans sock.symm⟩
    · rw [flag]
      exact ready.flag
    · rw [sock, types, ← own]
      exact ready.fresh
    · rw [types, flag, ← own]
      exact ready.conn
  · refine ready.extend started ?_ sock flag ?_
    · rw [types, Ne, ← own]
      exact started
    · intro e he
      have event := (beforeSwitch_events b env st).1 e he
      have connected : st.connectFlag = true := by
        by_contra off
        rw [beforeSwitch_unconnected b env st (by simpa using off),
          (wake_flags env st).2.2.2.2.2.2] at he
        cases he
      cases e with
      | sent s packet len rc =>
        obtain ⟨payload, same⟩ := event
        rw [same]
        exact allowed_publish st _ _ _ _ _ rfl (Or.inl connected)
      | uart _ => trivial
      | malloc _ _ => trivial
      | free _ => trivial
      | _ => exact event.elim

/-- Behind the switch the thread's own next steps are in order too. -/
structure Settled (env : Env) (now : St) (log : List Event) (st : St) : Prop where
  ready : Ready log st
  reopened : st.msgtypes = msgConnect → now.msgtypes = msgPingreq ∧ env.writeRc .answer ≠ 2
  subscribe : st.msgtypes = msgSubscribe → st.connectFlag = true
  own : st.msgtypes ≠ msgConnack ∧ st.msgtypes ≠ msgPingreq
  stopped : st.halted = true → st.msgtypes ≠ msgConnect

theorem deserializeConnack_bufMem (env : Env) (st : St) (room : 8 ≤ st.buf.length) :
    mqttDeserializeConnack (bufMem env st) = mqttDeserializeConnack (ofList st.buf) := by
  refine deserializeConnack_congr (fun i hi => ?_)
  simp only [bufMem, ofList, List.getD_eq_getElem?_getD]
  rw [List.getElem?_append_left (by omega)]

theorem connackCase_accepts (env : Env) (st : St) (room : 8 ≤ st.buf.length)
    (ok : accepts st.buf = true) : connackCase env st =
      { st with connackRc := 0, connectFlag := true, msgtypes := msgSubscribe } := by
  have decoded : mqttDeserializeConnack (ofList st.buf) = (1, some 0) := by
    simpa [accepts] using ok
  unfold connackCase
  rw [deserializeConnack_bufMem env st room, decoded]
  simp

theorem allowed_command {st : St} {e : Event} (kind : CommandEvent e) : Allowed st e := by
  cases e <;> trivial

theorem commandNext_publish (text : List UInt8) : commandNext text msgPublish ∈ [0, msgPublish, 15] := by
  unfold commandNext
  split_ifs <;> simp

theorem settled_connect {b : Board} {env : Env} {now : St} {log : List Event} (ready : Ready log now)
    (empty : now.log = []) (running : now.halted = false) (type : now.msgtypes = msgConnect) :
    Settled env now (log ++ (connectCase b env now).log) (connectCase b env now) := by
  have connect := sentBytes_connect now.buf b.data (connect_fits b)
  have next : (connectCase b env now).msgtypes = 0 ∧ (connectCase b env now).mysock = now.mysock ∧
      (connectCase b env now).connectFlag = now.connectFlag ∧
      (connectCase b env now).halted = now.halted := ⟨rfl, rfl, rfl, rfl⟩
  obtain ⟨types, sock, flag, halted⟩ := next
  rw [connectCase_log, empty, List.nil_append]
  refine ⟨⟨?_, ?_, ?_, ?_, ?_⟩, ?_, ?_, ?_, ?_⟩
  · rw [justified_concat]
    refine ⟨ready.orderly, fun online => ⟨?_, fun session => ?_⟩⟩
    · simp [connect, (ready.fresh online).mp type]
    · rw [connect] at session
      simp [msgConnect, msgPublish, msgSubscribe, msgPingreq] at session
  · rw [flag, ready.conn type]
    simp
  · intro _
    rw [types, used_append (by simp [isOpened])]
    simp [msgConnect, Event.isSent]
  · rw [types]
    simp [msgConnect]
  · rw [openSock_append (by simp [isOpened]), ready.sock, sock]
  · simp [types, msgConnect]
  · rw [types]
    simp [msgSubscribe]
  · simp [types]
  · rw [halted, running]
    simp

theorem settled_extend {env : Env} {now next : St} {log : List Event} (ready : Ready log now)
    (started : now.msgtypes ≠ msgConnect) (link : next.link = now.link)
    (types : next.msgtypes ∉ [msgConnect, msgConnack, msgSubscribe, msgPingreq])
    (allowed : ∀ e ∈ next.log, Allowed now e) : Settled env now (log ++ next.log) next := by
  simp only [List.mem_cons, List.not_mem_nil, or_false, not_or] at types
  obtain ⟨connect, connack, subscribe, pingreq⟩ := types
  exact ⟨ready.extend started connect (congrArg Link.mysock link) (congrArg Link.connectFlag link)
    allowed, fun type => absurd type connect, fun type => absurd type subscribe,
    ⟨connack, pingreq⟩, fun _ => connect⟩

theorem settled_publish {b : Board} {env : Env} {now : St} {log : List Event} (ready : Ready log now)
    (empty : now.log = []) (running : now.halted = false) (type : now.msgtypes = msgPublish) :
    Settled env now (log ++ (publishCase b env now).log) (publishCase b env now) := by
  have types : (publishCase b env now).msgtypes ∈ [0, msgPublish, 15] := by
    have next := commandNext_publish (publishText b env now)
    cases resets : has (publishText b env now) "reset" with
    | false =>
      rw [publishCase_eq b env now running resets, type]
      exact next
    | true =>
      rw [publishCase_reset b env now resets, type]
      exact next
  refine settled_extend ready (by rw [type]; decide) (publishCase_link b env now) ?_ ?_
  · simp only [List.mem_cons, List.not_mem_nil, or_false] at types
    rcases types with next | next | next <;> rw [next] <;> decide
  · intro e he
    rw [publishCase_log b env now running, empty, List.nil_append] at he
    rcases publishEvents_cases he with rfl | command | rfl | puback
    · trivial
    · exact allowed_command command
    · trivial
    · obtain ⟨packet, len, rc, rfl, ack⟩ := pubackEvents_kind puback
      refine ⟨rfl, ?_, ?_⟩ <;> rw [ack] <;>
        simp [msgPuback, msgConnect, msgPublish, msgSubscribe, msgPingreq]

theorem settled_subscribe {b : Board} {env : Env} {now : St} {log : List Event}
    (ready : Ready log now) (empty : now.log = []) (type : now.msgtypes = msgSubscribe)
    (connected : now.connectFlag = true)
    (sent : env.writeRc .answer =
        (mqttSerializeSubscribe now.buf buflen 0 now.msgid b.deviceSubscribe 1).1 ∨
      (now.t + 1) % 256 < 10) :
    Settled env now (log ++ (subscribeCase b env now).log) (subscribeCase b env now) := by
  have packet := packetType_subscribe now.buf buflen 0 now.msgid 1 b.deviceSubscribe
  have types : (subscribeCase b env now).msgtypes ∈ [0, msgSubscribe] := by
    unfold subscribeCase
    dsimp only
    split_ifs with whole last
    · exact List.mem_cons_self
    · exact absurd (sent.resolve_left whole) (by simpa [sendPacket, St.emit] using last)
    · exact List.mem_cons_of_mem _ List.mem_cons_self
  have sock := (subscribeCase_inbox b env now).2
  have flag : (subscribeCase b env now).connectFlag = now.connectFlag := by
    unfold subscribeCase
    dsimp only
    split_ifs <;> rfl
  simp only [List.mem_cons, List.not_mem_nil, or_false] at types
  have next : (subscribeCase b env now).msgtypes ≠ msgConnect := by
    rcases types with next | next <;> rw [next] <;> decide
  refine ⟨ready.extend (by rw [type]; decide) next sock flag ?_, fun type => absurd type next,
    fun _ => flag.trans connected, ?_, fun _ => next⟩
  · rw [subscribeCase_log, empty, List.nil_append]
    intro e he
    rw [List.mem_singleton] at he
    rw [he]
    refine ⟨rfl, ?_, fun _ => Or.inl connected⟩
    intro connect
    rw [connect] at packet
    simp [msgConnect, msgSubscribe] at packet
  · rcases types with next | next <;> rw [next] <;> decide

theorem settled_info {b : Board} {env : Env} {now : St} {log : List Event} (ready : Ready log now)
    (empty : now.log = []) (type : now.msgtypes = 15)
    (session : now.connectFlag = true ∨ now.mysock < 0) :
    Settled env now (log ++ (infoCase b env now).log) (infoCase b env now) := by
  have link : (infoCase b env now).link = now.link := by
    rw [← dispatch_info type]
    exact dispatch_link b env now (by rw [type]; decide) (by rw [type]; decide) (by rw [type]; decide)
  refine settled_extend ready (by rw [type]; decide) link (by simp [infoCase]) ?_
  intro e he
  rw [infoCase_log, empty, List.nil_append] at he
  simp only [List.mem_cons, List.not_mem_nil, or_false] at he
  rcases he with rfl | rfl | rfl
  · trivial
  · exact allowed_publish now _ _ _ _ _ rfl session
  · trivial

theorem settled_pubrel {env : Env} {now : St} {log : List Event} (ready : Ready log now)
    (empty : now.log = []) (type : now.msgtypes = msgPubrel) :
    Settled env now (log ++ (pubrelCase env now).log) (pubrelCase env now) := by
  refine settled_extend ready (by rw [type]; decide) rfl (by simp [pubrelCase]) ?_
  intro e he
  rw [pubrelCase_log, empty, List.nil_append, List.mem_singleton] at he
  rw [he]
  refine ⟨rfl, ?_, ?_⟩ <;> rw [sentBytes_ack _ _ _ _ (by decide), packetType_header] <;>
    simp [msgPubrel, msgConnect, msgPublish, msgSubscribe, msgPingreq]

theorem ready_opened {log : List Event} {st : St} (orderly : Justified Orderly log)
    (sock : Int) (stream : List UInt8) (own : st.mysock = sock) (type : st.msgtypes = msgConnect)
    (flag : st.connectFlag = false) : Ready (log ++ [.opened sock stream]) st := by
  refine ⟨(justified_concat _ _).mpr ⟨orderly, trivial⟩, ?_, ?_, fun _ => flag, ?_⟩
  · simp [flag]
  · intro _
    simp [type, used_opened]
  · rw [own, openSock, lastOpened_opened]

theorem settled_pingreq {env : Env} {now : St} {log : List Event} (ready : Ready log now)
    (empty : now.log = []) (running : now.halted = false) (type : now.msgtypes = msgPingreq)
    (session : now.connectFlag = true ∨ now.mysock < 0) :
    Settled env now (log ++ (pingreqCase env now).log) (pingreqCase env now) := by
  have ping : ∀ e ∈ [Event.sent now.mysock (sentBytes (mqttSerializePingreq now.buf buflen))
      (mqttSerializePingreq now.buf buflen).1 (env.writeRc .answer), .closed now.mysock],
      Allowed now e := by
    intro e he
    simp only [List.mem_cons, List.not_mem_nil, or_false] at he
    rcases he with rfl | rfl
    · refine ⟨rfl, ?_, fun _ => session⟩
      rw [sentBytes_pingreq _ (by decide), packetType_header]
      simp [msgPingreq, msgConnect]
    · trivial
  rw [pingreqCase_eq]
  by_cases sent : env.writeRc .answer = 2
  · rw [if_pos sent]
    refine settled_extend ready (by rw [type]; decide) rfl (by simp) ?_
    intro e he
    simp only [sendPacket, St.emit, empty, List.nil_append, List.mem_singleton] at he
    exact ping e (by simp [he])
  · rw [if_neg sent]
    simp only [sendPacket, St.emit, empty, List.nil_append]
    -- the closed connection is in order, and the new one has no packet yet
    have before := (ready.extend (by rw [type]; decide) (by rw [type]; decide) rfl rfl ping).orderly
    have after : Ready _ { now with
        connectFlag := false
        mysock := env.sock
        msgtypes := msgConnect } := ready_opened before env.sock env.stream rfl rfl rfl
    simp only [List.append_assoc, List.cons_append, List.nil_append] at after
    refine ⟨⟨after.orderly, by simp, fun online => ?_, by simp, after.sock⟩, fun _ => ⟨type, sent⟩,
      ?_, ?_, ?_⟩
    · exact after.fresh online
    · simp [msgConnect, msgSubscribe]
    · simp [msgConnect, msgConnack, msgPingreq]
    · simp [running]

theorem settled_connack {env : Env} {now : St} {log : List Event} (ready : Ready log now)
    (empty : now.log = []) (running : now.halted = false) (type : now.msgtypes = msgConnack)
    (room : 8 ≤ now.buf.length) (ok : accepts now.buf = true) (accepting : accepted log = true) :
    Settled env now (log ++ (connackCase env now).log) (connackCase env now) := by
  rw [connackCase_accepts env now room ok]
  simp only [empty, List.append_nil]
  refine ⟨⟨ready.orderly, fun _ => accepting, fun online => ?_, ?_, ready.sock⟩, ?_, fun _ => rfl,
    ?_, ?_⟩
  · have fresh := ready.fresh online
    rw [type] at fresh
    simpa [msgConnack, msgSubscribe, msgConnect] using fresh
  · simp [msgSubscribe, msgConnect]
  · simp [msgSubscribe, msgConnect]
  · simp [msgSubscribe, msgConnack, msgPingreq]
  · simp [running]

theorem settled_dispatch {b : Board} {env : Env} {now : St} {log : List Event} (ready : Ready log now)
    (empty : now.log = []) (running : now.halted = false)
    (pingreq : now.msgtypes = msgPingreq → now.connectFlag = true ∨ now.mysock < 0)
    (info : now.msgtypes = 15 → now.connectFlag = true ∨ now.mysock < 0)
    (connack : now.msgtypes = msgConnack →
      8 ≤ now.buf.length ∧ accepts now.buf = true ∧ accepted log = true)
    (subscribe : now.msgtypes = msgSubscribe → now.connectFlag = true ∧
      (env.writeRc .answer =
          (mqttSerializeSubscribe now.buf buflen 0 now.msgid b.deviceSubscribe 1).1 ∨
        (now.t + 1) % 256 < 10)) :
    Settled env now (log ++ (dispatch b env now).log) (dispatch b env now) := by
  have silent : ∀ next : St, next.link = now.link → next.log = [] →
      next.msgtypes ∉ [msgConnect, msgConnack, msgSubscribe, msgPingreq] →
      now.msgtypes ≠ msgConnect → Settled env now (log ++ next.log) next :=
    fun next link none types started =>
      settled_extend ready started link types (by rw [none]; exact fun e he => nomatch he)
  unfold dispatch
  split
  case h_1 type => exact settled_connect ready empty running type
  case h_2 type =>
    obtain ⟨room, ok, accepting⟩ := connack type
    exact settled_connack ready empty running type room ok accepting
  case h_3 type => exact settled_publish ready empty running type
  case h_6 type => exact settled_pubrel ready empty type
  case h_8 type => exact settled_subscribe ready empty type (subscribe type).1 (subscribe type).2
  case h_10 type => exact settled_pingreq ready empty running type (pingreq type)
  case h_12 type => exact settled_info ready empty type (info type)
  case h_13 connect connack _ _ _ _ _ subscribe _ pingreq _ _ =>
    exact silent now rfl empty (by simpa using ⟨connect, connack, subscribe, pingreq⟩) connect
  all_goals
    rename_i type
    exact silent _ rfl empty (by simp [msgConnect, msgConnack, msgSubscribe, msgPingreq, msgPubrel])
      (by rw [type]; decide)

structure Inv (s : Start) (past : List Round) (st : St) : Prop where
  ready : Ready (trace s past) st
  subscribe : st.msgtypes = msgSubscribe → st.connectFlag = true
  pingreq : st.msgtypes ≠ msgPingreq
  connack : st.msgtypes = msgConnack →
    st.buf.length = buflen ∧ (accepts st.buf = true → accepted (trace s past) = true)
  stopped : st.halted = true → st.msgtypes ≠ msgConnect
  got : ∀ buf, pending past = some buf →
    st.msgtypes = packetType buf ∧ packetType buf ∉ [1, 8, 12, 15]

theorem inv_start (s : Start) : Inv s [] (mqttThread s) := by
  have ready : Ready (trace s []) (mqttThread s) :=
    ready_opened justified_nil s.sock s.stream rfl rfl rfl
  exact ⟨ready, by simp [mqttThread, msgConnect, msgSubscribe],
    by simp [mqttThread, msgConnect, msgPingreq], by simp [mqttThread, msgConnect, msgConnack],
    by simp [mqttThread], by simp [pending]⟩

theorem settled_afterSwitch {b : Board} {s : Start} {past : List Round} {env : Env} {st : St}
    (inv : Inv s past st) (running : st.halted = false) (polite : Polite b past env st) :
    Settled env (atSwitch b env st)
      (trace s past ++ (beforeSwitch b env st).log ++ (afterSwitch b env st).log)
      (afterSwitch b env st) := by
  obtain ⟨ping, connack, subscribe, info, -, -⟩ := polite running
  have core := atSwitch_core b env st
  have flag : (atSwitch b env st).connectFlag = st.connectFlag := congrArg Core.connectFlag core
  have sock : (atSwitch b env st).mysock = st.mysock := congrArg Core.mysock core
  have msgid : (atSwitch b env st).msgid = st.msgid := congrArg Core.msgid core
  have tries : (atSwitch b env st).t = st.t := congrArg Core.t core
  have types := atSwitch_msgtypes b env st
  have own : ∀ k, k ≠ msgPingreq → switchOn env st = k → st.msgtypes = k := by
    intro k other on
    rw [switchOn] at on
    split at on
    · exact absurd on.symm other
    · exact on
  have unsent := beforeSwitch_events b env st
  rw [afterSwitch_eq]
  refine settled_dispatch (ready_atSwitch inv.ready) rfl ?_ ?_ ?_ ?_ ?_
  · exact atSwitch_running b env running
  · rw [types, flag, sock]
    exact ping
  · rw [types, flag, sock]
    exact fun on => info (own 15 (by decide) on)
  · intro on
    have before := own msgConnack (by decide) (types.symm.trans on)
    obtain ⟨ok, idle⟩ := connack before
    obtain ⟨size, accepting⟩ := inv.connack before
    have buf : (atSwitch b env st).buf = st.buf := (beforeSwitch_idle b env st idle).1
    rw [buf]
    refine ⟨by rw [size]; decide, ok, ?_⟩
    rw [accepted_append, accepting ok]
    · rfl
    · intro e he
      have event := unsent.1 e he
      cases e <;> first | rfl | exact event.elim
  · intro on
    have before := own msgSubscribe (by decide) (types.symm.trans on)
    rw [flag, msgid, tries, mqttSerializeSubscribe, serialized_fst]
    have sent := subscribe before
    rw [mqttSerializeSubscribe, serialized_fst] at sent
    exact ⟨inv.subscribe before, sent⟩

theorem inv_receive {b : Board} {s : Start} {past : List Round} {env : Env} {st : St}
    (running : st.halted = false) (polite : Polite b past env st)
    (settled : Settled env (atSwitch b env st)
      (trace s past ++ (beforeSwitch b env st).log ++ (afterSwitch b env st).log)
      (afterSwitch b env st))
    (goes : (afterSwitch b env st).halted = false) :
    Inv s (past ++ [(iteration b env st).1]) (iteration b env st).2 := by
  obtain ⟨-, -, -, -, arrives, reopened⟩ := polite running
  rw [iteration_reads running goes]
  by_cases packet : 0 < arriving env st
  · obtain ⟨type, size⟩ := arriving_type packet
    have stays : ¬ reopens env st := fun reopen => by
      have := reopened reopen
      omega
    have started : (afterSwitch b env st).msgtypes ≠ msgConnect := fun connect => by
      have opened := settled.reopened connect
      rw [atSwitch_msgtypes] at opened
      exact stays opened
    rw [type] at arrives
    simp only [List.mem_cons, List.not_mem_nil, or_false, not_or] at arrives
    have connect : packetType (turnRead env st).2.1 ≠ msgConnect := fun same => by simp [same] at arrives
    have subscribe : packetType (turnRead env st).2.1 ≠ msgSubscribe := fun same => by
      simp [same] at arrives
    have pingreq : packetType (turnRead env st).2.1 ≠ msgPingreq := fun same => by
      simp [same] at arrives
    rw [receive_packet packet]
    refine ⟨?_, fun same => absurd same subscribe, pingreq, fun _ => ⟨size, fun ok => ?_⟩,
      fun _ => connect, ?_⟩
    · rw [trace_concat]
      simp only [Round.events, ← List.append_assoc]
      exact settled.ready.extend started connect rfl rfl (by simp [Allowed])
    · rw [trace_concat]
      simp only [Round.events, ← List.append_assoc]
      rw [accepted_append (by simp [isOpened])]
      simp [isAccepted, ok]
    · intro buf got
      rw [pending_concat] at got
      rw [← Option.some.inj got]
      refine ⟨rfl, ?_⟩
      simp only [List.mem_cons, List.not_mem_nil, or_false, not_or]
      exact ⟨connect, subscribe, pingreq, fun same => by simp [same] at arrives⟩
  · rw [receive_quiet (Int.not_lt.mp packet)]
    have ready : Ready (trace s past ++ (beforeSwitch b env st).log ++ (afterSwitch b env st).log)
        { afterSwitch b env st with
          buf := (turnRead env st).2.1
          inbox := (turnRead env st).2.2 } :=
      ⟨settled.ready.orderly, settled.ready.flag, settled.ready.fresh, settled.ready.conn,
        settled.ready.sock⟩
    refine ⟨?_, settled.subscribe, settled.own.2, fun same => absurd same settled.own.1,
      settled.stopped, ?_⟩
    · rw [trace_concat]
      simp only [Round.events, ← List.append_assoc, List.append_nil]
      exact ready
    · simp

theorem inv_step {b : Board} {s : Start} (past : List Round) (env : Env) (st : St)
    (polite : Polite b past env st) (inv : Inv s past st) :
    Inv s (past ++ [(iteration b env st).1]) (iteration b env st).2 := by
  cases running : st.halted with
  | true =>
    have same := trace_stopped b s past env running
    rw [iteration_stopped b env running] at same ⊢
    refine ⟨same ▸ inv.ready, inv.subscribe, inv.pingreq, same ▸ inv.connack, inv.stopped, ?_⟩
    simp
  | false =>
    have settled := settled_afterSwitch inv running polite
    cases goes : (afterSwitch b env st).halted with
    | false => exact inv_receive running polite settled goes
    | true =>
      rw [iteration_halts running goes]
      refine ⟨?_, settled.subscribe, settled.own.2, fun same => absurd same settled.own.1,
        settled.stopped, by simp⟩
      rw [trace_concat]
      simp only [Round.events, ← List.append_assoc, List.append_nil]
      exact settled.ready

/-- The types that only a client sends start no case that sends, once the three that are
steps of the thread are gone. -/
theorem dispatch_silent {b : Board} {env : Env} {now : St} (empty : now.log = [])
    (type : now.msgtypes ∈ [10, 14]) : (dispatch b env now).log = [] := by
  simp only [List.mem_cons, List.not_mem_nil, or_false] at type
  rcases type with type | type <;> simp only [dispatch, type, empty]

theorem turn_prompt {b : Board} {s : Start} (past : List Round) (env : Env) (st : St)
    (inv : Inv s past st) : Prompt s past (iteration b env st).1 := by
  intro online unused
  rw [inv.ready.sock] at online ⊢
  have type := (inv.ready.fresh online).mpr unused
  have running : st.halted = false := Bool.eq_false_iff.mpr (fun halted => inv.stopped halted type)
  have sock := atSwitch_mysock b env st
  have on : (atSwitch b env st).msgtypes = msgConnect := by
    rw [atSwitch_msgtypes, switchOn_of_ne (by rw [type]; decide), type]
  rw [(turn_answer b env running).1, afterSwitch_eq, dispatch_connect on, connectCase_log, ← sock]
  refine ⟨_, (mqttSerializeConnect (atSwitch b env st).buf buflen b.data).1, env.writeRc .answer, ?_,
    sentBytes_connect (atSwitch b env st).buf b.data (connect_fits b)⟩
  exact List.mem_append_right _ List.mem_cons_self

theorem turn_unanswered {b : Board} {s : Start} (past : List Round) (env : Env) (st : St)
    (inv : Inv s past st) : Unanswered past (iteration b env st).1 := by
  intro buf got client
  obtain ⟨type, foreign⟩ := inv.got buf got
  cases running : st.halted with
  | true =>
    rw [iteration_stopped b env running]
    rfl
  | false =>
    have other : packetType buf ∈ [10, 14] := by
      simp only [clientTypes, msgConnect, msgSubscribe, msgPingreq, List.mem_cons,
        List.not_mem_nil, or_false] at client foreign ⊢
      omega
    have on : (atSwitch b env st).msgtypes = packetType buf := by
      rw [atSwitch_msgtypes, switchOn_of_ne, type]
      intro zero
      rw [← type, zero] at other
      simp at other
    have silent : (afterSwitch b env st).log = [] := dispatch_silent rfl (by rw [← on] at other; exact other)
    rw [(turn_answer b env running).1, silent]
    rfl

/-- Polite brokers meet an orderly thread. -/
theorem connection_orderly (b : Board) (s : Start) (envs : List Env)
    (polite : Guarded (iteration b) (Polite b) [] envs (mqttThread s)) :
    Justified Orderly (trace s (rounds b s envs)) ∧ Justified (Prompt s) (rounds b s envs) ∧
      Justified Unanswered (rounds b s envs) := by
  refine ⟨?_, ?_, ?_⟩
  · have inv := history_invariant inv_step polite (inv_start s)
    exact inv.ready.orderly
  · exact justified_outputs inv_step (fun past env st _ inv => turn_prompt past env st inv) polite
      (inv_start s) justified_nil
  · exact justified_outputs inv_step (fun past env st _ inv => turn_unanswered past env st inv) polite
      (inv_start s) justified_nil

theorem connection_orderly_session :
    Guarded (iteration blankBoard) (Polite blankBoard) [] (List.replicate 4 calm)
        (mqttThread (startOn [0x20, 2, 0, 0, 0x90, 3, 0, 1, 1])) ∧
      Justified Orderly (trace (startOn [0x20, 2, 0, 0, 0x90, 3, 0, 1, 1])
        (rounds blankBoard (startOn [0x20, 2, 0, 0, 0x90, 3, 0, 1, 1]) (List.replicate 4 calm))) := by
  have polite : Guarded (iteration blankBoard) (Polite blankBoard) [] (List.replicate 4 calm)
      (mqttThread (startOn [0x20, 2, 0, 0, 0x90, 3, 0, 1, 1])) := by decide +kernel
  exact ⟨polite, (connection_orderly blankBoard _ _ polite).1⟩

/-- A broker that sends the two bytes of an empty CONNECT makes the thread connect again. -/
theorem connection_disorderly :
    ¬ ∀ (b : Board) (s : Start) (envs : List Env),
      Justified Orderly (trace s (rounds b s envs)) ∧ Justified (Prompt s) (rounds b s envs) ∧
        Justified Unanswered (rounds b s envs) := by
  intro orderly
  have twice : ¬ Justified Orderly (trace (startOn [0x10, 0])
      (rounds blankBoard (startOn [0x10, 0]) [calm, calm])) := by decide +kernel
  exact twice (orderly blankBoard (startOn [0x10, 0]) [calm, calm]).1

end BoxFirmware.MqttConnection
