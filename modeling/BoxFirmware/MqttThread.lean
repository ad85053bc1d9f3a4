import BoxFirmware.GuardedRun
import BoxFirmware.Malloc
import BoxFirmware.MqttPacket
import BoxFirmware.W25qxx

/-! `mqtt_thread`, one turn of its loop at a time: the ping timer, the timed reports,
the `switch(msgtypes)` and the read of the next packet. A turn returns the round
it made: what it did before the switch, the value it switched on, what the switch
did, and the buffer of the packet it read. A write whose length is negative is
logged with no bytes: those it would send are not the thread's. Printing, the
sensors' readings and the stack check are left out, as is the granted QoS. -/
namespace BoxFirmware.MqttThread
open ByteMem CText Malloc MqttPacket W25qxx

/-- The places of the thread that write to the socket or take a heap block. -/
inductive Site
  | door | fan | init | mail | answer
  deriving DecidableEq

inductive Event
  | opened (sock : Int) (stream : List UInt8)
  | closed (sock : Int)
  | sent (sock : Int) (packet : List UInt8) (len rc : Int)
  | received (buf : List UInt8)
  | malloc (size ptr : Nat)
  | free (ptr : Nat)
  | uart (text : List UInt8)
  | mode (value : Nat)
  | restar
  | reset
  deriving DecidableEq

/-- What stays the same: the pools' addresses, the address of the stack buffer and of
`_payload_out`, the word at `CLIENT_ID`, the text at address 0, and the flash as the
thread finds it when it starts. -/
structure Board where
  layout : Layout
  bufAddr : Nat
  payloadOutAddr : Nat
  clientId : Nat
  nullText : List UInt8
  chip : Chip

/-- What one turn meets: the four values of `OSTimeGet`, the other tasks' door and fan
flags and mail, the flash, the memory behind and in fresh heap blocks and behind the stack
buffer, the results of the writes, a new connection and its bytes, and the delivery. -/
structure Env where
  pingNow : UInt32
  pingSet : UInt32
  sendNow : UInt32
  sendSet : UInt32
  doorOpened : Bool
  fanSet : Option Bool
  mail : Option (List UInt8)
  flash : Chip
  heapText : Site → List UInt8
  stackTail : List UInt8
  writeRc : Site → Int
  sock : Int
  stream : List UInt8
  delivery : Delivery

structure St where
  curtick : UInt32
  sendtick : UInt32
  buf : List UInt8
  mysock : Int
  msgid : Nat
  dup : Nat
  qos : Nat
  retained : Nat
  connackRc : Nat
  connectFlag : Bool
  msgtypes : Nat
  t : Nat
  ti : Bool
  usartsendbuf : List UInt8
  doorFlag : Bool
  fanWarn : Bool
  heap : Pool
  inbox : List UInt8
  halted : Bool
  log : List Event

def buflen : Nat := 1024
def devicePublish : List UInt8 := ascii "process_queue"
def publishReqQos : Nat := 2

def St.emit (st : St) (es : List Event) : St := { st with log := st.log ++ es }

def zeroBuf : List UInt8 := List.replicate buflen 0

/-- `rdfromflash_regist_buf` and `rdfromflash_query_buf`, read into zeroed arrays. -/
def readCredential (chip : Chip) (readAddr : Nat) : List UInt8 :=
  cstr (slice (w25qxxRead chip (fun _ => 0) readAddr 40) 0 64)

def Board.deviceSubscribe (b : Board) : List UInt8 := ascii "box_" ++ formatInt b.clientId

def Board.data (b : Board) : ConnectData :=
  { mqttVersion := 4
    clientID := formatInt b.clientId
    keepAliveInterval := 60
    cleansession := 1
    username := some (readCredential b.chip 100)
    password := some (readCredential b.chip 200) }

/-- `transport_sendPacketBuffer` of what a serializer made. -/
def sendPacket (env : Env) (site : Site) (r : Int × List UInt8) (st : St) : St :=
  { st.emit [.sent st.mysock (sentBytes r) r.1 (env.writeRc site)] with buf := r.2 }

def sendPublish (env : Env) (site : Site) (payload : List UInt8) (st : St) : St :=
  sendPacket env site
    (mqttSerializePublish st.buf buflen 0 publishReqQos st.retained st.msgid devicePublish payload)
    st

def mallocSramin (b : Board) (size : Nat) (st : St) : Nat × St :=
  let r := mymalloc b.layout .sramin st.heap size
  (r.1, { st.emit [.malloc size r.1] with heap := r.2 })

def freeSramin (b : Board) (ptr : Nat) (st : St) : St :=
  { st.emit [.free ptr] with heap := myfree b.layout .sramin st.heap ptr }

section TimedReports

def pingTimer (env : Env) (st : St) : St :=
  if env.pingNow - st.curtick > 60 * 200 ∧ st.msgtypes = 0 then
    { st with curtick := env.pingSet, msgtypes := msgPingreq }
  else st

def eventText (b : Board) (message : String) : List UInt8 :=
  ascii "\x7b\"messageType\":\"event\",\"deviceNo\":" ++ formatInt b.clientId ++
    ascii ",\"chnl\":-1,\"eventCode\":0,\"eventMessage\":\"" ++ ascii message ++ ascii "\"\x7d"

def eventReport (b : Board) (env : Env) (site : Site) (message : String) (st : St) : St :=
  let r := mallocSramin b 256 st
  let st := sendPublish env site (if r.1 = 0 then b.nullText else eventText b message) r.2
  { freeSramin b r.1 st with buf := zeroBuf }

def doorReport (b : Board) (env : Env) (st : St) : St :=
  if st.doorFlag then
    { eventReport b env .door "open the door" st with doorFlag := false }
  else st

def fanReport (b : Board) (env : Env) (st : St) : St :=
  if st.fanWarn then
    { eventReport b env .fan "fan is not work" st with fanWarn := false }
  else st

def recordText (b : Board) (env : Env) (site : Site) (rdbuf n : Nat) : List UInt8 :=
  if rdbuf = 0 then b.nullText
  else cstr (slice (w25qxxRead env.flash (fun _ => 0) 0x1010 n) 0 n ++ env.heapText site)

def initReport (b : Board) (env : Env) (st : St) : St :=
  if st.ti then
    let r := mallocSramin b 1024 st
    let st := sendPublish env .init (recordText b env .init r.1 1024) r.2
    { freeSramin b r.1 st with ti := false, buf := zeroBuf }
  else st

def mailReport (b : Board) (env : Env) (st : St) : St :=
  match env.mail with
  | none => st
  | some payloadOut => freeSramin b b.payloadOutAddr (sendPublish env .mail (cstr payloadOut) st)

def timedReports (b : Board) (env : Env) (st : St) : St :=
  if st.connectFlag ∧ env.sendNow - st.sendtick ≥ 10 * 200 then
    let st := { st.emit [.uart (ascii "displaynew\r\n")] with sendtick := env.sendSet }
    mailReport b env (initReport b env (fanReport b env (doorReport b env st)))
  else st

end TimedReports

section Commands

def has (text : List UInt8) (word : String) : Bool := strstr text (ascii word)

/-- The outlets by the number in `"position"`. -/
def positions : List (String × String) :=
  [("\"position\":\"0\"", "220v_ch1"), ("\"position\":\"1\"", "220v_ch4"),
    ("\"position\":\"2\"", "24v_ch1"), ("\"position\":\"3\"", "24v_ch2"),
    ("\"position\":\"4\"", "12v_ch1"), ("\"position\":\"5\"", "12v_ch2"),
    ("\"position\":\"6\"", "5v_ch"), ("\"position\":\"7\"", "9v_ch")]

/-- The eight `if`s on the position, each of which may rewrite the text. -/
def switchText (text usartsendbuf : List UInt8) : List UInt8 :=
  positions.foldl (fun line (position, outlet) =>
    if has text position then
      (if has text "\"state\":\"1\"" then ascii "open " else ascii "close ") ++
        ascii outlet ++ ascii "\r\n"
    else line) usartsendbuf

def switchCommand (text : List UInt8) (st : St) : St :=
  if has text "switch" then
    { st.emit [.uart (switchText text st.usartsendbuf), .mode 3] with
      usartsendbuf := []
      msgtypes := 0 }
  else st

def infoCommand (text : List UInt8) (st : St) : St :=
  if has text "info" then { st with msgtypes := 15 } else st

def setModeCommand (text : List UInt8) (st : St) : St :=
  if has text "setMode" then
    { st.emit [.mode (if has text "operation" then 1 else 0)] with msgtypes := 0 }
  else st

def restartCommand (text : List UInt8) (st : St) : St :=
  if has text "restart" then { st.emit [.restar] with msgtypes := 0 } else st

def sendPuback (env : Env) (st : St) : St :=
  if st.qos = 1 then
    sendPacket env .answer (mqttSerializeAck zeroBuf buflen msgPuback st.dup st.msgid) st
  else st

def bufMem (env : Env) (st : St) : Mem := ofList (st.buf ++ env.stackTail)

def payloadText (b : Board) (env : Env) (st : St) (block : Nat) : Option Nat → List UInt8
  | some offset => cstr ((st.buf ++ env.stackTail).drop offset)
  | none => if block = 0 then b.nullText else cstr (env.heapText .answer)

def deserializePublish (env : Env) (st : St) : PublishVars :=
  (mqttDeserializePublish ⟨st.dup, st.qos, st.retained, st.msgid, none, 0⟩ (bufMem env st)).2

def takeVars (vars : PublishVars) (st : St) : St :=
  { st with
    dup := vars.dup
    qos := vars.qos
    retained := vars.retained
    msgid := vars.packetid }

/-- The keyword tests of a payload. After `reset` the processor restarts. -/
def commands (text : List UInt8) (st : St) : St :=
  let st := switchCommand text st
  if has text "reset" then { st.emit [.reset] with halted := true }
  else restartCommand text (setModeCommand text (infoCommand text st))

/-- `payload_in` before the packet is read. -/
def payloadBlock (b : Board) (st : St) : Nat := (mallocSramin b 125 st).1

def publishText (b : Board) (env : Env) (st : St) : List UInt8 :=
  payloadText b env st (payloadBlock b st) (deserializePublish env st).payload

/-- `payload_in` at the end: the pointer to the block of 125 bytes is lost once it points
into the buffer. -/
def payloadIn (b : Board) (env : Env) (st : St) : Nat :=
  match (deserializePublish env st).payload with
  | some offset => b.bufAddr + offset
  | none => payloadBlock b st

def publishCase (b : Board) (env : Env) (st : St) : St :=
  let arrived := takeVars (deserializePublish env st) (mallocSramin b 125 st).2
  let obeyed := commands (publishText b env st) arrived
  if obeyed.halted then obeyed else sendPuback env (freeSramin b (payloadIn b env st) obeyed)

end Commands

section Switch

def connectCase (b : Board) (env : Env) (st : St) : St :=
  { sendPacket env .answer (mqttSerializeConnect st.buf buflen b.data) st with msgtypes := 0 }

def connackCase (env : Env) (st : St) : St :=
  let r := mqttDeserializeConnack (bufMem env st)
  let st := { st with connackRc := r.2.getD st.connackRc }
  if r.1 ≠ 1 ∨ st.connackRc ≠ 0 then { st with msgtypes := msgConnect }
  else { st with connectFlag := true, msgtypes := msgSubscribe }

def subscribeCase (b : Board) (env : Env) (st : St) : St :=
  let r := mqttSerializeSubscribe st.buf buflen 0 st.msgid b.deviceSubscribe 1
  let st := sendPacket env .answer r st
  if env.writeRc .answer = r.1 then { st with msgtypes := 0 }
  else
    let t := (st.t + 1) % 256
    if t ≥ 10 then { st with t := 0, msgtypes := msgConnect }
    else { st with t := t, msgtypes := msgSubscribe }

def infoCase (b : Board) (env : Env) (st : St) : St :=
  let r := mallocSramin b 1024 st
  let st := sendPublish env .answer (recordText b env .answer r.1 700) r.2
  { freeSramin b r.1 st with ti := false, msgtypes := 0 }

def pubrelCase (env : Env) (st : St) : St :=
  { sendPacket env .answer (mqttSerializeAck zeroBuf buflen msgPubrel st.dup st.msgid) st with
    msgtypes := 0 }

def pingreqCase (env : Env) (st : St) : St :=
  let r := mqttSerializePingreq st.buf buflen
  let st := sendPacket env .answer r st
  if env.writeRc .answer = r.1 then { st with msgtypes := 0 }
  else
    { st.emit [.closed st.mysock, .opened env.sock env.stream] with
      connectFlag := false
      mysock := env.sock
      inbox := if env.sock < 0 then [] else env.stream
      msgtypes := msgConnect }

def dispatch (b : Board) (env : Env) (st : St) : St :=
  match st.msgtypes with
  | 1 => connectCase b env st
  | 2 => connackCase env st
  | 3 => publishCase b env st
  | 4 => { st with msgtypes := 0 }
  | 5 => { st with msgtypes := msgPubrel }
  | 6 => pubrelCase env st
  | 7 => { st with msgtypes := 0 }
  | 8 => subscribeCase b env st
  | 9 => { st with msgtypes := 0 }
  | 12 => pingreqCase env st
  | 13 => { st with msgtypes := 0 }
  | 15 => infoCase b env st
  | _ => st

end Switch

def receive (env : Env) (st : St) : Option (List UInt8) × St :=
  let r := mqttPacketRead env.delivery zeroBuf buflen st.inbox
  let st := { st with buf := r.2.1, inbox := r.2.2 }
  if r.1 > 0 then (some r.2.1, { st with msgtypes := r.1.toNat }) else (none, st)

structure Round where
  timed : List Event
  dispatched : Nat
  answer : List Event
  got : Option (List UInt8)

def Round.events (r : Round) : List Event :=
  r.timed ++ r.answer ++ match r.got with
    | some buf => [.received buf]
    | none => []

def wake (env : Env) (st : St) : St :=
  pingTimer env { st with
    doorFlag := st.doorFlag || env.doorOpened
    fanWarn := env.fanSet.getD st.fanWarn
    log := [] }

def beforeSwitch (b : Board) (env : Env) (st : St) : St := timedReports b env (wake env st)

def afterSwitch (b : Board) (env : Env) (st : St) : St :=
  dispatch b env { beforeSwitch b env st with log := [] }

def iteration (b : Board) (env : Env) (st : St) : Round × St :=
  if st.halted then (⟨[], 0, [], none⟩, st)
  else
    let before := beforeSwitch b env st
    let after := afterSwitch b env st
    if after.halted then (⟨before.log, before.msgtypes, after.log, none⟩, after)
    else
      let r := receive env after
      (⟨before.log, before.msgtypes, after.log, r.1⟩, r.2)

/-- What the thread starts on: uninitialized locals, the heap, the flags of the other
tasks, and its first connection. -/
structure Start where
  tick : UInt32
  buf : List UInt8
  dup : Nat
  qos : Nat
  connackRc : Nat
  usartsendbuf : List UInt8
  doorFlag : Bool
  fanWarn : Bool
  heap : Pool
  sock : Int
  stream : List UInt8

def mqttThread (s : Start) : St :=
  { curtick := s.tick
    sendtick := s.tick
    buf := s.buf
    mysock := s.sock
    msgid := 1
    dup := s.dup
    qos := s.qos
    retained := 0
    connackRc := s.connackRc
    connectFlag := false
    msgtypes := msgConnect
    t := 0
    ti := true
    usartsendbuf := s.usartsendbuf
    doorFlag := s.doorFlag
    fanWarn := s.fanWarn
    heap := s.heap
    inbox := if s.sock < 0 then [] else s.stream
    halted := false
    log := [] }

def rounds (b : Board) (s : Start) (envs : List Env) : List Round :=
  GuardedRun.outputs (iteration b) envs (mqttThread s)

def trace (s : Start) (past : List Round) : List Event :=
  .opened s.sock s.stream :: past.flatMap Round.events

end BoxFirmware.MqttThread
