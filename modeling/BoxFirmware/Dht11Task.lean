import BoxFirmware.CText
import BoxFirmware.MqttThread
import BoxFirmware.Usart

/-! `dht11_task` of `main.c` between the receiver of USART3 and the timed publish of
`mqtt_thread`. A label is one step of one of them: an interrupt, a step of the task that
reads or writes one byte, a step of the poll, a write of `mode` by another task, or the
tick that ends the poll's wait. The GPS fix and the readings come with the task's step
as texts. -/
namespace BoxFirmware.Dht11Task
open ByteMem CText MqttPacket MqttThread OsMbox Usart

def payloadOutSize : Nat := 516

/-- The three `sprintf` calls, in their order. -/
inductive Form
  | timing1
  | timing0
  | feedback
  deriving DecidableEq

/-- The value of `mode` that each call is made for. -/
def Form.mode : Form → Nat
  | .timing1 => 1
  | .timing0 => 0
  | .feedback => 3

def Form.messageType : Form → String
  | .timing1 => "state_timing"
  | .timing0 => "state_timing"
  | .feedback => "state_feedback"

def Form.workState : Form → String
  | .timing1 => "1"
  | .timing0 => "0"
  | .feedback => "0"

/-- What a step of the task finds outside: the text for `TIME_BUF` once the GPS data is
useful, and the two readings as `%0.1f` prints them. -/
structure Readings where
  gps : Option (List UInt8)
  temperature : List UInt8
  humidity : List UInt8

def payloadHead (clientId : Nat) (form : Form) (timeBuf : List UInt8) (r : Readings) :
    List UInt8 :=
  ascii "\x7b\"messageType\":\"" ++ ascii form.messageType ++ ascii "\",\"deviceNo\":" ++
    formatInt clientId ++ ascii ",\"time\":\"" ++ cstr timeBuf ++
    ascii "\",\"CurrentTemperature\":" ++ cstr r.temperature ++ ascii ",\"RelativeHumidity\":" ++
    cstr r.humidity ++ ascii ",\"workState\":" ++ ascii form.workState ++ ascii ",\"chnls\":"

/-- Where the task is. An index `i` counts bytes of `USART3_RX_BUF`, and `k` bytes of
`_payload_out`. -/
inductive Pc
  | pend
  | blocked
  | scan (i : Nat) (text : List UInt8)
  | rearm
  | waitGps
  | test (form : Form)
  | head (form : Form) (k : Nat) (rest : List UInt8)
  | chnls (form : Form) (k i : Nat)
  | tail (form : Form) (k : Nat) (rest : List UInt8)
  | copy (i : Nat)
  | rearmEvent
  | clear (delays i : Nat)
  | post (delays : Nat)
  | delay (delays : Nat)
  deriving DecidableEq

inductive Poll
  | idle
  | pending
  | measure (i : Nat)
  | serialize (len : Nat) (text : List UInt8)
  | send (text : List UInt8)
  deriving DecidableEq

structure Post where
  copied : Option (List UInt8)
  text : List UInt8
  deriving DecidableEq

/-- The shared variables, where the two threads are, and what has happened: the bytes
since the last reset of the receiver, the frames it completed, the text copied last, the
posts, and the payloads published. -/
structure St where
  rx : Rx
  boxMsg : OsEvent Unit
  pc : Pc
  mode : Nat
  timeBuf : List UInt8
  payloadOut : Mem
  boxTiming : OsEvent Unit
  poll : Poll
  since : List UInt8
  frames : List (List UInt8)
  copied : Option (List UInt8)
  posts : List Post
  published : List (List UInt8)

@[irreducible] def payloadText (payloadOut : Mem) : List UInt8 :=
  cstr (slice payloadOut 0 payloadOutSize)

theorem payloadText_eq (payloadOut : Mem) :
    payloadText payloadOut = cstr (slice payloadOut 0 payloadOutSize) := by
  unfold payloadText
  rfl

def usartStep (dr : Option UInt8) (s : St) : St :=
  let r := usart3IrqHandler dr ⟨s.rx, s.boxMsg⟩
  { s with
    rx := r.2.rx
    boxMsg := r.2.boxMsg
    since := received dr r.1 s.since
    -- the last byte since the reset is the 0x0D
    frames := if r.1 = .completed then s.frames ++ [s.since.dropLast] else s.frames }

def resetSta (s : St) : St := { s with rx := { s.rx with sta := 0 }, since := [] }

def putPayload (k : Nat) (b : UInt8) (s : St) : St :=
  { s with payloadOut := Function.update s.payloadOut k b }

def Form.next : Form → Pc
  | .timing1 => .test .timing0
  | .timing0 => .test .feedback
  | .feedback => .clear 2 0

def pendStep (s : St) : St :=
  let r := osMboxPend s.boxMsg
  { s with boxMsg := r.2, pc := if r.1.isSome then .scan 0 [] else .blocked }

def blockedStep (s : St) : St :=
  if s.boxMsg.pend = .woken (some ()) then
    { s with boxMsg := { s.boxMsg with pend := .idle }, pc := .scan 0 [] }
  else s

def scanStep (i : Nat) (text : List UInt8) (s : St) : St :=
  if s.rx.buf i ≠ 0 then { s with pc := .scan (i + 1) (text ++ [s.rx.buf i]) }
  else { s with pc := if strstr text (ascii "event") then .copy 0 else .rearm }

def waitGpsStep (r : Readings) (s : St) : St :=
  match r.gps with
  | none => s
  | some time => { s with timeBuf := time, pc := .test .timing1 }

def testStep (clientId : Nat) (r : Readings) (form : Form) (s : St) : St :=
  if s.mode = form.mode then
    { s with
      mode := if form = .feedback then 0 else s.mode
      pc := .head form 0 (payloadHead clientId form s.timeBuf r) }
  else { s with pc := form.next }

def headStep (form : Form) (k : Nat) (rest : List UInt8) (s : St) : St :=
  match rest with
  | b :: rest => { putPayload k b s with pc := .head form (k + 1) rest }
  | [] => { s with copied := some [], pc := .chnls form k 0 }

/-- The `%s` of `ss`, byte by byte. -/
def chnlsStep (form : Form) (k i : Nat) (s : St) : St :=
  if s.rx.buf i ≠ 0 then
    { putPayload k (s.rx.buf i) s with
      copied := some (s.copied.getD [] ++ [s.rx.buf i])
      pc := .chnls form (k + 1) (i + 1) }
  else { s with pc := .tail form k (ascii "\x7d" ++ [0]) }

def tailStep (form : Form) (k : Nat) (rest : List UInt8) (s : St) : St :=
  match rest with
  | b :: rest => { putPayload k b s with pc := .tail form (k + 1) rest }
  | [] => { s with pc := form.next }

def copyStep (i : Nat) (s : St) : St :=
  if i < payloadOutSize then { putPayload i (s.rx.buf i) s with pc := .copy (i + 1) }
  else { s with copied := some (payloadText s.payloadOut), pc := .rearmEvent }

def clearStep (delays i : Nat) (s : St) : St :=
  if i < usart3RecLen.toNat then
    { s with rx := { s.rx with buf := Function.update s.rx.buf i 0 }, pc := .clear delays (i + 1) }
  else { s with pc := .post delays }

/-- `OSMboxPost(BOX_TIMING_PTR, _payload_out)`, whose error is not looked at. -/
def postStep (delays : Nat) (s : St) : St :=
  { s with
    boxTiming := (osMboxPost s.boxTiming ()).2
    posts := s.posts ++ [⟨s.copied, payloadText s.payloadOut⟩]
    pc := .delay delays }

def delayStep (delays : Nat) (s : St) : St :=
  { s with pc := if delays = 0 then .pend else .delay (delays - 1) }

def dht11Task (clientId : Nat) (r : Readings) (s : St) : St :=
  match s.pc with
  | .pend => pendStep s
  | .blocked => blockedStep s
  | .scan i text => scanStep i text s
  | .rearm => { resetSta s with pc := .waitGps }
  | .waitGps => waitGpsStep r s
  | .test form => testStep clientId r form s
  | .head form k rest => headStep form k rest s
  | .chnls form k i => chnlsStep form k i s
  | .tail form k rest => tailStep form k rest s
  | .copy i => copyStep i s
  | .rearmEvent => { resetSta s with pc := .clear 1 0 }
  | .clear delays i => clearStep delays i s
  | .post delays => postStep delays s
  | .delay delays => delayStep delays s

/-- The check of `MQTTSerialize_publish`. -/
def publishFits (len : Nat) : Bool := mqttPacketLen (2 + devicePublish.length + len + 2) ≤ buflen

def publishLen (text : List UInt8) : Int :=
  (mqttSerializePublish zeroBuf buflen 0 publishReqQos 0 1 devicePublish text).1

/-- The timed publish of `mqtt_thread`: the pend with its timeout of one tick, `strlen`, the
copy into the packet, and the write with its result. -/
def pollStep (rc : Int) (s : St) : St :=
  match s.poll with
  | .idle =>
    let r := osMboxPend s.boxTiming
    { s with boxTiming := r.2, poll := if r.1.isSome then .measure 0 else .pending }
  | .pending =>
    match s.boxTiming.pend with
    | .woken pmsg =>
      { s with
        boxTiming := { s.boxTiming with pend := .idle }
        poll := if pmsg.isSome then .measure 0 else .idle }
    | _ => s
  | .measure i =>
    if s.payloadOut i ≠ 0 then { s with poll := .measure (i + 1) }
    else { s with poll := if publishFits i then .serialize i [] else .idle }
  | .serialize len text =>
    if text.length < len then
      { s with poll := .serialize len (text ++ [s.payloadOut text.length]) }
    else { s with poll := .send text }
  | .send text =>
    { s with
      published := if rc = publishLen text then s.published ++ [text] else s.published
      poll := .idle }

inductive Label
  | usart (dr : Option UInt8)
  | task (r : Readings)
  | setMode (value : Nat)
  | poll (rc : Int)
  | tick

def step (clientId : Nat) : Label → St → St
  | .usart dr, s => usartStep dr s
  | .task r, s => dht11Task clientId r s
  | .setMode value, s => { s with mode := value }
  | .poll rc, s => pollStep rc s
  | .tick, s => { s with boxTiming := osTimeout s.boxTiming }

/-- The task's first pend: the receiver has been reset, over a buffer that still holds what
`main` read from it, and the mailboxes are new. -/
def start (buf : Mem) (mode : Nat) : St where
  rx := ⟨0, buf⟩
  boxMsg := osMboxCreate
  pc := .pend
  mode := mode
  timeBuf := []
  payloadOut := fun _ => 0
  boxTiming := osMboxCreate
  poll := .idle
  since := []
  frames := []
  copied := none
  posts := []
  published := []

end BoxFirmware.Dht11Task
