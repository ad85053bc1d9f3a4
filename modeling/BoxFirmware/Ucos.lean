import BoxFirmware.BitTable
import BoxFirmware.GuardedRun

/-! The kernel of `os_core.c`, `os_sem.c`, `os_mbox.c`, `os_q.c`, `os_task.c` and
`os_time.c`, as far as the firmware calls it, under tasks and interrupts in any order. A
step is one critical section; a context switch is the PendSV exception that a section has
requested. The tasks and events all exist, a task is known by its priority, and the flags
of `os_cfg.h` decide which checks are compiled. -/
namespace BoxFirmware.Ucos
open BitTable GuardedRun

def osErrNone : Nat := 0
def osErrEventType : Nat := 1
def osErrPendIsr : Nat := 2
def osErrTimeout : Nat := 10
def osErrPendLocked : Nat := 13
def osErrPendAbort : Nat := 14
def osErrMboxFull : Nat := 20
def osErrQFull : Nat := 30
def osErrSemOvf : Nat := 51
def osErrTaskNotSuspended : Nat := 68
def osErrTaskResumePrio : Nat := 70
def osErrTaskSuspendPrio : Nat := 72

/-- The rows of `OSUnMapTbl` differ in their first entry only. -/
def unMapRow (first : Fin 8) : List (Fin 8) := [first, 0, 1, 0, 2, 0, 1, 0, 3, 0, 1, 0, 2, 0, 1, 0]

def osUnMapTbl (b : UInt8) : Fin 8 :=
  ([0, 4, 5, 4, 6, 4, 5, 4, 7, 4, 5, 4, 6, 4, 5, 4].flatMap unMapRow).getD b.toNat 0

theorem osUnMapTbl_lowest : Lowest osUnMapTbl := by
  have all : ∀ n : Fin 256, (UInt8.ofFin n ≠ 0 → bit (UInt8.ofFin n) (osUnMapTbl (UInt8.ofFin n)) = true) ∧
      ∀ i, bit (UInt8.ofFin n) i = true → osUnMapTbl (UInt8.ofFin n) ≤ i := by decide +kernel
  exact ⟨fun b => (all b.toFin).1, fun b => (all b.toFin).2⟩

inductive Kind
  | sem
  | mbox
  | q
  deriving DecidableEq

@[ext] structure Stat where
  sem : Bool
  mbox : Bool
  q : Bool
  suspend : Bool
  deriving DecidableEq

def osStatRdy : Stat := ⟨false, false, false, false⟩

def Stat.pendAny (stat : Stat) : Bool := stat.sem || stat.mbox || stat.q

def Stat.has (stat : Stat) : Kind → Bool
  | .sem => stat.sem
  | .mbox => stat.mbox
  | .q => stat.q

def Stat.set (stat : Stat) : Kind → Stat
  | .sem => { stat with sem := true }
  | .mbox => { stat with mbox := true }
  | .q => { stat with q := true }

def Stat.clear (stat : Stat) : Kind → Stat
  | .sem => { stat with sem := false }
  | .mbox => { stat with mbox := false }
  | .q => { stat with q := false }

def Stat.clearAny (stat : Stat) : Stat := ⟨false, false, false, stat.suspend⟩

inductive StatPend
  | pendOk
  | pendTo
  | pendAbort
  deriving DecidableEq

structure OsTcb (ε α : Type) where
  osTCBStat : Stat
  osTCBStatPend : StatPend
  osTCBDly : Nat
  osTCBEventPtr : Option ε
  osTCBMsg : Option α

inductive Body (α : Type)
  | sem (osEventCnt : Nat)
  | mbox (osEventPtr : Option α)
  | q (osqSize : Nat) (osqEntries : List α)

structure OsEvent (α : Type) where
  body : Body α
  /-- `OSEventGrp` and `OSEventTbl` -/
  wait : Table

/-- Behind its call of `OS_Sched` a task returns, or goes on with a pend. -/
inductive After (ε : Type)
  | ret
  | pended (kind : Kind) (pevent : ε)

/-- Where a task is: in its own code, before a call of `OS_Sched`, or in a pend behind it. -/
inductive Pc (ε : Type)
  | code
  | sched (next : After ε)
  | pended (kind : Kind) (pevent : ε)

def After.pc {ε : Type} : After ε → Pc ε
  | .ret => .code
  | .pended kind pevent => .pended kind pevent

/-- An interrupt handler: whether it calls `OSIntEnter`, the tasks that its `OSTimeTick` has
not come to, and whether a call of `OS_Sched` is next. -/
structure Frame where
  counted : Bool
  tick : List (Fin 64)
  sched : Bool

/-- What the calls return, and who is handed a message. -/
inductive Ev (ε α : Type)
  | posted (pevent : ε) (pmsg : Option α) (err : Nat)
  | given (pevent : ε) (prio : Fin 64) (pmsg : Option α)
  | returned (pevent : ε) (prio : Fin 64) (err : Nat) (pmsg : Option α)
  | suspended (prio : Fin 64) (err : Nat)
  | resumed (prio : Fin 64) (err : Nat)

structure St (ε α : Type) where
  /-- `OSRdyGrp` and `OSRdyTbl` -/
  osRdy : Table
  /-- the entry of `OSTCBPrioTbl` is set -/
  made : Fin 64 → Bool
  tcb : Fin 64 → OsTcb ε α
  pc : Fin 64 → Pc ε
  osEvent : ε → OsEvent α
  osPrioCur : Fin 64
  osPrioHighRdy : Fin 64
  osLockNesting : Nat
  osIntNesting : Nat
  pendSV : Bool
  isr : List Frame
  osTCBList : List (Fin 64)
  log : List (Ev ε α)

def osTaskIdlePrio : Fin 64 := 63

namespace Body

variable {α : Type}

def kind : Body α → Kind
  | .sem _ => .sem
  | .mbox _ => .mbox
  | .q _ _ => .q

/-- What a pend finds there: a message, or the `NULL` of a semaphore. -/
def take : Body α → Option (Option α × Body α)
  | .sem osEventCnt => if osEventCnt > 0 then some (none, .sem (osEventCnt - 1)) else none
  | .mbox none => none
  | .mbox (some pmsg) => some (some pmsg, .mbox none)
  | .q _ [] => none
  | .q osqSize (pmsg :: rest) => some (some pmsg, .q osqSize rest)

/-- What a post does when no task waits; a message that is not `NULL` for a mailbox or queue. -/
def put : Body α → Option α → Option (Body α)
  | .sem osEventCnt, _ => if osEventCnt < 65535 then some (.sem (osEventCnt + 1)) else none
  | .mbox none, pmsg => some (.mbox pmsg)
  | .mbox (some _), _ => none
  | .q osqSize osqEntries, pmsg =>
    if osqEntries.length ≥ osqSize then none else some (.q osqSize (osqEntries ++ pmsg.toList))

end Body

def Kind.full : Kind → Nat
  | .sem => osErrSemOvf
  | .mbox => osErrMboxFull
  | .q => osErrQFull

section Model

variable {ε α : Type} [DecidableEq ε]

def St.emit (s : St ε α) (evs : List (Ev ε α)) : St ε α := { s with log := s.log ++ evs }

def goTo (p : Fin 64) (pc : Pc ε) (s : St ε α) : St ε α :=
  { s with pc := Function.update s.pc p pc }

def setTcb (p : Fin 64) (t : OsTcb ε α) (s : St ε α) : St ε α :=
  { s with tcb := Function.update s.tcb p t }

def setEvent (e : ε) (ev : OsEvent α) (s : St ε α) : St ε α :=
  { s with osEvent := Function.update s.osEvent e ev }

def setRdy (rdy : Table) (s : St ε α) : St ε α := { s with osRdy := rdy }

def osSchedNew (s : St ε α) : Fin 64 := s.osRdy.lowest osUnMapTbl

/-- The switch is requested, as `OSCtxSw` and `OSIntCtxSw` do. -/
def reschedule (s : St ε α) : St ε α :=
  { s with
    osPrioHighRdy := osSchedNew s
    pendSV := s.pendSV || decide (osSchedNew s ≠ s.osPrioCur) }

def osSched (s : St ε α) : St ε α :=
  if s.osIntNesting = 0 then if s.osLockNesting = 0 then reschedule s else s else s

def osIntEnter (s : St ε α) : St ε α :=
  if s.osIntNesting < 255 then { s with osIntNesting := s.osIntNesting + 1 } else s

def osIntExit (s : St ε α) : St ε α :=
  osSched (if s.osIntNesting > 0 then { s with osIntNesting := s.osIntNesting - 1 } else s)

def pendSVHandler (s : St ε α) : St ε α :=
  { s with osPrioCur := s.osPrioHighRdy, pendSV := false }

def osEventTaskRemove (p : Fin 64) (e : ε) (s : St ε α) : St ε α :=
  setEvent e { s.osEvent e with wait := (s.osEvent e).wait.drop p } s

def osEventTaskRdy (e : ε) (pmsg : Option α) (msk : Kind) (pendStat : StatPend) (s : St ε α) : St ε α :=
  let prio := (s.osEvent e).wait.lowest osUnMapTbl
  let t := { s.tcb prio with
    osTCBDly := 0
    osTCBMsg := pmsg
    osTCBStat := (s.tcb prio).osTCBStat.clear msk
    osTCBStatPend := pendStat }
  osEventTaskRemove prio e
    (setRdy (if t.osTCBStat.suspend then s.osRdy else s.osRdy.add prio) (setTcb prio t s))

def osEventTaskWait (e : ε) (s : St ε α) : St ε α :=
  let cur := s.osPrioCur
  setRdy (s.osRdy.drop cur) (setEvent e { s.osEvent e with wait := (s.osEvent e).wait.add cur }
    (setTcb cur { s.tcb cur with osTCBEventPtr := some e } s))

/-- A pend up to its call of `OS_Sched`. -/
def osPend (kind : Kind) (e : ε) (timeout : Nat) (s : St ε α) : St ε α :=
  let cur := s.osPrioCur
  if (s.osEvent e).body.kind ≠ kind then s.emit [.returned e cur osErrEventType none]
  else if s.osIntNesting > 0 then s.emit [.returned e cur osErrPendIsr none]
  else if s.osLockNesting > 0 then s.emit [.returned e cur osErrPendLocked none]
  else
    match (s.osEvent e).body.take with
    | some (pmsg, body) => (setEvent e { s.osEvent e with body := body } s).emit
        [.given e cur pmsg, .returned e cur osErrNone pmsg]
    | none =>
      goTo cur (.sched (.pended kind e)) (osEventTaskWait e (setTcb cur { s.tcb cur with
        osTCBStat := (s.tcb cur).osTCBStat.set kind
        osTCBStatPend := .pendOk
        osTCBDly := timeout } s))

def osSemPend (e : ε) (timeout : Nat) (s : St ε α) : St ε α := osPend .sem e timeout s
def osMboxPend (e : ε) (timeout : Nat) (s : St ε α) : St ε α := osPend .mbox e timeout s
def osqPend (e : ε) (timeout : Nat) (s : St ε α) : St ε α := osPend .q e timeout s

/-- A pend behind its call of `OS_Sched`; that of a semaphore leaves `OSTCBMsg`. -/
def pendReturn (kind : Kind) (e : ε) (s : St ε α) : St ε α :=
  let cur := s.osPrioCur
  let t := s.tcb cur
  let (s, err, pmsg) := match t.osTCBStatPend with
    | .pendOk => (s, osErrNone, if kind = Kind.sem then none else t.osTCBMsg)
    | .pendAbort => (s, osErrPendAbort, none)
    | .pendTo => (osEventTaskRemove cur e s, osErrTimeout, none)
  (goTo cur .code (setTcb cur { t with
    osTCBStat := osStatRdy
    osTCBStatPend := .pendOk
    osTCBEventPtr := none
    osTCBMsg := if kind = Kind.sem then t.osTCBMsg else none } s)).emit [.returned e cur err pmsg]

/-- A task waits that the post makes ready; `OS_Sched` is called next. -/
def wakes (kind : Kind) (e : ε) (s : St ε α) : Bool :=
  decide ((s.osEvent e).body.kind = kind) && decide ((s.osEvent e).wait.grp ≠ 0)

/-- A post up to its call of `OS_Sched`. -/
def osPost (kind : Kind) (e : ε) (pmsg : Option α) (s : St ε α) : St ε α :=
  if (s.osEvent e).body.kind ≠ kind then s.emit [.posted e pmsg osErrEventType]
  else if (s.osEvent e).wait.grp ≠ 0 then
    (osEventTaskRdy e pmsg kind .pendOk s).emit
      [.posted e pmsg osErrNone, .given e ((s.osEvent e).wait.lowest osUnMapTbl) pmsg]
  else
    match (s.osEvent e).body.put pmsg with
    | some body => (setEvent e { s.osEvent e with body := body } s).emit [.posted e pmsg osErrNone]
    | none => s.emit [.posted e pmsg kind.full]

inductive Post (ε α : Type)
  | sem (pevent : ε)
  | mbox (pevent : ε) (pmsg : α)
  | q (pevent : ε) (pmsg : α)

def osSemPost (e : ε) (s : St ε α) : St ε α := osPost .sem e none s
def osMboxPost (e : ε) (pmsg : α) (s : St ε α) : St ε α := osPost .mbox e (some pmsg) s
def osqPost (e : ε) (pmsg : α) (s : St ε α) : St ε α := osPost .q e (some pmsg) s

def Post.run : Post ε α → St ε α → St ε α
  | .sem e, s => osSemPost e s
  | .mbox e pmsg, s => osMboxPost e pmsg s
  | .q e pmsg, s => osqPost e pmsg s

def Post.wakes : Post ε α → St ε α → Bool
  | .sem e, s => Ucos.wakes .sem e s
  | .mbox e _, s => Ucos.wakes .mbox e s
  | .q e _, s => Ucos.wakes .q e s

/-- `none` is `OS_PRIO_SELF`. -/
def osTaskSuspend (prio : Option (Fin 64)) (s : St ε α) : St ε α :=
  let p := prio.getD s.osPrioCur
  if s.made p = false then s.emit [.suspended p osErrTaskSuspendPrio]
  else
    let t := s.tcb p
    let s := (setRdy (s.osRdy.drop p)
      (setTcb p { t with osTCBStat := { t.osTCBStat with suspend := true } } s)).emit
        [.suspended p osErrNone]
    if p = s.osPrioCur then goTo p (.sched .ret) s else s

def osTaskResume (p : Fin 64) (s : St ε α) : St ε α :=
  let t := s.tcb p
  let stat := { t.osTCBStat with suspend := false }
  if s.made p = false then s.emit [.resumed p osErrTaskResumePrio]
  else if t.osTCBStat.suspend then
    let s := (setTcb p { t with osTCBStat := stat } s).emit [.resumed p osErrNone]
    if stat = osStatRdy then
      if t.osTCBDly = 0 then
        goTo s.osPrioCur (.sched .ret) (setRdy (s.osRdy.add p) s)
      else s
    else s
  else s.emit [.resumed p osErrTaskNotSuspended]

def osTimeDly (ticks : Nat) (s : St ε α) : St ε α :=
  let cur := s.osPrioCur
  if s.osIntNesting > 0 then s
  else if s.osLockNesting > 0 then s
  else if ticks > 0 then
    goTo cur (.sched .ret) (setRdy (s.osRdy.drop cur)
      (setTcb cur { s.tcb cur with osTCBDly := ticks } s))
  else s

def osSchedLock (s : St ε α) : St ε α :=
  if s.osIntNesting = 0 then
    if s.osLockNesting < 255 then { s with osLockNesting := s.osLockNesting + 1 } else s
  else s

def osSchedUnlock (s : St ε α) : St ε α :=
  if s.osLockNesting > 0 then
    let s := { s with osLockNesting := s.osLockNesting - 1 }
    if s.osLockNesting = 0 then
      if s.osIntNesting = 0 then goTo s.osPrioCur (.sched .ret) s else s
    else s
  else s

def timeUp (t : OsTcb ε α) : OsTcb ε α :=
  if t.osTCBStat.pendAny then { t with osTCBStat := t.osTCBStat.clearAny, osTCBStatPend := .pendTo }
  else { t with osTCBStatPend := .pendOk }

/-- The body of the loop of `OSTimeTick`. -/
def tickTcb (p : Fin 64) (s : St ε α) : St ε α :=
  let t := s.tcb p
  if t.osTCBDly ≠ 0 then
    let t := { t with osTCBDly := t.osTCBDly - 1 }
    if t.osTCBDly = 0 then
      let t := timeUp t
      setRdy (if t.osTCBStat.suspend then s.osRdy else s.osRdy.add p) (setTcb p t s)
    else setTcb p t s
  else s

inductive Call (ε α : Type)
  | semPend (pevent : ε) (timeout : Nat)
  | mboxPend (pevent : ε) (timeout : Nat)
  | qPend (pevent : ε) (timeout : Nat)
  | post (post : Post ε α)
  | suspend (prio : Option (Fin 64))
  | resume (prio : Fin 64)
  | timeDly (ticks : Nat)
  | lock
  | unlock

def osCall : Call ε α → St ε α → St ε α
  | .semPend e timeout, s => osSemPend e timeout s
  | .mboxPend e timeout, s => osMboxPend e timeout s
  | .qPend e timeout, s => osqPend e timeout s
  | .post post, s =>
    if post.wakes s then goTo s.osPrioCur (.sched .ret) (post.run s) else post.run s
  | .suspend prio, s => osTaskSuspend prio s
  | .resume prio, s => osTaskResume prio s
  | .timeDly ticks, s => osTimeDly ticks s
  | .lock, s => osSchedLock s
  | .unlock, s => osSchedUnlock s

/-- A handler that calls `OSIntEnter`, one that does not (`ETH_IRQHandler`), or `SysTick_Handler`. -/
inductive Handler
  | counted
  | plain
  | sysTick
  deriving DecidableEq

/-- The task's next call or the next section of the one it is in, the pending switch, and the
interrupt handlers, the newest first. -/
inductive Label (ε α : Type)
  | call (call : Call ε α)
  | go
  | pendSV
  | irq (handler : Handler)
  | irqPost (post : Post ε α)
  | irqGo
  | irqEnd

def irqEnter (handler : Handler) (s : St ε α) : St ε α :=
  match handler with
  | .counted => { osIntEnter s with isr := ⟨true, [], false⟩ :: s.isr }
  | .plain => { s with isr := ⟨false, [], false⟩ :: s.isr }
  | .sysTick =>
    { osIntEnter s with
      isr := ⟨true, s.osTCBList.takeWhile (fun p => p ≠ osTaskIdlePrio), false⟩ :: s.isr }

def goStep (s : St ε α) : St ε α :=
  match s.pc s.osPrioCur with
  | .code => s
  | .sched next => goTo s.osPrioCur next.pc (osSched s)
  | .pended kind e => pendReturn kind e s

def irqGoStep (f : Frame) (rest : List Frame) (s : St ε α) : St ε α :=
  if f.sched then { osSched s with isr := { f with sched := false } :: rest }
  else
    match f.tick with
    | [] => s
    | p :: left => { tickTcb p s with isr := { f with tick := left } :: rest }

/-- A task runs while no handler is under way and no switch is pending; the core nests 16
handlers. -/
def step : Label ε α → St ε α → St ε α
  | .call call, s =>
    if s.isr.isEmpty && !s.pendSV then
      match s.pc s.osPrioCur with
      | .code => osCall call s
      | _ => s
    else s
  | .go, s => if s.isr.isEmpty && !s.pendSV then goStep s else s
  | .pendSV, s => if s.isr.isEmpty && s.pendSV then pendSVHandler s else s
  | .irq handler, s => if s.isr.length < 16 then irqEnter handler s else s
  | .irqPost post, s =>
    match s.isr with
    | [] => s
    | f :: rest =>
      if f.sched then s
      else { post.run s with isr := { f with sched := post.wakes s } :: rest }
  | .irqGo, s =>
    match s.isr with
    | [] => s
    | f :: rest => irqGoStep f rest s
  | .irqEnd, s =>
    match s.isr with
    | [] => s
    | f :: rest =>
      if f.sched || !f.tick.isEmpty then s
      else if f.counted then osIntExit { s with isr := rest } else { s with isr := rest }

end Model

end BoxFirmware.Ucos
