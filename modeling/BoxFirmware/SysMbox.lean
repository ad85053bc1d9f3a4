import BoxFirmware.GuardedRun
import Mathlib.Algebra.Group.Int.Defs

/-! The mailboxes of lwIP in `sys_arch.c`, over the queues of `os_q.c`. A mailbox is a
variable that holds the address of a block from the pool `SRAMIN`; the results of
`mymalloc` and `OSQCreate` are inputs. The argument checks of the kernel are switched off
in `os_cfg.h`. A post, fetch or free through a pointer that no created mailbox holds ends
what is modelled of a run. -/
namespace BoxFirmware.SysMbox
open GuardedRun

def maxQueueEntries : Int := 20

def errOk : Int := 0
def errMem : Int := -1

def osErrNone : Nat := 0
def osErrQFull : Nat := 30

/-- An `OS_Q` with its messages, oldest first, and the number of tasks that pend on it. -/
structure OsQ where
  osqSize : Nat
  msgs : List UInt32
  waiting : Nat

structure OsQData where
  ucErr : Nat
  osNMsgs : Nat
  osqSize : Nat

def osqCreate (size : Int) : OsQ := ⟨(size % 2^16).toNat, [], 0⟩

def osqPost (q : OsQ) (pmsg : UInt32) : Nat × OsQ :=
  if q.waiting ≠ 0 then (osErrNone, { q with waiting := q.waiting - 1 })
  else if q.msgs.length ≥ q.osqSize then (osErrQFull, q)
  else (osErrNone, { q with msgs := q.msgs ++ [pmsg] })

def osqPend (q : OsQ) : Option UInt32 × OsQ :=
  match q.msgs with
  | pmsg :: rest => (some pmsg, { q with msgs := rest })
  | [] => (none, { q with waiting := q.waiting + 1 })

def osqTimeout (q : OsQ) : OsQ := { q with waiting := q.waiting - 1 }

def osqQuery (q : OsQ) : OsQData := ⟨osErrNone, q.msgs.length, q.osqSize⟩

inductive Mbox
  | null
  | queue (q : OsQ)
  /-- the address of a block that a failed creation has given back -/
  | stale

structure Out where
  ret : Option Int
  msg : Option UInt32
  null : Bool

def sysMboxNew (size : Int) (block queue : Bool) : Out × Mbox :=
  if block then
    let size := if size > maxQueueEntries then maxQueueEntries else size
    if queue then (⟨some errOk, none, false⟩, .queue (osqCreate size))
    else (⟨some errMem, none, false⟩, .stale)
  else (⟨some errMem, none, true⟩, .null)

def toPost (pvNullPointer msg : UInt32) : UInt32 := if msg = 0 then pvNullPointer else msg

def sysMboxPost (pvNullPointer msg : UInt32) (q : OsQ) : Out × OsQ :=
  (⟨none, none, false⟩, (osqPost q (toPost pvNullPointer msg)).2)

def sysMboxTrypost (pvNullPointer msg : UInt32) (q : OsQ) : Out × OsQ :=
  let r := osqPost q (toPost pvNullPointer msg)
  (⟨some (if r.1 ≠ osErrNone then errMem else errOk), none, false⟩, r.2)

def sysArchMboxFetch (pvNullPointer : UInt32) (q : OsQ) : Out × OsQ :=
  let r := osqPend q
  (⟨none, r.1.map (fun msg => if msg = pvNullPointer then 0 else msg), false⟩, r.2)

/-- `found` is what the query comes across when no created mailbox holds the pointer. -/
def sysMboxValid (found : OsQData) (mbox : Mbox) : Out :=
  let data := match mbox with
    | .queue q => osqQuery q
    | _ => found
  ⟨some (if data.ucErr < 2 ∧ data.osNMsgs < data.osqSize then 1 else 0), none,
    match mbox with
    | .null => true
    | _ => false⟩

inductive Op
  | new (size : Int) (block queue : Bool)
  | post (msg : UInt32)
  | trypost (msg : UInt32)
  | fetch
  | timeout
  | free
  | setInvalid
  | valid (found : OsQData)

def Out.silent : Out := ⟨none, none, false⟩

/-- One operation; `none` behind a post, fetch or free of what is no queue. -/
def step (pvNullPointer : UInt32) : Op → Mbox → Out × Option Mbox
  | .new size block queue, _ =>
    ((sysMboxNew size block queue).1, some (sysMboxNew size block queue).2)
  | .post msg, .queue q =>
    ((sysMboxPost pvNullPointer msg q).1, some (.queue (sysMboxPost pvNullPointer msg q).2))
  | .trypost msg, .queue q =>
    ((sysMboxTrypost pvNullPointer msg q).1,
      some (.queue (sysMboxTrypost pvNullPointer msg q).2))
  | .fetch, .queue q =>
    ((sysArchMboxFetch pvNullPointer q).1, some (.queue (sysArchMboxFetch pvNullPointer q).2))
  | .timeout, .queue q => (.silent, some (.queue (osqTimeout q)))
  | .free, .queue _ => (.silent, some .null)
  | .setInvalid, _ => (.silent, some .null)
  | .valid found, mbox => (sysMboxValid found mbox, some mbox)
  | _, _ => (.silent, none)

/-- Created, and not freed or invalidated since: by the operations alone. -/
def created : Op → Bool → Bool
  | .new _ block queue, _ => block && queue
  | .free, _ => false
  | .setInvalid, _ => false
  | _, before => before

structure St where
  mbox : Option Mbox
  created : Bool

def stepSt (pvNullPointer : UInt32) (op : Op) (s : St) : St :=
  ⟨s.mbox.bind (fun mbox => (step pvNullPointer op mbox).2), created op s.created⟩

def start : St := ⟨some .null, false⟩

def Meets (pvNullPointer : UInt32) (op : Op) (s : St) : Prop :=
  ∀ mbox, s.mbox = some mbox →
    match op with
    | .new _ _ _ => (step pvNullPointer op mbox).1.null = false
    | .valid _ => (step pvNullPointer op mbox).1.null = false ∧
        ((step pvNullPointer op mbox).1.ret = some 1 ↔ s.created = true)
    | _ => True

/-- The creation finds a block, and validity is asked of a mailbox with room for a message, or
of the block of a failed creation in which no queue with room is found. -/
def Sound (op : Op) (s : St) : Prop :=
  match op, s.mbox with
  | .new _ block _, some _ => block = true
  | .valid _, some .null => False
  | .valid _, some (.queue q) => q.msgs.length < q.osqSize
  | .valid found, some .stale => ¬ (found.ucErr < 2 ∧ found.osNMsgs < found.osqSize)
  | _, _ => True

def Agrees (s : St) : Prop :=
  match s.mbox with
  | none => True
  | some .null => s.created = false
  | some (.queue _) => s.created = true
  | some .stale => s.created = false

theorem stepSt_agrees (pvNullPointer : UInt32) (op : Op) (s : St) (agrees : Agrees s) :
    Agrees (stepSt pvNullPointer op s) := by
  obtain ⟨_ | mbox, life⟩ := s
  · trivial
  · cases op with
    | new size block queue => cases block <;> cases queue <;> rfl
    | setInvalid => rfl
    | valid found => exact agrees
    | post msg | trypost msg | fetch | timeout | free =>
      cases mbox with
      | null => trivial
      | queue q => first | exact agrees | rfl
      | stale => trivial

theorem meets_iff_sound (pvNullPointer : UInt32) (op : Op) (s : St) (agrees : Agrees s) :
    Meets pvNullPointer op s ↔ Sound op s := by
  obtain ⟨_ | mbox, life⟩ := s
  · cases op <;> simp [Meets, Sound]
  · cases op with
    | new size block queue => cases block <;> cases queue <;> simp [Meets, Sound, step, sysMboxNew]
    | valid found =>
      cases mbox <;>
        simp_all [Meets, Sound, Agrees, step, sysMboxValid, osqQuery, osErrNone]
    | _ => simp [Meets, Sound]

/-- Over every sequence of operations on a mailbox, both functions do what they should just
when they are called as `Sound` says: a mailbox that is full counts as invalid, and one that
is `NULL` is followed. -/
theorem sys_mbox_valid_life (pvNullPointer : UInt32) (ops : List Op) :
    Along (stepSt pvNullPointer) (Meets pvNullPointer) ops start ↔
      Along (stepSt pvNullPointer) Sound ops start :=
  along_congr (stepSt_agrees pvNullPointer) (meets_iff_sound pvNullPointer) rfl

/-- A mailbox of one message, created, filled and asked. -/
theorem sys_mbox_valid_life_full :
    ¬ ∀ (pvNullPointer : UInt32) (ops : List Op),
      Along (stepSt pvNullPointer) (Meets pvNullPointer) ops start := by
  intro all
  have asked := (all 0x08000000 [.new 1 true true, .post 0x20000000, .valid ⟨0, 0, 0⟩]).2.2.1
  have answer := (asked _ rfl).2.mpr rfl
  exact absurd answer (by decide)

end BoxFirmware.SysMbox
