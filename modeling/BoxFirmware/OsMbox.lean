import Mathlib.Data.List.Basic

/-! The mailboxes of `os_mbox.c`, each with one task that pends on it. A post hands
the message to the task that waits, or leaves it in the mailbox unless one is there
already. The pend of the task is two steps: the call, and the return of a call that
had to wait. -/
namespace BoxFirmware.OsMbox

abbrev osErrNone : Nat := 0
abbrev osErrMboxFull : Nat := 20

inductive Pend (α : Type)
  | idle
  | waiting
  | woken (pmsg : Option α)
  deriving DecidableEq

structure OsEvent (α : Type) where
  osEventPtr : Option α
  pend : Pend α
  deriving DecidableEq

variable {α : Type}

def osMboxCreate : OsEvent α := ⟨none, .idle⟩

def osMboxPost (pevent : OsEvent α) (pmsg : α) : Nat × OsEvent α :=
  match pevent.pend with
  | .waiting => (osErrNone, { pevent with pend := .woken (some pmsg) })
  | _ =>
    if pevent.osEventPtr.isSome then (osErrMboxFull, pevent)
    else (osErrNone, { pevent with osEventPtr := some pmsg })

def osMboxPend (pevent : OsEvent α) : Option α × OsEvent α :=
  match pevent.osEventPtr with
  | some pmsg => (some pmsg, { pevent with osEventPtr := none })
  | none => (none, { pevent with pend := .waiting })

def osTimeout (pevent : OsEvent α) : OsEvent α :=
  match pevent.pend with
  | .waiting => { pevent with pend := .woken none }
  | _ => pevent

end BoxFirmware.OsMbox
