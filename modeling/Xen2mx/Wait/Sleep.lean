/-
# `Xen2mx.Wait.Sleep` — a process that waits for an event

`omx_ioctl_wait_event` puts a waiter in the list of the endpoint, compares the indexes that the
library passed with those of the endpoint, sets a timer, and sleeps.  Each access to what it shares
with others is a step here, and between any two of them others may take theirs:

    notifiers        count an event in an index, write it, walk through the list; for each waiter
                     the status is written, then the process is woken
    wakeup, close    walk through the list with a status of theirs
    timer            its handler writes the status, then wakes the process
    signals          are pending, then the process is woken

The list is walked without a lock.  A walk that starts with the waiter in the list comes to it
unless it is removed first; one that starts before may come to it, and one that comes to it may
write the status after it is removed.  The waiters of other processes are not in the way of a walk.
A walk that came to the waiter of an earlier call can still wake the process: it may be woken by
nobody at any time.

The indexes count without end, and are compared in 32 bits; two of them are raised for a moment by
an event that finds the queue full.  A slot that is cancelled counts as an event, but wakes nobody:
there is nothing in it.
-/
import Xen2mx.Lib.Runs
import Xen2mx.Lib.Word

namespace Xen2mx.Wait

/-! ## Statuses and dates -/

/-- `OMX_CMD_WAIT_EVENT_STATUS_*`, in a byte.  The wakeup command can pass any of them. -/
inductive Status where
  | none | event | intr | progress | timeout | race | wakeup
  | other (n : ℕ)
  deriving DecidableEq, Repr

/-- `time_after_eq64`, on jiffies that count without end. -/
def timeAfterEq64 (a b : ℕ) : Prop := Word.sub 64 a b < 2 ^ 63

instance (a b : ℕ) : Decidable (timeAfterEq64 a b) := inferInstanceAs (Decidable (_ < _))

/-- `struct omx_cmd_wait_event`, and the date of the library in the descriptor of the endpoint.  The
indexes are the numbers of events that the library has seen. -/
structure WaitParam where
  nextExpEventIndex : ℕ
  nextUnexpEventIndex : ℕ
  userEventIndex : ℕ
  jiffiesExpire : ℕ
  wakeupJiffies : ℕ
  deriving DecidableEq, Repr

/-- `OMX_CMD_WAIT_EVENT_TIMEOUT_INFINITE`. -/
def timeoutInfinite : ℕ := 2 ^ 64 - 1

/-- `OMX_NO_WAKEUP_JIFFIES`. -/
def noWakeupJiffies : ℕ := 0

/-- The two handlers of the timer. -/
inductive Handler where
  /-- `omx_wakeup_on_timeout_handler` -/
  | timeout
  /-- `omx_wakeup_on_progress_timeout_handler` -/
  | progress
  deriving DecidableEq, Repr

def Handler.status : Handler → Status
  | .timeout => .timeout
  | .progress => .progress

/-- The date a handler is for. -/
def Handler.date (cmd : WaitParam) : Handler → ℕ
  | .timeout => cmd.jiffiesExpire
  | .progress => cmd.wakeupJiffies

/-- `timer_handler`: for the date of the library if this comes first, or if there is no other. -/
def timerHandler (cmd : WaitParam) : Option Handler :=
  if cmd.jiffiesExpire = timeoutInfinite then
    if cmd.wakeupJiffies = noWakeupJiffies then none else some .progress
  else if cmd.wakeupJiffies ≠ noWakeupJiffies ∧
      ¬ timeAfterEq64 cmd.wakeupJiffies cmd.jiffiesExpire then some .progress
  else some .timeout

/-! ## States -/

/-- The timer.  A handler that has run is done. -/
inductive Timer where
  | none
  | pending (handler : Handler)
  /-- about to write the status -/
  | running (handler : Handler)
  /-- about to wake the process -/
  | wrote
  | done
  deriving DecidableEq, Repr

/-- Somebody who wakes up the waiters of the endpoint. -/
inductive Walker where
  /-- before the walk: the index is raised -/
  | bumped (status : Status)
  /-- in the list: `had` if the waiter was there when it started, `can` unless that was removed -/
  | walking (status : Status) (had can : Bool)
  /-- at the waiter, with the status written -/
  | wrote
  deriving DecidableEq, Repr

/-- What the process does next. -/
inductive Pc where
  /-- the library looks at the events -/
  | library
  | setState | link
  | compareExp | compareUnexp | compareUser
  | readJiffies
  | modTimer (handler : Handler)
  | readStatus | readSignal | schedule
  | asleep
  | delTimer | setRunning | unlink
  | readResult | setIntr | copyResult
  | returned (status : Status)
  deriving DecidableEq, Repr

/-- Where the waiter is. -/
inductive Membership where
  | before | linked | after
  deriving DecidableEq, Repr

structure State where
  jiffies : ℕ
  /-- the events in the expected queue; `nextfree_exp_eventq_index` is higher by those that find it
  full -/
  exp : ℕ
  expOver : ℕ
  /-- those in the unexpected queue, with the cancelled ones, and
  `nextreserved_unexp_eventq_index` -/
  unexp : ℕ
  unexpOver : ℕ
  user : ℕ
  walkers : List Walker
  signalPending : Bool
  /-- the signals that are about to wake the process -/
  signalWakes : ℕ
  pc : Pc
  cmd : WaitParam
  /-- the state of the task is `TASK_RUNNING` -/
  running : Bool
  membership : Membership
  /-- of the waiter -/
  status : Status
  timer : Timer
  /-- when the library passed its indexes -/
  start : ℕ
  /-- the statuses of all who walked through the list, or are about to -/
  posted : List Status
  /-- a walk has started with the waiter in the list -/
  called : Bool
  /-- the slots that were cancelled since the index was compared -/
  ignored : ℕ
  /-- an index was taken for another with the same lowest 32 bits -/
  wrapped : Bool
  /-- an index was found to differ -/
  raced : Bool
  /-- a walk of before has woken the process since it set its state -/
  stale : Bool
  deriving DecidableEq, Repr

def init : State where
  jiffies := 0
  exp := 0
  expOver := 0
  unexp := 0
  unexpOver := 0
  user := 0
  walkers := []
  signalPending := false
  signalWakes := 0
  pc := .library
  cmd := ⟨0, 0, 0, 0, 0⟩
  running := true
  membership := .before
  status := .none
  timer := .none
  start := 0
  posted := []
  called := false
  ignored := 0
  wrapped := false
  raced := false
  stale := false

namespace State

variable (s : State)

/-! ## The others -/

/-- Somebody is about to walk through the list. -/
def post (status : Status) : State :=
  { s with walkers := s.walkers ++ [.bumped status], posted := status :: s.posted }

/-- The `i`-th walk starts. -/
def startWalk (i : ℕ) : Option State :=
  match s.walkers[i]? with
  | some (.bumped status) =>
      some { s with
        walkers := s.walkers.set i
          (.walking status (s.membership = .linked) (s.membership ≠ .after))
        called := s.called || s.membership = .linked }
  | _ => none

/-- It comes to the waiter, and writes its status. -/
def visit (i : ℕ) : Option State :=
  match s.walkers[i]? with
  | some (.walking status _ true) =>
      if s.membership = .before then none
      else some { s with walkers := s.walkers.set i .wrote, status := status }
  | _ => none

/-- It ends without coming to the waiter. -/
def finish (i : ℕ) : Option State :=
  match s.walkers[i]? with
  | some (.walking _ had _) =>
      if had = true ∧ s.membership = .linked then none
      else some { s with walkers := s.walkers.eraseIdx i }
  | _ => none

/-- `wake_up_process`, by the `i`-th walk. -/
def wake (i : ℕ) : Option State :=
  match s.walkers[i]? with
  | some .wrote => some { s with walkers := s.walkers.eraseIdx i, running := true }
  | _ => none

/-- The timer expires. -/
def expire : Option State :=
  match s.timer with
  | .pending handler =>
      if timeAfterEq64 s.jiffies (handler.date s.cmd) then some { s with timer := .running handler }
      else none
  | _ => none

/-- A step of its handler. -/
def handle : Option State :=
  match s.timer with
  | .running handler => some { s with timer := .wrote, status := handler.status }
  | .wrote => some { s with timer := .done, running := true }
  | _ => none

/-! ## The process -/

/-- An index is compared.  If it differs, `cmd.status` is `RACE`, but that is overwritten before the
command is copied back. -/
def compare (index passed : ℕ) (next : Pc) : State :=
  if index % 2 ^ 32 = passed % 2 ^ 32 then
    { s with pc := next, wrapped := s.wrapped || index ≠ passed }
  else { s with pc := .setRunning, raced := true }

/-- One step of `omx_ioctl_wait_event`. -/
def proc : Option State :=
  match s.pc with
  | .library => none
  | .setState => some { s with pc := .link, status := .none, running := false, stale := false }
  | .link => some { s with pc := .compareExp, membership := .linked }
  | .compareExp => some (s.compare (s.exp + s.expOver) s.cmd.nextExpEventIndex .compareUnexp)
  | .compareUnexp =>
      some ({ s with ignored := 0 }.compare (s.unexp + s.unexpOver) s.cmd.nextUnexpEventIndex
        .compareUser)
  | .compareUser => some (s.compare s.user s.cmd.userEventIndex .readJiffies)
  | .readJiffies =>
      match timerHandler s.cmd with
      | none => some { s with pc := .readStatus }
      | some handler =>
          if timeAfterEq64 s.jiffies (handler.date s.cmd) then
            some { s with pc := .setRunning, status := .race }
          else some { s with pc := .modTimer handler }
  | .modTimer handler => some { s with pc := .readStatus, timer := .pending handler }
  | .readStatus => some { s with pc := if s.status = .none then .readSignal else .delTimer }
  | .readSignal => some { s with pc := if s.signalPending then .delTimer else .schedule }
  | .schedule =>
      if s.running ∨ s.signalPending then some { s with pc := .delTimer, running := true }
      else some { s with pc := .asleep }
  | .asleep => if s.running then some { s with pc := .delTimer } else none
  | .delTimer =>
      match s.timer with
      | .none => some { s with pc := .setRunning }
      | .pending _ | .done => some { s with pc := .setRunning, timer := .done }
      | .running _ | .wrote => none
  | .setRunning => some { s with pc := .unlink, running := true }
  | .unlink => some { s with pc := .readResult, membership := .after }
  | .readResult => some { s with pc := if s.status = .none then .setIntr else .copyResult }
  | .setIntr => some { s with pc := .copyResult, status := .intr }
  | .copyResult => some { s with pc := .returned s.status }
  | .returned _ => none

end State

/-! ## The machine -/

inductive Action where
  | tick
  /-- `omx_notify_exp_event` -/
  | notifyExp
  /-- `omx_notify_unexp_event`, `omx_commit_notify_unexp_event_with_recvq` -/
  | notifyUnexp
  /-- an event that finds the queue full -/
  | overExp | backExp | overUnexp | backUnexp
  /-- `omx_cancel_notify_unexp_event_with_recvq` -/
  | cancelUnexp
  /-- `omx__notify_user_event` -/
  | notifyUser
  /-- `omx_ioctl_wakeup` -/
  | wakeup (status : Status)
  /-- `omx_wakeup_endpoint_on_close` -/
  | close
  | startWalk (i : ℕ) | visit (i : ℕ) | finish (i : ℕ) | wake (i : ℕ)
  /-- a walk of before wakes the process -/
  | staleWake
  | signal | signalWake
  | expire | handle
  /-- the library passes its indexes; the command is read, and there is memory for the waiter -/
  | pass (cmd : WaitParam)
  | proc
  deriving DecidableEq, Repr

/-- One step.  The library has seen no event that was not counted. -/
def step (s : State) : Action → Option State
  | .tick => some { s with jiffies := s.jiffies + 1 }
  | .notifyExp => some ({ s with exp := s.exp + 1 }.post .event)
  | .notifyUnexp => some ({ s with unexp := s.unexp + 1 }.post .event)
  | .overExp => some { s with expOver := s.expOver + 1 }
  | .backExp => if 0 < s.expOver then some { s with expOver := s.expOver - 1 } else none
  | .overUnexp => some { s with unexpOver := s.unexpOver + 1 }
  | .backUnexp => if 0 < s.unexpOver then some { s with unexpOver := s.unexpOver - 1 } else none
  | .cancelUnexp => some { s with unexp := s.unexp + 1, ignored := s.ignored + 1 }
  | .notifyUser => some ({ s with user := s.user + 1 }.post .event)
  | .wakeup status => some (s.post status)
  | .close => some (s.post .wakeup)
  | .startWalk i => s.startWalk i
  | .visit i => s.visit i
  | .finish i => s.finish i
  | .wake i => s.wake i
  | .staleWake => some { s with running := true, stale := true }
  | .signal => some { s with signalPending := true, signalWakes := s.signalWakes + 1 }
  | .signalWake =>
      if 0 < s.signalWakes then
        some { s with signalWakes := s.signalWakes - 1, running := true }
      else none
  | .expire => s.expire
  | .handle => s.handle
  | .pass cmd =>
      if s.pc = .library ∧ cmd.nextExpEventIndex ≤ s.exp ∧ cmd.nextUnexpEventIndex ≤ s.unexp ∧
          cmd.userEventIndex ≤ s.user then
        some { s with pc := .setState, cmd := cmd, start := s.jiffies }
      else none
  | .proc => s.proc

def machine : Machine State Action := ⟨init, step⟩

/-- `omx__wait`, with the status of the last call and the jiffies it reads: it reports a timeout. -/
def reportsTimeout (waitintr : Bool) (jiffies jiffiesExpire : ℕ) (status : Status) : Prop :=
  jiffiesExpire ≤ jiffies ∨ status = .timeout ∨ status = .wakeup ∨
    (waitintr = true ∧ status = .intr)

end Xen2mx.Wait
