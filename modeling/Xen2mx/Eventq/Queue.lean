/-
# `Xen2mx.Eventq.Queue` — the event queues of an endpoint

The driver reports to an endpoint through two rings of events in shared memory: the
expected one, for completions of what the application asked for, and the unexpected
one, for incoming packets.  Any number of notifiers run at once.  Each takes the next
index of the queue, looks whether the application has released enough slots, turns the
counter back if it has not, and otherwise stores its event and then its id.  The
application reads the slots in order, recognises a new event by its id, and releases
the slots a batch at a time.

A packet with data also needs a slot of the receive queue, where the data waits for the
application.  A reception reserves both at once (prepare), and takes its index in the
event queue only when the data is there (commit) or the packet is bad (cancel).

A counter is kept here as the number of times it was moved, without bound; the code
sees it modulo 2³².  The atomic steps are those of the code: one locked section or atomic
instruction, one check of the counters, one store.  The check reads counters that other
notifiers move, with no lock held.
-/
import Xen2mx.Lib.Runs
import Xen2mx.Lib.Word

namespace Xen2mx.Eventq

open Word

universe u

variable {ε : Type u}

/-! ## Sizes and indices -/

/-- `OMX_SHARED_RING_ENTRY_NR`, the entries of each ring.  "Event ids go from 1 to a
power-of-two [...] this ensures that the same slot of the eventq will not use the same id
during two consecutive fills": `OMX_EVENT_ID_MAX` is 255, and these are the sizes at which
the comment is right. -/
structure RingSize where
  entryNr : ℕ
  pos : 0 < entryNr
  four_dvd : 4 ∣ entryNr
  dvd : entryNr ∣ 2 ^ 32
  lt : entryNr < 2 ^ 30
  ids : entryNr % 255 ≠ 0 ∧ entryNr % 255 ≠ 1

/-- The default of `configure`. -/
def RingSize.default : RingSize where
  entryNr := 1024
  pos := by decide
  four_dvd := by decide
  dvd := by decide
  lt := by decide
  ids := by decide

namespace RingSize

variable (z : RingSize)

/-- `OMX_EXP_RELEASE_SLOTS_BATCH_NR` and `OMX_UNEXP_RELEASE_SLOTS_BATCH_NR`. -/
def batchNr : ℕ := z.entryNr / 4

/-- The slot of an index. -/
def slot (index : ℕ) : ℕ := wrap 32 index % z.entryNr

/-- The check of every reservation: `nextfree - nextreleased > ENTRY_NR` fails. -/
def hasRoom (nextfree nextreleased : ℕ) : Prop := sub 32 nextfree nextreleased ≤ z.entryNr

instance (nextfree nextreleased : ℕ) : Decidable (z.hasRoom nextfree nextreleased) :=
  inferInstanceAs (Decidable (_ ≤ _))

end RingSize

/-- `1 + (index % OMX_EVENT_ID_MAX)`. -/
def eventId (index : ℕ) : ℕ := 1 + wrap 32 index % 255

/-! ## The ring and its reader -/

/-- A slot: the id, and what the rest of it says; `none` is `OMX_EVT_IGNORE`. -/
structure Slot (ε : Type u) where
  id : ℕ
  event : Option ε
  deriving DecidableEq, Repr

/-- An index handed out for good, the event that goes with it, and the receive-queue
number that the event names, if it does. -/
structure Notification (ε : Type u) where
  index : ℕ
  event : Option ε
  recvq : Option ℕ
  deriving DecidableEq, Repr

/-- Where `omx__progress` is in its loop. -/
inductive ReaderPc where
  | idle
  | processing
  | releasing
  deriving DecidableEq, Repr

/-- What both queues have. -/
structure Ring (ε : Type u) where
  nextreleased : ℕ
  slots : ℕ → Slot ε
  /-- The indices handed out for good. -/
  handed : List (Notification ε)
  /-- Those whose event is not yet stored, -/
  writing : List (Notification ε)
  /-- and those whose id is not. -/
  stored : List (Notification ε)
  /-- `next_exp_event_index` or `next_unexp_event_index` of the library. -/
  nextEventIndex : ℕ
  pc : ReaderPc
  /-- The events given to `omx__process_event`. -/
  log : List (Option ε)
  aborted : Bool

inductive RingAction (ε : Type u) where
  | store (n : Notification ε)
  | publish (n : Notification ε)
  | peek
  | process
  | release
  deriving DecidableEq, Repr

namespace Ring

variable (z : RingSize)

/-- `omx_endpoint_queues_init`, for one queue. -/
def init : Ring ε :=
  { nextreleased := 0
    slots := fun _ => ⟨0, none⟩
    handed := []
    writing := []
    stored := []
    nextEventIndex := 0
    pc := .idle
    log := []
    aborted := false }

/-- A notifier got its index for good. -/
def hand (r : Ring ε) (n : Notification ε) : Ring ε :=
  { r with handed := n :: r.handed, writing := n :: r.writing }

section
variable [DecidableEq ε]

/-- "store the event without setting the id first". -/
def store (r : Ring ε) (n : Notification ε) : Ring ε :=
  { r with
    slots := fun i => if i = z.slot n.index then ⟨0, n.event⟩ else r.slots i
    writing := r.writing.erase n
    stored := n :: r.stored }

/-- "write the actual id now that the whole event has been written to memory". -/
def publish (r : Ring ε) (n : Notification ε) : Ring ε :=
  { r with
    slots := fun i =>
      if i = z.slot n.index then { r.slots i with id := eventId n.index } else r.slots i
    stored := r.stored.erase n }

end

/-- `omx__process_event`, and what follows it in the loop of `omx__progress`. -/
def process (r : Ring ε) : Ring ε :=
  { r with
    log := r.log ++ [(r.slots (z.slot r.nextEventIndex)).event]
    nextEventIndex := r.nextEventIndex + 1
    pc := if wrap 32 (r.nextEventIndex + 1) % z.batchNr = 0 then .releasing else .idle }

/-- `omx_ioctl_release_exp_slots` and `omx_ioctl_release_unexp_slots`; `top` is the
counter they compare with.  `omx__progress` aborts on an error. -/
def release (r : Ring ε) (top : ℕ) : Ring ε :=
  if sub 32 top r.nextreleased < z.batchNr then { r with pc := .idle, aborted := true }
  else { r with pc := .idle, nextreleased := r.nextreleased + z.batchNr }

/-- The reader finds a new event. -/
def HasEvent (r : Ring ε) : Prop :=
  (r.slots (z.slot r.nextEventIndex)).id = eventId r.nextEventIndex

instance (r : Ring ε) : Decidable (r.HasEvent z) := inferInstanceAs (Decidable (_ = _))

/-- The stores of the notifiers, and the steps of the reader. -/
def step [DecidableEq ε] (top : ℕ) (r : Ring ε) : RingAction ε → Option (Ring ε)
  | .store n => if n ∈ r.writing then some (r.store z n) else none
  | .publish n => if n ∈ r.stored then some (r.publish z n) else none
  | .peek =>
      if r.pc = .idle ∧ r.aborted = false ∧ r.HasEvent z then some { r with pc := .processing }
      else none
  | .process => if r.pc = .processing then some (r.process z) else none
  | .release => if r.pc = .releasing then some (r.release z top) else none

/-- Some holder of the index `i` has not failed: it has the index for good, or is one of
those in `reserved`. -/
def Held (r : Ring ε) (reserved : List ℕ) (i : ℕ) : Prop :=
  i ∈ r.handed.map Notification.index ∨ i ∈ reserved

instance (r : Ring ε) (reserved : List ℕ) (i : ℕ) : Decidable (r.Held reserved i) :=
  inferInstanceAs (Decidable (_ ∨ _))

end Ring

/-! ## The expected queue -/

structure ExpEventq (ε : Type u) where
  ring : Ring ε
  nextfree : ℕ
  /-- Those who have an index and have not looked for room, -/
  notifying : List (ℕ × ε)
  /-- and the number of those who found none. -/
  notifyFailed : ℕ

inductive ExpAction (ε : Type u) where
  | notify (event : ε)
  | check (n : ℕ × ε)
  | rollback
  | ring (a : RingAction ε)
  deriving DecidableEq, Repr

namespace ExpEventq

variable (z : RingSize) [DecidableEq ε]

def init : ExpEventq ε := { ring := Ring.init, nextfree := 0, notifying := [], notifyFailed := 0 }

/-- `omx_notify_exp_event`, its stores apart, and the reader. -/
def step (q : ExpEventq ε) : ExpAction ε → Option (ExpEventq ε)
  | .notify event =>
      some { q with nextfree := q.nextfree + 1, notifying := (q.nextfree, event) :: q.notifying }
  | .check n =>
      if n ∈ q.notifying then
        if z.hasRoom q.nextfree q.ring.nextreleased then
          some { q with
            notifying := q.notifying.erase n
            ring := q.ring.hand { index := n.1, event := some n.2, recvq := none } }
        else
          some { q with
            notifying := q.notifying.erase n
            notifyFailed := q.notifyFailed + 1 }
      else none
  | .rollback =>
      if 0 < q.notifyFailed then
        some { q with nextfree := q.nextfree - 1, notifyFailed := q.notifyFailed - 1 }
      else none
  | .ring a => (q.ring.step z q.nextfree a).map fun r => { q with ring := r }

def machine : Machine (ExpEventq ε) (ExpAction ε) := { init := init, step := step z }

end ExpEventq

/-! ## The unexpected queue -/

structure UnexpEventq (ε : Type u) where
  ring : Ring ε
  nextfree : ℕ
  nextreserved : ℕ
  nextRecvq : ℕ
  notifying : List (ℕ × ε)
  notifyFailed : ℕ
  /-- Receptions that have a block of the receive queue and have not looked for room: the
  first number and the length. -/
  preparing : List (ℕ × ℕ)
  /-- The lengths that receptions which found none have to give back. -/
  prepareFailed : List ℕ
  /-- Receive-queue numbers prepared, and neither committed nor cancelled. -/
  prepared : List ℕ
  /-- The blocks of the receive queue that were prepared so far. -/
  blocks : List (ℕ × ℕ)
  bug : Bool

inductive UnexpAction (ε : Type u) where
  | notify (event : ε)
  | notifyCheck (n : ℕ × ε)
  | notifyRollback
  | prepare (nr : ℕ)
  | prepareCheck (b : ℕ × ℕ)
  | prepareRollback (nr : ℕ)
  | commit (recvq : ℕ) (event : ε)
  | cancel (recvq : ℕ)
  | ring (a : RingAction ε)
  deriving DecidableEq, Repr

namespace UnexpEventq

variable (z : RingSize)

def init : UnexpEventq ε :=
  { ring := Ring.init
    nextfree := 0
    nextreserved := 0
    nextRecvq := 0
    notifying := []
    notifyFailed := 0
    preparing := []
    prepareFailed := []
    prepared := []
    blocks := []
    bug := false }

/-- The locked section of `omx_commit_notify_unexp_event_with_recvq` and
`omx_cancel_notify_unexp_event_with_recvq`: the next reserved index is taken for good. -/
def takeReserved (q : UnexpEventq ε) (event : Option ε) (recvq : Option ℕ) : UnexpEventq ε :=
  if sub 32 q.nextfree q.ring.nextreleased ≤ sub 32 q.nextreserved q.ring.nextreleased then
    { q with bug := true }
  else
    { q with
      nextreserved := q.nextreserved + 1
      ring := q.ring.hand { index := q.nextreserved, event, recvq } }

variable [DecidableEq ε]

/-- The functions of the unexpected queue, section by section.  A reception prepares one
slot, or one for each fragment of a message that fits the ring. -/
def next (q : UnexpEventq ε) : UnexpAction ε → Option (UnexpEventq ε)
  | .notify event =>
      some { q with
        nextfree := q.nextfree + 1
        nextreserved := q.nextreserved + 1
        notifying := (q.nextreserved, event) :: q.notifying }
  | .notifyCheck n =>
      if n ∈ q.notifying then
        if z.hasRoom q.nextfree q.ring.nextreleased then
          some { q with
            notifying := q.notifying.erase n
            ring := q.ring.hand { index := n.1, event := some n.2, recvq := none } }
        else
          some { q with
            notifying := q.notifying.erase n
            notifyFailed := q.notifyFailed + 1 }
      else none
  | .notifyRollback =>
      if 0 < q.notifyFailed then
        some { q with
          nextfree := q.nextfree - 1
          nextreserved := q.nextreserved - 1
          notifyFailed := q.notifyFailed - 1 }
      else none
  | .prepare nr =>
      if 0 < nr ∧ nr ≤ z.entryNr then
        some { q with
          nextfree := q.nextfree + nr
          nextRecvq := q.nextRecvq + nr
          preparing := (q.nextRecvq, nr) :: q.preparing }
      else none
  | .prepareCheck b =>
      if b ∈ q.preparing then
        if z.hasRoom q.nextfree q.ring.nextreleased then
          some { q with
            preparing := q.preparing.erase b
            prepared := List.range' b.1 b.2 ++ q.prepared
            blocks := b :: q.blocks }
        else
          some { q with
            preparing := q.preparing.erase b
            prepareFailed := b.2 :: q.prepareFailed }
      else none
  | .prepareRollback nr =>
      if nr ∈ q.prepareFailed then
        some { q with
          nextfree := q.nextfree - nr
          nextRecvq := q.nextRecvq - nr
          prepareFailed := q.prepareFailed.erase nr }
      else none
  | .commit recvq event =>
      if recvq ∈ q.prepared then
        some ({ q with prepared := q.prepared.erase recvq }.takeReserved (some event) (some recvq))
      else none
  | .cancel recvq =>
      if recvq ∈ q.prepared then
        some ({ q with prepared := q.prepared.erase recvq }.takeReserved none none)
      else none
  | .ring a => (q.ring.step z q.nextreserved a).map fun r => { q with ring := r }

/-- A `BUG_ON` stops the machine. -/
def step (q : UnexpEventq ε) (a : UnexpAction ε) : Option (UnexpEventq ε) :=
  if q.bug then none else q.next z a

def machine : Machine (UnexpEventq ε) (UnexpAction ε) := { init := init, step := step z }

end UnexpEventq

end Xen2mx.Eventq
