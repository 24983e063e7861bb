/-
# `Xen2mx.Lifecycle.Frontend` — the endpoints of a guest, from open to release

Every file has an endpoint, `file->private_data`, allocated with it.  The open ioctl allocates the
queues and grants them, puts the endpoint in `fe->endpoints` and waits for the backend; the close
ioctl waits for the backend, ends the grants, and puts the reference of the file; and the release of
the file closes an endpoint that is open, and puts the reference too.

    open       FREE → INITIALIZING     alloc     grant     in the table     wait     → OK
    close      in the table     wait     end the grants     out of the table     kref_put
    release    OK → CLOSING     close     wake up     kref_put

An ioctl that waits gives up after a time: open and close then leave everything as it is, and the
release goes on.  An open whose backend fails is `DONE`; one whose endpoint is not in the table
frees the queues.  The process makes one call after the other; the handlers of the responses of both
rings run at any time, and look the endpoint up in the table.

`TIMERS_ENABLED` is not defined.  An endpoint that is opened by the ioctl of the native driver is
not modelled.
-/
import Mathlib.Data.Int.Notation
import Mathlib.Logic.Function.Basic
import Mathlib.Order.Nat
import Xen2mx.Lib.Runs

namespace Xen2mx.Lifecycle.Frontend

open Function (update update_self update_of_ne)

/-! ## Endpoints -/

inductive Resource where
  | queues | sendqList | recvqList | grants
  deriving DecidableEq, Repr

open Resource

/-- `omx_xen_endpoint_alloc_resources` and `omx_xen_endpoint_grant_resources`. -/
def allResources : List Resource := [queues, sendqList, recvqList, grants]

/-- `omx_xen_endpoint_ungrant_resources`. -/
def ungranted : List Resource := [grants, sendqList, recvqList]

/-- What an open can lack. -/
inductive Failure where
  | alloc
  /-- in `omx_xen_endpoint_grant_resources` -/
  | sendqList | recvqList | grantRefs
  deriving DecidableEq, Repr

/-- What `omx_xen_endpoint_grant_resources` has taken when it fails. -/
def Failure.taken : Failure → List Resource
  | .alloc | .sendqList => []
  | .recvqList => [.sendqList]
  | .grantRefs => [.sendqList, .recvqList]

inductive Status where
  | free | initializing | ok | closing
  deriving DecidableEq, Repr

inductive File where
  | unopened | opened | released
  deriving DecidableEq, Repr

structure Endpoint where
  file : File
  status : Status
  refcount : ℤ
  /-- `endpoint->endpoint_index` -/
  index : ℕ
  taken : Resource → ℕ
  given : Resource → ℕ
  kfreed : ℕ

namespace Endpoint

variable (e : Endpoint)

def unopened : Endpoint where
  file := .unopened
  status := .free
  refcount := 1
  index := 0
  taken := fun _ => 0
  given := fun _ => 0
  kfreed := 0

def take (rs : List Resource) : Endpoint := { e with taken := fun r => e.taken r + rs.count r }

def give (rs : List Resource) : Endpoint := { e with given := fun r => e.given r + rs.count r }

/-- `kref_put`; both last releases free the resources and the structure. -/
def krefPut : Endpoint :=
  let e := { e with refcount := e.refcount - 1 }
  if e.refcount = 0 then { e.give [queues] with kfreed := e.kfreed + 1 } else e

end Endpoint

/-! ## States -/

inductive Func where
  | openEndpoint | closeEndpoint
  deriving DecidableEq, Repr

/-- `fe->ring` and `fe->recv_ring`: each has its handler. -/
inductive Ring where
  | ring | recvRing
  deriving DecidableEq, Repr

/-- A request of the ring, that waits for its response. -/
structure Request where
  func : Func
  eid : ℕ
  requestId : ℕ
  deriving DecidableEq, Repr

/-- `fe->requests`. -/
inductive RequestStatus where
  | done | doing | failed
  deriving DecidableEq, Repr

/-- What the process is in. -/
inductive Process where
  | idle
  | opening (e requestId : ℕ)
  /-- in the close ioctl, or in the release of the file -/
  | closing (e eid requestId : ℕ) (release : Bool)
  /-- the close that a release has called is over -/
  | finishing (e : ℕ)
  deriving DecidableEq, Repr

/-- The endpoints by the number of their file. -/
structure State where
  endpoints : ℕ → Endpoint
  opened : ℕ
  /-- `fe->endpoints` -/
  table : ℕ → Option ℕ
  requests : ℕ → RequestStatus
  pending : List Request
  process : Process
  /-- the endpoint that a handler has looked up, to notify an event or to answer a query -/
  receiving : Ring → Option ℕ
  /-- the endpoint that the handler of a close has looked up, and the number of its request -/
  responding : Option (ℕ × ℕ)
  /-- a structure was used after it was freed -/
  stray : Bool

def start : State where
  endpoints := fun _ => .unopened
  opened := 0
  table := fun _ => none
  requests := fun _ => .done
  pending := []
  process := .idle
  receiving := fun _ => none
  responding := none
  stray := false

namespace State

variable (s : State)

def set (e : ℕ) (v : Endpoint) : State := { s with endpoints := update s.endpoints e v }

/-- The structure is read or written. -/
def use (e : ℕ) : State := { s with stray := s.stray || (s.endpoints e).kfreed ≠ 0 }

/-- `omx_miscdev_ioctl`: an open or a close by a file that is not open goes to the endpoint of the
table. -/
def target (f eid : ℕ) : ℕ :=
  if (s.endpoints f).status = .ok then f else (s.table eid).getD f

/-- A request is sent, and polled. -/
def poke (q : Request) (e : ℕ) (p : Process) : State :=
  { s with
    table := update s.table q.eid (some e)
    requests := update s.requests q.requestId .doing
    pending := q :: s.pending
    process := p }

end State

/-! ## Steps -/

inductive Act where
  /-- `omx_miscdev_open` -/
  | openFile
  /-- `omx_ioctl_xen_open_endpoint`, up to its wait -/
  | openEndpoint (f eid requestId : ℕ) (fails : Option Failure)
  | openEnds | openTimeout
  /-- `omx_ioctl_xen_close_endpoint`, up to its wait -/
  | closeEndpoint (f eid requestId : ℕ)
  | closeEnds | closeTimeout
  /-- `omx_miscdev_release` -/
  | release (f requestId : ℕ)
  | releaseEnds
  /-- any other ioctl of an endpoint -/
  | ioctl (f : ℕ)
  /-- `omx_xen_endpoint_get_info` -/
  | getInfo (eid : ℕ)
  /-- `omx_xenfront_get_endpoint`, in the handler of an event or of another answer -/
  | receive (r : Ring) (eid : ℕ)
  | notify (r : Ring)
  /-- the answer to another request, late or not, with its number -/
  | answer (requestId : ℕ) (status : RequestStatus)
  /-- `omx_xenif_interrupt`, of the response to an open or a close -/
  | respond (q : Request) (ret : ℤ)
  | closeAnswer
  deriving DecidableEq, Repr

def stepProcess (s : State) : Act → Option State
  | .openFile =>
      if s.process = .idle then
        some { s.set s.opened { Endpoint.unopened with file := .opened } with
          opened := s.opened + 1 }
      else none
  | .openEndpoint f eid requestId fails =>
      if s.process = .idle ∧ (s.endpoints f).file = .opened then
        let n := s.target f eid
        let e := s.endpoints n
        let s := (s.use f).use n
        some (if e.status ≠ .free then s
          else match fails with
            | some .alloc => s
            | some failure =>
                s.set n ((e.take (queues :: failure.taken)).give [queues])
            | none =>
                (s.set n { e.take allResources with status := .initializing, index := eid }).poke
                  { func := .openEndpoint, eid, requestId } n (.opening n requestId))
      else none
  | .openEnds =>
      match s.process with
      | .opening n requestId =>
          let e := s.endpoints n
          match s.requests requestId with
          | .doing => none
          | .done => some { (s.use n).set n { e with status := .ok } with process := .idle }
          -- the grants are kept, and the entry of the table
          | .failed =>
              some { (s.use n).set n { e.give [queues] with status := .free } with
                process := .idle }
      | _ => none
  | .openTimeout =>
      match s.process with
      | .opening _ requestId =>
          if s.requests requestId = .doing then some { s with process := .idle } else none
      | _ => none
  | .closeEndpoint f eid requestId =>
      if s.process = .idle ∧ (s.endpoints f).file = .opened then
        let n := s.target f eid
        let e := s.endpoints n
        let s := (s.use f).use n
        some (if e.status = .free then s
          else s.poke { func := .closeEndpoint, eid, requestId } n (.closing n eid requestId false))
      else none
  -- whatever the backend has answered
  | .closeEnds =>
      match s.process with
      | .closing n eid requestId release =>
          if s.requests requestId = .doing then none
          else
            some { (s.use n).set n ((s.endpoints n).give ungranted).krefPut with
              table := update s.table eid none
              process := if release then .finishing n else .idle }
      | _ => none
  | .closeTimeout =>
      match s.process with
      | .closing n _ requestId release =>
          if s.requests requestId = .doing then
            some { s with process := if release then .finishing n else .idle }
          else none
      | _ => none
  | .release f requestId =>
      if s.process = .idle ∧ (s.endpoints f).file = .opened then
        let e := { s.endpoints f with file := .released }
        let s := s.use f
        some (match e.status with
          | .free => s.set f { e with kfreed := e.kfreed + 1 }
          | .ok =>
              (s.set f { e with status := .closing }).poke
                { func := .closeEndpoint, eid := e.index, requestId } f
                (.closing f e.index requestId true)
          -- `-EINVAL`, which is ignored
          | .initializing | .closing => s.set f e)
      else none
  | .releaseEnds =>
      match s.process with
      | .finishing n =>
          some { (s.use n).set n (s.endpoints n).krefPut with process := .idle }
      | _ => none
  | .ioctl f =>
      if s.process = .idle ∧ (s.endpoints f).file = .opened then some (s.use f) else none
  | .getInfo eid => if s.process = .idle then (s.table eid).map s.use else none
  | _ => none

def step (s : State) (a : Act) : Option State :=
  match a with
  | .receive r eid =>
      if s.receiving r = none ∧ (r = .ring → s.responding = none) then
        some { s with receiving := update s.receiving r (s.table eid) }
      else none
  | .notify r =>
      (s.receiving r).map fun n =>
        { s.use n with receiving := update s.receiving r none }
  | .answer requestId status =>
      if s.receiving .ring = none ∧ s.responding = none then
        some { s with requests := update s.requests requestId status }
      else none
  | .respond q ret =>
      if (s.receiving .ring = none ∧ s.responding = none) ∧ q ∈ s.pending then
        let s := { s with pending := s.pending.erase q }
        some (match q.func, s.table q.eid with
          | .openEndpoint, some _ =>
              { s with requests := update s.requests q.requestId .done }
          | .closeEndpoint, some n =>
              if ret ≠ 0 then { s with requests := update s.requests q.requestId .failed }
              else { s with responding := some (n, q.requestId) }
          | _, none => { s with requests := update s.requests q.requestId .failed })
      else none
  | .closeAnswer =>
      s.responding.map fun (n, requestId) =>
        { (s.use n).set n { s.endpoints n with status := .ok } with
          requests := update s.requests requestId .done
          responding := none }
  | a => stepProcess s a

def machine : Machine State Act := { init := start, step }

/-! ## What is claimed -/

/-- Everything is given back as often as it was taken, and the structure is freed once, after the
rest. -/
structure Endpoint.Once (e : Endpoint) : Prop where
  balanced : ∀ r, e.given r ≤ e.taken r ∧ e.taken r ≤ e.given r + 1
  kfreed : e.kfreed ≤ 1
  freed : e.kfreed ≠ 0 → ∀ r, e.given r = e.taken r
  free : e.status = .free → ∀ r, e.given r = e.taken r

/-- The release of the file is on its way. -/
def Process.Releases : Process → ℕ → Prop
  | .closing n _ _ true, e | .finishing n, e => n = e
  | _, _ => False

structure State.Sound (s : State) : Prop where
  once : ∀ e, (s.endpoints e).Once
  /-- no endpoint outlives its file -/
  released : ∀ e, (s.endpoints e).file = .released →
    (s.endpoints e).kfreed = 1 ∨ s.process.Releases e
  stray : s.stray = false

end Xen2mx.Lifecycle.Frontend
