/-
# `Xen2mx.Lifecycle.Backend` — an endpoint of the backend, opened and closed by its guest

The structure of an endpoint is allocated once, when the backend connects.  Requests of the guest
open and close it, one after the other in one workqueue; packets that are received meanwhile look
it up in the table of the interface, take a reference and look at its status.

    open     kref_init, FREE → INITIALIZING     alloc     accept     attach, → OK     → OK
    close    OK → CLOSING     release     detach     last release     → FREE
    receive  look up     kref_get     check the status: keep the reference, or kref_put

`kref_init` comes before the status is looked at.  An open that fails jumps to the end of the
function, and so does a close that cannot unmap; the last release of a close does not look at the
reference count, and `kref_put` would call that of the native driver, which frees the structure.
-/
import Mathlib.Data.Int.Notation
import Xen2mx.Lib.Runs

namespace Xen2mx.Lifecycle

/-! ## What an endpoint holds -/

inductive Resource where
  | userdesc | sendq | recvq | expEventq | unexpEventq | sendqPages | recvqPages
  | endpointVm | endpointGrant
  | sendqPageList | recvqPageList | sendqBallooned | recvqBallooned
  | sendqMap | sendqUnmap | recvqMap | recvqUnmap
  | sendqVm | sendqGrant | sendqRefs | recvqVm | recvqGrant | recvqRefs
  deriving DecidableEq, Repr

open Resource

/-- `omx_endpoint_alloc_resources`. -/
def allocResources : List Resource :=
  [userdesc, sendq, recvq, expEventq, unexpEventq, sendqPages, recvqPages]

/-- `omx_xen_endpoint_accept_resources`. -/
def acceptResources : List Resource :=
  [endpointVm, endpointGrant, sendqPageList, recvqPageList, sendqBallooned, recvqBallooned,
    sendqMap, sendqUnmap, recvqMap, recvqUnmap, sendqVm, sendqGrant, sendqRefs, recvqVm, recvqGrant,
    recvqRefs]

/-- `omx_xen_endpoint_release_resources`. -/
def releaseResources : List Resource :=
  [sendqRefs, sendqGrant, recvqRefs, recvqGrant, endpointGrant, sendqMap, sendqUnmap, recvqMap,
    recvqUnmap, sendqBallooned, recvqBallooned, sendqPageList, recvqPageList, sendqVm, recvqVm,
    endpointVm]

/-- `omx_endpoint_free_resources`. -/
def freeResources : List Resource :=
  [recvqPages, sendqPages, unexpEventq, expEventq, recvq, sendq, userdesc]

/-- How many resources are released when `omx_xen_endpoint_release_resources` fails: no pages, or
one of the three grants is not unmapped. -/
def releaseFailures : List ℕ := [0, 1, 3, 4]

/-! ## States -/

inductive Status where
  | free | initializing | ok | closing
  deriving DecidableEq, Repr

/-- Where the workqueue of the guest is with a request that opens or closes the endpoint. -/
inductive Worker where
  | idle
  | opening | allocated | accepted | attached
  | closing | released | detached | lastReleased
  deriving DecidableEq, Repr

/-- How an open ended. -/
inductive Opened where
  | opened
  /-- with the status that it leaves -/
  | failed (status : Status)
  /-- the endpoint was not free: whether it was changed -/
  | refused (changed : Bool)
  deriving DecidableEq, Repr

structure State where
  status : Status
  refcount : ℤ
  /-- `endpoint->iface` is set -/
  iface : Bool
  /-- the endpoint is in the table of the interface -/
  listed : Bool
  worker : Worker
  taken : Resource → ℕ
  given : Resource → ℕ
  /-- users between the lookup and `kref_get`, in a read-side section -/
  reading : ℕ
  /-- users with a reference that have not looked at the status, in a read-side section -/
  checking : ℕ
  /-- users that acquired the endpoint -/
  holders : ℕ
  /-- something was given back while a user had a reference -/
  early : Bool
  /-- the structure was freed -/
  kfreed : Bool
  opens : List Opened

def start : State where
  status := .free
  refcount := 0
  iface := false
  listed := false
  worker := .idle
  taken := fun _ => 0
  given := fun _ => 0
  reading := 0
  checking := 0
  holders := 0
  early := false
  kfreed := false
  opens := []

namespace State

variable (s : State)

/-- The references of users. -/
def outstanding : ℕ := s.checking + s.holders

def take (rs : List Resource) : State := { s with taken := fun r => s.taken r + rs.count r }

def give (rs : List Resource) : State :=
  { s with
    given := fun r => s.given r + rs.count r
    early := s.early || (rs ≠ [] && s.outstanding ≠ 0) }

/-- `kref_put` with the last release of the native driver. -/
def krefPut : State :=
  let s := { s with refcount := s.refcount - 1 }
  if s.refcount = 0 then { s.give freeResources with iface := false, kfreed := true } else s

/-- `goto out`: the status stays as it is. -/
def openFails : State := { s with worker := .idle, opens := .failed s.status :: s.opens }

end State

/-! ## Steps -/

inductive Act where
  | openEndpoint
  /-- all of it, or the allocation with this number fails -/
  | alloc (fails : Option ℕ)
  | accept (fails : Option ℕ)
  | attach (found : Bool)
  | opened
  | closeEndpoint
  | release (fails : Option ℕ)
  | detach
  | lastRelease
  | closed
  | lookup
  | get
  | check
  /-- by a user, or by a request of the guest that uses the endpoint -/
  | reacquire
  | put
  deriving DecidableEq, Repr

/-- `omx_xen_endpoint_open`, up to the check of the status. -/
def openEndpoint (s : State) : State :=
  if s.status = .free then
    { s with refcount := 1, status := .initializing, worker := .opening }
  else { s with refcount := 1, opens := .refused (s.refcount ≠ 1) :: s.opens }

/-- `omx_xen_endpoint_close`, up to the check of the status. -/
def closeEndpoint (s : State) : State :=
  if s.status = .ok then { s with status := .closing, worker := .closing } else s

/-- The steps on a structure that is not freed. -/
def stepLive (s : State) : Act → Option State
  | .openEndpoint => if s.worker = .idle then some (openEndpoint s) else none
  | .alloc none =>
      if s.worker = .opening then some { s.take allocResources with worker := .allocated }
      else none
  -- what was allocated is freed again
  | .alloc (some n) =>
      if s.worker = .opening then
        some ((s.take (allocResources.take n)).give (allocResources.take n)).openFails
      else none
  | .accept none =>
      if s.worker = .allocated then some { s.take acceptResources with worker := .accepted }
      else none
  | .accept (some n) =>
      if s.worker = .allocated then some (s.take (acceptResources.take n)).openFails else none
  | .attach true =>
      if s.worker = .accepted then
        some { s with iface := true, listed := true, status := .ok, worker := .attached }
      else none
  | .attach false => if s.worker = .accepted then some s.openFails else none
  | .opened =>
      if s.worker = .attached then
        some { s with status := .ok, worker := .idle, opens := .opened :: s.opens }
      else none
  | .closeEndpoint => if s.worker = .idle then some (closeEndpoint s) else none
  | .release none =>
      if s.worker = .closing then some { s.give releaseResources with worker := .released }
      else none
  | .release (some n) =>
      if s.worker = .closing ∧ n ∈ releaseFailures then
        some { s.give (releaseResources.take n) with worker := .idle }
      else none
  | .detach =>
      if s.worker = .released then some { s with listed := false, worker := .detached } else none
  -- `synchronize_rcu` has waited for the read-side sections
  | .lastRelease =>
      if s.worker = .detached ∧ s.reading = 0 ∧ s.checking = 0 then
        some { s.give freeResources with iface := false, worker := .lastReleased }
      else none
  | .closed =>
      if s.worker = .lastReleased then some { s with status := .free, worker := .idle } else none
  | .lookup => if s.listed then some { s with reading := s.reading + 1 } else none
  | .get =>
      if 0 < s.reading then
        some { s with
          reading := s.reading - 1, checking := s.checking + 1, refcount := s.refcount + 1 }
      else none
  | .check =>
      if 0 < s.checking then
        if s.status = .ok then
          some { s with checking := s.checking - 1, holders := s.holders + 1 }
        else some { s with checking := s.checking - 1 }.krefPut
      else none
  | .reacquire =>
      if 0 < s.holders ∨ s.worker = .idle ∧ s.iface then
        some { s with holders := s.holders + 1, refcount := s.refcount + 1 }
      else none
  | .put =>
      if 0 < s.holders then some { s with holders := s.holders - 1 }.krefPut else none

def step (s : State) (a : Act) : Option State := if s.kfreed then none else stepLive s a

def machine : Machine State Act := { init := start, step }

/-! ## What is claimed -/

/-- The endpoint is counted, what it has is freed once and with the last reference, and opens that
fail or are refused leave nothing behind. -/
structure State.Counted (s : State) : Prop where
  refcount : s.status = .ok → s.refcount = 1 + s.outstanding
  once : ∀ r, s.given r ≤ s.taken r ∧ s.taken r ≤ s.given r + 1
  /-- between two requests it has everything if it is open, and nothing otherwise -/
  idle : s.worker = .idle → ∀ r, s.taken r = s.given r + if s.status = .ok then 1 else 0
  last : s.early = false ∧ s.kfreed = false
  opens : ∀ o ∈ s.opens, o = .opened ∨ o = .failed .free ∨ o = .refused false

end Xen2mx.Lifecycle
