/-
# `Xen2mx.Xenreg.Backend` — the requests of the guest

`omx_xen_process_message` takes a request off the ring and hands it to one of two
switches.  The request lies in memory that the guest writes: every field is a
number of its choice, and the only check the backend makes of one is for a
region that is already there, or is not.

    command               reads of the request
    create                id, eid, nr_segments, segs[i]: rid, eid, sid, nr_parts, gref[k],
                          gref_offset, nr_grefs, nr_pages, first_page_offset, length
    destroy               id, eid, nr_segments, segs[i]: rid, eid, sid
    open                  eid, the sizes and the offsets of the lists of the two queues
    close                 eid
    get info, the rest    eid

The table of endpoints is filled when the backend connects, so that an entry in
its bounds is never null, and `BUG_ON(!endpoint)` fires for none.
-/
import Xen2mx.Xenback.Handler
import Xen2mx.Xenreg.Segment

namespace Xen2mx.Xenreg

open Xenback (Func)

/-! ## Regions and endpoints -/

/-- `OMX_XEN_MAX_ENDPOINTS`. -/
def omxXenMaxEndpoints : ℕ := 256

/-- `OMX_USER_REGION_MAX`. -/
def omxUserRegionMax : ℕ := 256

/-- `struct omx_xen_user_region`; it has room for as many segments as it was created with. -/
structure Region (π : Type*) where
  id : Fin omxUserRegionMax
  totalLength : ℕ
  segments : List (Segment π)

inductive Status where
  | free | initializing | ok | closing
  deriving DecidableEq, Repr

/-- `struct omx_endpoint`; `iface` says whether the pointer is set. -/
structure Endpoint (π : Type*) where
  status : Status
  iface : Bool
  xenRegions : ℕ → Option (Region π)

/-- `struct omxback_dev`. -/
structure Backend (π : Type*) where
  endpoints : ℕ → Endpoint π

variable {π : Type*}

/-- `backend_create_omx`. -/
def backendCreateOmx : Backend π :=
  { endpoints := fun _ => { status := .free, iface := false, xenRegions := fun _ => none } }

namespace Backend

/-- The endpoint an index finds after it was narrowed to a `uint8_t`. -/
def endpoint (b : Backend π) (eid : ℕ) : Endpoint π := b.endpoints (eid % 256)

def setEndpoint (b : Backend π) (eid : ℕ) (ep : Endpoint π) : Backend π :=
  { endpoints := Function.update b.endpoints (eid % 256) ep }

def setStatus (b : Backend π) (eid : ℕ) (status : Status) (iface : Bool) : Backend π :=
  b.setEndpoint eid { b.endpoint eid with status, iface }

def xenRegion (b : Backend π) (eid id : ℕ) : Option (Region π) := (b.endpoint eid).xenRegions id

def setXenRegion (b : Backend π) (eid id : ℕ) (r : Option (Region π)) : Backend π :=
  b.setEndpoint eid { b.endpoint eid with xenRegions := Function.update (b.endpoint eid).xenRegions id r }

theorem xenRegion_setXenRegion (b : Backend π) (eid id eid' id' : ℕ) (r : Option (Region π)) :
    (b.setXenRegion eid id r).xenRegion eid' id' =
      if eid' % 256 = eid % 256 ∧ id' = id then r else b.xenRegion eid' id' := by
  by_cases heid : eid' % 256 = eid % 256
  · by_cases hid : id' = id
    · simp [xenRegion, setXenRegion, setEndpoint, endpoint, heid, hid]
    · simp [xenRegion, setXenRegion, setEndpoint, endpoint, heid, hid]
  · simp [xenRegion, setXenRegion, setEndpoint, endpoint, heid]

end Backend

/-! ## The requests -/

/-- `struct omx_ring_msg_create_user_region`. -/
structure CreateUserRegion where
  id : ℕ
  eid : ℕ
  nrSegments : ℕ
  segs : ℕ → RegisterSegment

/-- `struct omx_ring_msg_deregister_user_segment`, as far as the backend reads it. -/
structure DeregisterSegment where
  rid : ℕ
  eid : ℕ
  sid : ℕ

/-- `struct omx_ring_msg_destroy_user_region`. -/
structure DestroyUserRegion where
  id : ℕ
  eid : ℕ
  nrSegments : ℕ
  segs : ℕ → DeregisterSegment

/-- `struct omx_ring_msg_endpoint`. -/
structure OpenEndpoint where
  sendqGrefSize : ℕ
  recvqGrefSize : ℕ
  egrefSendqOffset : ℕ
  egrefRecvqOffset : ℕ

/-- `struct omx_xenif_request`.  The members of its union are kept apart, since only
the one that belongs to `func` is read. -/
structure Request where
  func : Func
  eid : ℕ
  cur : CreateUserRegion
  dur : DestroyUserRegion
  endpoint : OpenEndpoint
  /-- `data.pull.pull.shared` -/
  shared : Bool

/-- What the allocators, the hypervisor and the interface do for a request. -/
structure Outcome where
  /-- `omx_xen_create_user_region` finds the memory -/
  memory : Bool
  segment : ℕ → MapOutcome
  /-- part `k` of the list of segment `i` is unmapped -/
  unmap : ℕ → ℕ → Bool
  /-- opening gets as far as the list of the send queue, that of the receive queue, the end -/
  sendq : Bool
  recvq : Bool
  attached : Bool
  /-- `omx_xen_endpoint_release_resources` -/
  released : Bool

/-! ## Regions come and go -/

variable (g : Guest π) (e : Outcome)

/-- `omx_xen_create_user_region`. -/
def createUserRegion (b : Backend π) (id nrSegments eid : ℕ) : Except Fault (Ret × Backend π) :=
  if e.memory then
    if hid : id < omxUserRegionMax then
      if (b.xenRegion eid id).isSome then .ok (some .ebusy, b)
      else
        .ok (none, b.setXenRegion eid id (some
          { id := ⟨id, hid⟩, totalLength := 0, segments := List.replicate nrSegments .zero }))
    else .error .xenRegions
  else .ok (some .enomem, b)

/-- `omx_xen_register_user_segment`. -/
def registerUserSegment (b : Backend π) (out : MapOutcome) (req : RegisterSegment) :
    Except Fault (Ret × Backend π) :=
  -- the loop over `gref[k]` comes before everything else
  if hparts : req.nrParts ≤ omxXenGrantPagesMax then
    check (req.rid < omxUserRegionMax) .xenRegions <|
      match b.xenRegion req.eid req.rid with
      | none => .ok (some .einval, b)
      | some region =>
          match region.segments[req.sid]? with
          | none => .error .segments
          | some seg =>
              (seg.register g out req hparts).bind fun (ret, seg') =>
                .ok (ret, b.setXenRegion req.eid req.rid (some { region with
                  segments := region.segments.set req.sid seg'
                  totalLength :=
                    if ret = none then region.totalLength + req.length else region.totalLength }))
  else .error .gref

/-- The loop over `seg->vm_gref`, from part `k` on with `n` parts to go. -/
def Segment.unmapParts (seg : Segment π) (unmapped : ℕ → Bool) : (n k : ℕ) → Except Fault Ret
  | 0, _ => .ok none
  | n + 1, k =>
      check (k < omxXenGrantPagesMax) .gref <|
        check (k < seg.areas) .nullPointer <|
          if unmapped k then unmapParts seg unmapped n (k + 1) else .ok (some .grant)

/-- `omx_xen_deregister_user_segment`; its check of `eid` never fails. -/
def deregisterUserSegment (b : Backend π) (unmapped : ℕ → Bool) (req : DeregisterSegment) :
    Except Fault Ret :=
  check (req.rid < omxUserRegionMax) .xenRegions <|
    match b.xenRegion req.eid req.rid with
    | none => .ok none
    | some region =>
        match region.segments[req.sid]? with
        | none => .error .segments
        | some seg =>
            if seg.unmap then seg.unmapParts unmapped seg.nrParts 0 else .ok (some .einval)

/-- `omx_xen_destroy_user_region`. -/
def destroyUserRegion (b : Backend π) (id eid : ℕ) : Except Fault (Ret × Backend π) :=
  if eid % 256 < 255 then
    check (id < omxUserRegionMax) .xenRegions <|
      match b.xenRegion eid id with
      | none => .ok (none, b)
      | some region => .ok (none, b.setXenRegion eid region.id none)
  else .ok (some .einval, b)

/-! ## The two switches -/

/-- One iteration over the segments of a create message: what it returns replaces
what the creation of the region, and the segments before it, returned. -/
def registerNth (cur : CreateUserRegion) (i : ℕ) (s : Ret × Backend π) :
    Except Fault (Ret × Backend π) :=
  check (i < 2) .segs (registerUserSegment g s.2 (e.segment i) (cur.segs i))

/-- `OMX_CMD_XEN_CREATE_USER_REGION`. -/
def dispatchCreate (b : Backend π) (cur : CreateUserRegion) : Except Fault (Ret × Backend π) :=
  (createUserRegion e b cur.id cur.nrSegments cur.eid).bind
    (loop (registerNth g e cur) cur.nrSegments 0)

/-- One iteration over the segments of a destroy message: its region and endpoint
replace those of the message, and its error is only printed. -/
def deregisterNth (b : Backend π) (dur : DestroyUserRegion) (i : ℕ) (_ : ℕ × ℕ) :
    Except Fault (ℕ × ℕ) :=
  check (i < 2) .segs <|
    (deregisterUserSegment b (e.unmap i) (dur.segs i)).bind fun _ =>
      .ok ((dur.segs i).rid, (dur.segs i).eid)

/-- `OMX_CMD_XEN_DESTROY_USER_REGION`. -/
def dispatchDestroy (b : Backend π) (dur : DestroyUserRegion) : Except Fault (Ret × Backend π) :=
  (loop (deregisterNth e b dur) dur.nrSegments 0 (dur.id, dur.eid)).bind fun s =>
    destroyUserRegion b s.1 s.2

/-- The loop over a list of references of `size` entries, on one page. -/
def readQueueGrefs (offset size : ℕ) : Except Fault Unit :=
  loop (fun i _ => check (offset + 4 * i + 4 ≤ pageSize) .grefList (.ok ())) size 0 ()

/-- `omx_xen_endpoint_open`. -/
def endpointOpen (b : Backend π) (eid : ℕ) (req : OpenEndpoint) : Except Fault (Ret × Backend π) :=
  match (b.endpoint eid).status with
  | .ok => .ok (none, b)
  | .initializing | .closing => .ok (some .ebusy, b)
  | .free =>
      if e.sendq then
        (readQueueGrefs req.egrefSendqOffset req.sendqGrefSize).bind fun _ =>
          if e.recvq then
            (readQueueGrefs req.egrefRecvqOffset req.recvqGrefSize).bind fun _ =>
              if e.attached then .ok (none, b.setStatus eid .ok true)
              else .ok (some .einval, b.setStatus eid .initializing false)
          else .ok (some .efault, b.setStatus eid .initializing false)
      else .ok (some .efault, b.setStatus eid .initializing false)

/-- `omx_xen_endpoint_close`. -/
def endpointClose (b : Backend π) (eid : ℕ) : Ret × Backend π :=
  match (b.endpoint eid).status with
  | .free => (none, b)
  | .initializing | .closing => (some .einval, b)
  | .ok =>
      if e.released then (none, b.setStatus eid .free false)
      else (some .einval, b.setStatus eid .closing true)

/-- `omx_xenback_get_endpoint`, where the index is not narrowed. -/
def getEndpoint (b : Backend π) (eid : ℕ) : Except Fault (Endpoint π) :=
  check (eid < omxXenMaxEndpoints) .endpoints (.ok (b.endpoints eid))

/-- `omx_xenback_process_misc`. -/
def processMisc (b : Backend π) (q : Request) : Except Fault (Backend π) :=
  match q.func with
  | .getEndpointInfo | .getBoardInfo => (getEndpoint b q.eid).bind fun _ => .ok b
  | .xenOpenEndpoint => (endpointOpen e b q.eid q.endpoint).bind fun (_, b') => .ok b'
  | .xenCloseEndpoint => .ok (endpointClose e b q.eid).2
  | .xenCreateUserRegion => (dispatchCreate g e b q.cur).bind fun (_, b') => .ok b'
  | .xenDestroyUserRegion => (dispatchDestroy e b q.dur).bind fun (_, b') => .ok b'
  | _ => .ok b

/-- `omx_xenback_process_specific`, down to the first lines of `omx_ioctl_pull` and of
`omx_xen_setup_and_send_mediumva`, which is only a `BUG`. -/
def processSpecific (b : Backend π) (q : Request) : Except Fault (Backend π) :=
  (getEndpoint b q.eid).bind fun ep =>
    match q.func with
    | .pull => check (q.shared = false) .bug (check (ep.iface = true) .bug (.ok b))
    | .sendMediumva => .error .bug
    | _ => .ok b

/-- What `omx_xen_process_message` makes of a request. -/
def processRequest (b : Backend π) (q : Request) : Except Fault (Backend π) :=
  if q.func = .null then .ok b
  else if q.func.isMisc then processMisc g e b q
  else processSpecific b q

/-! ## The machine -/

/-- The guest writes its pages and a request; the backend processes it. -/
structure Act (π : Type*) where
  guest : Guest π
  outcome : Outcome
  request : Request

/-- A backend that processes one request after the other, until one stops it. -/
def machine : Machine (Except Fault (Backend π)) (Act π) where
  init := .ok backendCreateOmx
  step
    | .ok b, a => some (processRequest a.guest a.outcome b a.request)
    | .error _, _ => none

end Xen2mx.Xenreg
