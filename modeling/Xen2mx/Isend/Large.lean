/-
# `Xen2mx.Isend.Large` — large sends, their slots and their regions

A large send takes one of the slots that limit how many of them there are, and a region of
memory that it reserves; it announces both in a rndv, and waits for the ack of the rndv and for
the notify that tells that the data was pulled.  The two come in any order.

    queue                         state                    has slot and region
    need_resources_send_req_q     NEED_RESOURCES           the slot, perhaps
    partner's need_seqnum queue   NEED_SEQNUM              both
    non_acked_req_q               NEED_ACK | NEED_REPLY    both
    non_acked_req_q               NEED_ACK                 returned: the notify came first
    large_send_need_reply_req_q   NEED_REPLY               both

The queues hold the requests of all partners.  Other requests share them; when a send is
queued because of those, when it is throttled, and which regions there are to get, is part
of the action.  A region is used by pulls too, which do not reserve it.

`gets` and `puts` count what each request did to a region.  The code has no such counts.
-/
import Mathlib.Data.BitVec
import Mathlib.Logic.Function.Basic
import Xen2mx.Lib.Runs

namespace Xen2mx.Isend.Large

/-- `OMX_USER_REGION_MAX`. -/
abbrev userRegionMax : ℕ := 256

abbrev RegionId := Fin userRegionMax

instance : NeZero userRegionMax := inferInstance

/-! ## Requests and regions -/

/-- A request of type `OMX_REQUEST_TYPE_SEND_LARGE`, over partners `ι`. -/
structure LargeReq (ι : Type*) where
  id : ℕ
  partner : ι
  /-- `OMX_REQUEST_RESOURCE_SEND_LARGE_REGION` is missing. -/
  missingSlot : Bool
  /-- `OMX_REQUEST_STATE_NEED_REPLY`. -/
  needReply : Bool
  region : RegionId
  regionSeqnum : BitVec 8
  deriving DecidableEq

instance {ι : Type*} [DecidableEq ι] : LawfulBEq (LargeReq ι) := inferInstance

/-- `struct omx__large_region`. -/
structure Region where
  /-- The slot of the map was used before; until then its fields are what `malloc` left. -/
  created : Bool
  /-- The region is registered: its slot of the map is not free. -/
  registered : Bool
  /-- A single segment: the regcache may keep it. -/
  contigous : Bool
  useCount : ℤ
  lastSeqnum : BitVec 8
  reserver : Option ℕ
  deriving DecidableEq

/-- `omx__globals.regcache` and `omx__globals.parallel_regcache`. -/
structure Regcache where
  regcache : Bool
  parallelRegcache : Bool

variable {ι : Type*}

structure Endpoint (ι : Type*) where
  largeSendsAvailNr : ℕ
  region : RegionId → Region
  needResourcesReqQ : List (LargeReq ι)
  /-- `need_seqnum_send_req_q` of every partner. -/
  needSeqnumReqQ : List (LargeReq ι)
  nonAckedReqQ : List (LargeReq ι)
  largeSendNeedReplyReqQ : List (LargeReq ι)
  /-- The regions of the pulls that the driver works on. -/
  pulling : List (RegionId)
  /-- The requests so far. -/
  next : ℕ
  gets : ℕ → ℕ
  puts : ℕ → ℕ

namespace Endpoint

/-- `omx__endpoint_large_region_map_init`.  It leaves the reserver of a region as `malloc` had it;
`none` stands for whatever that is. -/
def init : Endpoint ι :=
  { largeSendsAvailNr := userRegionMax / 2
    region := fun _ =>
      { created := false
        registered := false
        contigous := false
        useCount := 0
        lastSeqnum := 23
        reserver := none }
    needResourcesReqQ := []
    needSeqnumReqQ := []
    nonAckedReqQ := []
    largeSendNeedReplyReqQ := []
    pulling := []
    next := 0
    gets := fun _ => 0
    puts := fun _ => 0 }

variable (ep : Endpoint ι)

def setRegion (r : RegionId) (region : Region) : Endpoint ι :=
  { ep with region := Function.update ep.region r region }

/-! ## Regions -/

/-- How `omx__get_region` comes by a region. -/
inductive Found where
  /-- A slot of the map that is free, or was of an unused region of the cache. -/
  | create (r : RegionId) (contigous : Bool)
  /-- "regcache reusing region". -/
  | reuse (r : RegionId)

/-- `omx__get_region` for `reserver`, or for a pull: the region, if there is one. -/
def getRegion (z : Regcache) (reserver : Option ℕ) : Found → Option (Endpoint ι)
  | .create r contigous =>
      let region := ep.region r
      if region.registered ∧ ¬ (z.regcache ∧ region.contigous ∧ region.useCount = 0) then none
      else
        some (ep.setRegion r
          { region with
            created := true
            registered := true
            contigous
            useCount := 1
            reserver })
  | .reuse r =>
      let region := ep.region r
      if z.regcache ∧ region.registered ∧ region.contigous ∧
          (reserver = none ∨ region.reserver = none) ∧
          (z.parallelRegcache ∨ region.useCount = 0) then
        some (ep.setRegion r
          { region with
            useCount := region.useCount + 1
            reserver := if reserver = none then region.reserver else reserver })
      else none

def Found.region : Found → RegionId
  | .create r _ | .reuse r => r

/-- `omx__put_region`, by the request that reserved the region or by a pull. -/
def putRegion (z : Regcache) (r : RegionId) (reserved : Bool) : Endpoint ι :=
  let region := ep.region r
  ep.setRegion r
    { region with
      useCount := region.useCount - 1
      reserver := if reserved then none else region.reserver
      registered := region.registered && (z.regcache && region.contigous) }

/-- `omx__put_region` and `large_sends_avail_nr++`, which go together everywhere. -/
def putLarge (z : Regcache) (req : LargeReq ι) : Endpoint ι :=
  { ep.putRegion z req.region true with
    largeSendsAvailNr := ep.largeSendsAvailNr + 1
    puts := Function.update ep.puts req.id (ep.puts req.id + 1) }

/-! ## Sending -/

/-- `omx__alloc_setup_isend_large`, which may find no slot, a slot but no region, or both;
then the request is throttled, or sent. -/
def allocSetup (z : Regcache) (req : LargeReq ι) (found : Option Found) (throttled : Bool) :
    Option (Endpoint ι) :=
  if req.missingSlot ∧ ep.largeSendsAvailNr = 0 then
    some { ep with needResourcesReqQ := req :: ep.needResourcesReqQ }
  else
    let req' := { req with missingSlot := false }
    let ep' :=
      if req.missingSlot then { ep with largeSendsAvailNr := ep.largeSendsAvailNr - 1 } else ep
    match found with
    | none => some { ep' with needResourcesReqQ := req' :: ep'.needResourcesReqQ }
    | some found =>
        (ep'.getRegion z (some req.id) found).map fun ep'' =>
          let region := ep''.region found.region
          let req'' := { req' with region := found.region, regionSeqnum := region.lastSeqnum }
          let ep''' :=
            { ep''.setRegion found.region { region with lastSeqnum := region.lastSeqnum + 1 } with
              gets := Function.update ep''.gets req.id (ep''.gets req.id + 1) }
          if throttled then { ep''' with needSeqnumReqQ := ep'''.needSeqnumReqQ ++ [req''] }
          else
            { ep''' with nonAckedReqQ := ep'''.nonAckedReqQ ++ [{ req'' with needReply := true }] }

/-- `omx__submit_isend_large`. -/
def submit (z : Regcache) (i : ι) (delayed : Bool) (found : Option Found) (throttled : Bool) :
    Option (Endpoint ι) :=
  let req : LargeReq ι := ⟨ep.next, i, true, false, 0, 0⟩
  let ep' := { ep with next := ep.next + 1 }
  if ep.needResourcesReqQ ≠ [] ∨ delayed then
    some { ep' with needResourcesReqQ := ep'.needResourcesReqQ ++ [req] }
  else ep'.allocSetup z req found throttled

/-- One round of the loop of `omx__process_delayed_requests`. -/
def processDelayed (z : Regcache) (found : Option Found) (throttled : Bool) : Option (Endpoint ι) :=
  match ep.needResourcesReqQ with
  | [] => none
  | req :: queue => { ep with needResourcesReqQ := queue }.allocSetup z req found throttled

variable [DecidableEq ι]

/-- `omx__setup_isend_rndv` from `omx__process_throttling_requests`. -/
def processThrottling (req : LargeReq ι) : Option (Endpoint ι) :=
  if req ∈ ep.needSeqnumReqQ then
    some { ep with
      needSeqnumReqQ := ep.needSeqnumReqQ.erase req
      nonAckedReqQ := ep.nonAckedReqQ ++ [{ req with needReply := true }] }
  else none

/-! ## Acks, nacks and notifies -/

/-- `omx__mark_request_acked`, of a success or of an error. -/
def markRequestAcked (z : Regcache) (req : LargeReq ι) (success : Bool) : Endpoint ι :=
  let ep' := { ep with nonAckedReqQ := ep.nonAckedReqQ.erase req }
  if success then
    if req.needReply then
      { ep' with largeSendNeedReplyReqQ := ep'.largeSendNeedReplyReqQ ++ [req] }
    else ep'
  else ep'.putLarge z req

/-- The request of a notify: whoever reserved the region, if the sequence number is its own.
What the code reads of a request that is gone is not told. -/
def notified (r : RegionId) (regionSeqnum : BitVec 8) : Option (LargeReq ι) :=
  (ep.region r).reserver.bind fun id =>
    (ep.needSeqnumReqQ ++ ep.nonAckedReqQ ++ ep.largeSendNeedReplyReqQ).find? fun req =>
      req.id = id ∧ req.regionSeqnum = regionSeqnum

/-- `omx__process_recv_notify`. -/
def processRecvNotify (z : Regcache) (r : RegionId) (regionSeqnum : BitVec 8) :
    Endpoint ι :=
  match ep.notified r regionSeqnum with
  | none => ep
  | some req =>
      let ep' := ep.putLarge z req
      if req ∈ ep'.nonAckedReqQ then
        -- "keep the request in the non_acked_req_q"
        { ep' with
          nonAckedReqQ := ep'.nonAckedReqQ.map fun req' =>
            if req' = req then { req with needReply := false } else req' }
      else
        -- a throttled request is completed too, but stays in the queue of its partner
        { ep' with largeSendNeedReplyReqQ := ep'.largeSendNeedReplyReqQ.erase req }

/-! ## Cleanup -/

/-- `omx__complete_unsent_send_request`, with what `omx__release_unsent_send_resources` does to
a request that still lacks its region, -/
def completeDelayed (req : LargeReq ι) : Endpoint ι :=
  let ep' := { ep with needResourcesReqQ := ep.needResourcesReqQ.erase req }
  if req.missingSlot then ep' else { ep' with largeSendsAvailNr := ep'.largeSendsAvailNr + 1 }

/-- and to one that lacks nothing. -/
def completeThrottled (z : Regcache) (req : LargeReq ι) : Endpoint ι :=
  { ep with needSeqnumReqQ := ep.needSeqnumReqQ.erase req }.putLarge z req

/-- "Complete send large that were acked without being notified." -/
def completeNeedReply (req : LargeReq ι) : Endpoint ι :=
  { ep with largeSendNeedReplyReqQ := ep.largeSendNeedReplyReqQ.erase req }

/-- `omx__partner_cleanup`, its loops over the queues with large sends. -/
def partnerCleanup (z : Regcache) (i : ι) : Endpoint ι :=
  let mine := fun req : LargeReq ι => decide (req.partner = i)
  let ep₁ := (ep.nonAckedReqQ.filter mine).foldl (fun ep req => ep.markRequestAcked z req false) ep
  let ep₂ := (ep₁.largeSendNeedReplyReqQ.filter mine).foldl (fun ep req => ep.completeNeedReply req) ep₁
  let ep₃ := (ep₂.needResourcesReqQ.filter mine).foldl (fun ep req => ep.completeDelayed req) ep₂
  (ep₃.needSeqnumReqQ.filter mine).foldl (fun ep req => ep.completeThrottled z req) ep₃

end Endpoint

/-! ## The machine -/

inductive Action (ι : Type*) where
  | submit (i : ι) (delayed : Bool) (found : Option Endpoint.Found) (throttled : Bool)
  | processDelayed (found : Option Endpoint.Found) (throttled : Bool)
  | processThrottling (req : LargeReq ι)
  /-- The ack of a rndv. -/
  | ack (req : LargeReq ι)
  | nack (req : LargeReq ι)
  | notify (r : RegionId) (regionSeqnum : BitVec 8)
  /-- Also what a resend timeout ends in. -/
  | partnerCleanup (i : ι)
  /-- A pull gets its region, -/
  | pull (found : Endpoint.Found)
  /-- and puts it. -/
  | pullDone (r : RegionId)
  /-- `omx__endpoint_regcache_clean`, and the end of an unused region whose slot then stays free. -/
  | regcacheClean (r : RegionId)

variable [DecidableEq ι]

/-- Resending a rndv changes nothing of this. -/
def step (z : Regcache) (ep : Endpoint ι) : Action ι → Option (Endpoint ι)
  | .submit i delayed found throttled => ep.submit z i delayed found throttled
  | .processDelayed found throttled => ep.processDelayed z found throttled
  | .processThrottling req => ep.processThrottling req
  | .ack req => if req ∈ ep.nonAckedReqQ then some (ep.markRequestAcked z req true) else none
  | .nack req => if req ∈ ep.nonAckedReqQ then some (ep.markRequestAcked z req false) else none
  | .notify r regionSeqnum => some (ep.processRecvNotify z r regionSeqnum)
  | .partnerCleanup i => some (ep.partnerCleanup z i)
  | .pull found =>
      (ep.getRegion z none found).map fun ep' => { ep' with pulling := found.region :: ep'.pulling }
  | .pullDone r =>
      if r ∈ ep.pulling then
        some { ep.putRegion z r false with pulling := ep.pulling.erase r }
      else none
  | .regcacheClean r =>
      if (ep.region r).useCount = 0 then
        some (ep.setRegion r { ep.region r with registered := false })
      else none

variable (ι) in
def machine (z : Regcache) : Machine (Endpoint ι) (Action ι) := { init := .init, step := step z }

end Xen2mx.Isend.Large
