/-
# `Xen2mx.Sendq.Endpoint` — medium sends, pulls, and the expected events they wait for

The driver reports each fragment of a medium message that it sent, and each pull that is
over, by an expected event.  An endpoint has `avail_exp_events` credits for them, so that the
queue of these events is never full; a medium message also needs an entry of the send queue
for each of its fragments.

    medium    needs an event for each fragment, then the entries, then a sequence number
    pull      needs an event, then a region, then a handle of the driver

A request that misses something waits with what it has.  It is tried again later, or is
completed unsent when its partner is cleaned up.  A medium message that was posted keeps its
entries until it is acked, and is posted again after a while if it is not.

What other requests do is a parameter of the actions: whether one of them waits for resources
already, and whether the partner acked so little that a send has to wait.  The driver takes
the fragments of a message until one fails, and reports what it took in any order.  From the
event of its pull on, a large receive is a notify, which takes none of this, and is not
followed.

Two failures of the code have no state after them.  If the first post of a message fails
before its last fragment, the loop that copies the others does not end (`copyRest`).  And
an event whose entry has no user, or one that was freed or never posted, is not
defined.
-/
import Mathlib.Algebra.Group.Nat.Defs
import Xen2mx.Lib.Runs
import Xen2mx.Sendq.Map

namespace Xen2mx.Sendq

/-- The sizes of the configuration, and what is checked when it is compiled. -/
structure Sizes where
  /-- `OMX_SENDQ_ENTRY_NR` and `OMX_EXP_EVENTQ_ENTRY_NR`. -/
  entryNr : ℕ
  /-- `OMX_MEDIUM_FRAG_LENGTH_MAX`. -/
  mediumFragLengthMax : ℕ
  batch_pos : 0 < entryNr / 4
  frag_pos : 0 < mediumFragLengthMax

/-- 1024 entries, and fragments of a page. -/
def Sizes.default : Sizes where
  entryNr := 1024
  mediumFragLengthMax := 4096
  batch_pos := Nat.succ_pos 255
  frag_pos := Nat.succ_pos 4095

namespace Sizes

variable (z : Sizes)

/-- `OMX_EXP_RELEASE_SLOTS_BATCH_NR`. -/
def batchNr : ℕ := z.entryNr / 4

/-- The credits of a new endpoint: "up to BATCH_NR-1 event slots may have been processed but not
released to the kernel yet". -/
def availExpEvents : ℕ := z.entryNr - (z.batchNr - 1)

/-- The fragments of a message. -/
def fragsNr (length : ℕ) : ℕ := (length + z.mediumFragLengthMax - 1) / z.mediumFragLengthMax

end Sizes

/-- `OMX_SMALL_MSG_LENGTH_MAX`. -/
def smallMsgLengthMax : ℕ := 128

/-! ## Requests -/

/-- A send of type `OMX_REQUEST_TYPE_SEND_MEDIUMSQ`. -/
structure MediumsqReq where
  needResources : Bool
  needSeqnum : Bool
  driverMediumsqSending : Bool
  needAck : Bool
  /-- `OMX_REQUEST_RESOURCE_EXP_EVENT` is missing. -/
  expEvent : Bool
  /-- `OMX_REQUEST_RESOURCE_SENDQ_SLOT` is missing. -/
  sendqSlot : Bool
  resends : ℕ
  fragsNr : ℕ
  fragsPendingNr : ℕ
  sendqMapIndex : List ℕ
  /-- What is in the memory before the array of indexes. -/
  beforeIndex : ℕ
  deriving DecidableEq, Repr

/-- A large receive that is not pulled yet. -/
structure PullReq where
  needResources : Bool
  driverPulling : Bool
  expEvent : Bool
  largeRegion : Bool
  pullHandle : Bool
  deriving DecidableEq, Repr

inductive Req where
  | mediumsq (req : MediumsqReq)
  | pull (req : PullReq)
  deriving DecidableEq, Repr

/-- The request is in `need_resources_send_req_q`. -/
def Req.needResources : Req → Bool
  | .mediumsq req => req.needResources
  | .pull req => req.needResources

/-- What the driver reports: the fragment of an entry was sent, the pull of a request is over. -/
inductive ExpEvent where
  | sendMediumsqFragDone (sendqIndex : ℕ)
  | pullDone (id : ℕ)
  deriving DecidableEq, Repr

structure Endpoint where
  /-- The requests that are not completed. -/
  req : ℕ → Option Req
  /-- The next request. -/
  next : ℕ
  availExpEvents : ℕ
  sendqMap : SendqMap
  /-- What the driver accepted and has not reported. -/
  inDriver : List ExpEvent
  /-- What it reported, and the library has not processed. -/
  expEventq : List ExpEvent
  /-- The number of events that were processed since slots were last released. -/
  unreleased : ℕ
  /-- The entries that requests got, and put. -/
  taken : ℕ → List ℕ
  returned : ℕ → List ℕ

namespace Endpoint

variable (z : Sizes) (ep : Endpoint)

def init : Endpoint where
  req := fun _ => none
  next := 0
  availExpEvents := z.availExpEvents
  sendqMap := SendqMap.init z.entryNr
  inDriver := []
  expEventq := []
  unreleased := 0
  taken := fun _ => []
  returned := fun _ => []

def set (id : ℕ) (req : Option Req) : Endpoint := { ep with req := Function.update ep.req id req }

theorem set_req_self (ep : Endpoint) (id : ℕ) (req : Option Req) : (ep.set id req).req id = req :=
  Function.update_self ..

theorem set_req_of_ne (ep : Endpoint) {id i : ℕ} (h : i ≠ id) (req : Option Req) :
    (ep.set id req).req i = ep.req i := Function.update_of_ne h ..

/-! ## Medium sends -/

/-- The loop that copies the fragments after one whose post failed.  It tests `j` and increments
`i`; the value of `i` when it ends, if it does in so many rounds. -/
def copyRest (fragsNr j : ℕ) : ℕ → ℕ → Option ℕ
  | 0, _ => none
  | rounds + 1, i => if j < fragsNr then copyRest fragsNr j rounds (i + 1) else some i

/-- `omx__post_isend_mediumsq`, if it returns; `accepted` fragments are taken before a post fails. -/
def postIsendMediumsq (req : MediumsqReq) (accepted : ℕ) : Option (Endpoint × MediumsqReq) :=
  let posted : Endpoint :=
    { ep with
      inDriver := ep.inDriver ++
        ((req.sendqMapIndex.take req.fragsNr).take accepted).map .sendMediumsqFragDone }
  if req.fragsNr ≤ accepted then
    some (posted,
      { req with
        fragsPendingNr := req.fragsNr
        resends := req.resends + 1
        driverMediumsqSending := true })
  else
    -- "finish copying frags if not done already"
    (if req.resends = 0 then copyRest req.fragsNr (accepted + 1) req.fragsNr accepted
      else some accepted).map fun i =>
    ({ posted with availExpEvents := ep.availExpEvents + (req.fragsNr - i) },
      if i = 0 then { req with fragsPendingNr := i }
      else
        { req with
          fragsPendingNr := i
          resends := req.resends + 1
          driverMediumsqSending := true })

theorem copyRest_of_lt {fragsNr j : ℕ} (h : j < fragsNr) (rounds i : ℕ) :
    copyRest fragsNr j rounds i = none := by
  induction rounds generalizing i with
  | zero => rfl
  | succ rounds ih =>
      rw [copyRest, if_pos h]
      exact ih (i + 1)

theorem copyRest_eq_some {fragsNr j rounds i i' : ℕ} (h : copyRest fragsNr j rounds i = some i') :
    i' = i ∧ fragsNr ≤ j := by
  rcases Nat.lt_or_ge j fragsNr with hlt | hge
  · exact nomatch (copyRest_of_lt hlt rounds i).symm.trans h
  · cases rounds with
    | zero => exact nomatch h
    | succ rounds =>
        rw [copyRest, if_neg (Nat.not_lt_of_ge hge)] at h
        cases h
        exact ⟨rfl, hge⟩

/-- The driver took `n` fragments, and the credits of the others are available again. -/
theorem postIsendMediumsq_eq_some {ep ep' : Endpoint} {req req' : MediumsqReq} {accepted : ℕ}
    (h : ep.postIsendMediumsq req accepted = some (ep', req')) :
    ∃ n, n ≤ req.fragsNr ∧
      ep' =
        { ep with
          inDriver := ep.inDriver ++
            ((req.sendqMapIndex.take req.fragsNr).take n).map .sendMediumsqFragDone
          availExpEvents := ep.availExpEvents + (req.fragsNr - n) } ∧
      req' =
        { req with
          fragsPendingNr := n
          resends := req'.resends
          driverMediumsqSending := req'.driverMediumsqSending } ∧
      (n ≠ 0 → req'.driverMediumsqSending = true) ∧
      (n = 0 → 0 < req.fragsNr → req'.driverMediumsqSending = req.driverMediumsqSending) := by
  rw [postIsendMediumsq] at h
  dsimp only at h
  split at h
  case isTrue hle =>
    cases h
    refine ⟨req.fragsNr, Nat.le_refl _, ?_, rfl, fun _ => rfl,
      fun hz hpos => absurd hz (Nat.pos_iff_ne_zero.1 hpos)⟩
    rw [List.take_take, List.take_take, Nat.min_self, Nat.min_eq_right hle, Nat.sub_self, Nat.add_zero]
  case isFalse hlt =>
    obtain ⟨i, hi, heq⟩ := Option.map_eq_some_iff.1 h
    obtain rfl : i = accepted := by
      split at hi
      · exact (copyRest_eq_some hi).1
      · exact (Option.some.inj hi).symm
    obtain ⟨rfl, rfl⟩ := Prod.mk.inj heq
    refine ⟨i, Nat.le_of_lt (Nat.lt_of_not_le hlt), rfl, ?_, fun hne => ?_, fun hz _ => ?_⟩
    · split <;> rfl
    · rw [if_neg hne]
    · rw [if_pos hz]

/-- `omx__setup_isend_mediumsq`. -/
def setupIsendMediumsq (req : MediumsqReq) (accepted : ℕ) : Option (Endpoint × MediumsqReq) :=
  (ep.postIsendMediumsq { req with resends := 0 } accepted).map
    fun (ep, req) => (ep, { req with needAck := true })

/-- `need_exp_events` of `omx__alloc_setup_isend_mediumsq`, if there are enough. -/
def needExpEvents (req : MediumsqReq) : Option (Endpoint × MediumsqReq) :=
  if req.expEvent then
    if ep.availExpEvents < req.fragsNr then none
    else
      some ({ ep with availExpEvents := ep.availExpEvents - req.fragsNr },
        { req with expEvent := false })
  else some (ep, req)

/-- `need_sendq_map_slot` of `omx__alloc_setup_isend_mediumsq`, if there are enough. -/
def needSendqMapSlot (id : ℕ) (req : MediumsqReq) : Option (Option (Endpoint × MediumsqReq)) :=
  (ep.sendqMap.get z.entryNr req.fragsNr id).map fun got =>
    got.map fun (sendqMap, founds) =>
      ({ ep with sendqMap, taken := Function.update ep.taken id founds },
        { req with sendqSlot := false, sendqMapIndex := founds })

theorem needSendqMapSlot_eq_some {z : Sizes} {ep ep' : Endpoint} {id : ℕ} {req req' : MediumsqReq}
    (h : needSendqMapSlot z ep id req = some (some (ep', req'))) :
    req'.sendqMapIndex.length = req.fragsNr ∧
      ep' =
        { ep with
          sendqMap := ep'.sendqMap
          taken := Function.update ep.taken id req'.sendqMapIndex } ∧
      req' = { req with sendqSlot := false, sendqMapIndex := req'.sendqMapIndex } := by
  rw [needSendqMapSlot] at h
  obtain ⟨got, hget, heq⟩ := Option.map_eq_some_iff.1 h
  obtain ⟨⟨map, founds⟩, rfl, heq⟩ := Option.map_eq_some_iff.1 heq
  cases heq
  exact ⟨SendqMap.get_length hget, rfl, rfl⟩

/-- `omx__alloc_setup_isend_mediumsq`: false is `OMX_INTERNAL_MISSING_RESOURCES`. -/
def allocSetupIsendMediumsq (id : ℕ) (req : MediumsqReq) (throttling : Bool) (accepted : ℕ) :
    Option (Bool × Endpoint × MediumsqReq) :=
  match ep.needExpEvents req with
  | none => some (false, ep, req)
  | some (ep, req) =>
      (needSendqMapSlot z ep id req).bind fun
        | none => some (false, ep, req)
        | some (ep, req) =>
            if throttling then some (true, ep, { req with needSeqnum := true })
            else (ep.setupIsendMediumsq req accepted).map fun (ep, req) => (true, ep, req)

/-- The caller queues a request that misses something. -/
def storeMediumsq (id : ℕ) : Bool × Endpoint × MediumsqReq → Endpoint
  | (success, ep, req) => ep.set id (some (.mediumsq { req with needResources := !success }))

/-- A request of `need_resources_send_req_q` that is one of these. -/
def someDelayed : Bool :=
  (List.range ep.next).any fun id => (ep.req id).any Req.needResources

/-- `omx__submit_isend_medium`. -/
def submitIsendMedium (length beforeIndex : ℕ) (othersDelayed throttling : Bool) (accepted : ℕ) :
    Option Endpoint :=
  let id := ep.next
  let req : MediumsqReq :=
    { needResources := false
      needSeqnum := false
      driverMediumsqSending := false
      needAck := false
      expEvent := true
      sendqSlot := true
      resends := 0
      fragsNr := z.fragsNr length
      fragsPendingNr := 0
      sendqMapIndex := []
      beforeIndex }
  let ep' := { ep with next := ep.next + 1 }
  if ep.someDelayed || othersDelayed then some (storeMediumsq id (false, ep', req))
  else (allocSetupIsendMediumsq z ep' id req throttling accepted).map (storeMediumsq id)

/-! ## Pulls -/

/-- `need_exp_event` of `omx__alloc_setup_pull`, if there is one. -/
def needExpEvent (req : PullReq) : Option (Endpoint × PullReq) :=
  if req.expEvent then
    if ep.availExpEvents < 1 then none
    else some ({ ep with availExpEvents := ep.availExpEvents - 1 }, { req with expEvent := false })
  else some (ep, req)

/-- `omx__alloc_setup_pull`; whether there is a region, and whether the driver takes the pull. -/
def allocSetupPull (id : ℕ) (req : PullReq) (region handle : Bool) : Bool × Endpoint × PullReq :=
  match ep.needExpEvent req with
  | none => (false, ep, req)
  | some (ep, req) =>
      if req.largeRegion && !region then (false, ep, req)
      else if handle then
        (true, { ep with inDriver := ep.inDriver ++ [.pullDone id] },
          { req with largeRegion := false, pullHandle := false, driverPulling := true })
      else (false, ep, { req with largeRegion := false })

def storePull (id : ℕ) : Bool × Endpoint × PullReq → Endpoint
  | (success, ep, req) => ep.set id (some (.pull { req with needResources := !success }))

/-- `omx__submit_pull` of a message that is not empty. -/
def submitPull (region handle : Bool) : Endpoint :=
  storePull ep.next
    (allocSetupPull { ep with next := ep.next + 1 } ep.next
      { needResources := false
        driverPulling := false
        expEvent := true
        largeRegion := true
        pullHandle := true } region handle)

/-! ## Completion -/

/-- `omx__send_complete`, which has nothing specific to do for a throttled request. -/
def sendComplete (id : ℕ) (req : MediumsqReq) : Endpoint :=
  if req.needSeqnum then ep.set id none
  else
    set
      { ep with
        sendqMap := ep.sendqMap.put req.fragsNr req.beforeIndex req.sendqMapIndex
        returned :=
          Function.update ep.returned id (ep.returned id ++ req.sendqMapIndex.take req.fragsNr) }
      id none

/-- `omx__release_unsent_send_resources` of a medium. -/
def releaseUnsent (req : MediumsqReq) : Endpoint × MediumsqReq :=
  ({ ep with
      availExpEvents := if req.expEvent then ep.availExpEvents
        else ep.availExpEvents + req.fragsNr },
    -- "make sure we don't release garbage sendq map slots"
    { req with fragsNr := if req.sendqSlot then 0 else req.fragsNr })

/-- `omx__complete_unsent_send_request`, for a request that the cleanup of its partner takes from
`need_resources_send_req_q` or `need_seqnum_send_req_q`.  A pull is just completed: only for a
notify does the code call what gives back the credit and the region of a pull. -/
def completeUnsent (id : ℕ) : Req → Option Endpoint
  | .mediumsq req =>
      if req.needResources || req.needSeqnum then
        let (ep, req) := ep.releaseUnsent { req with needResources := false }
        some (ep.sendComplete id req)
      else none
  | .pull req => if req.needResources then some (ep.set id none) else none

/-- `omx__mark_request_acked`, when an ack or a nack comes, or the partner is cleaned up. -/
def markRequestAcked (id : ℕ) : Req → Option Endpoint
  | .mediumsq req =>
      if req.needAck then
        -- a request in the driver is kept until it returns
        if req.driverMediumsqSending then
          some (ep.set id (some (.mediumsq { req with needAck := false })))
        else some (ep.sendComplete id { req with needAck := false })
      else none
  | .pull _ => none

/-! ## Progression -/

/-- The round of `omx__process_resend_requests` for a request of `non_acked_req_q`. -/
def resend (id : ℕ) (accepted : ℕ) : Req → Option Endpoint
  | .mediumsq req =>
      if req.needAck && !req.driverMediumsqSending then
        if ep.availExpEvents < req.fragsNr then some ep
        else
          (postIsendMediumsq { ep with availExpEvents := ep.availExpEvents - req.fragsNr } req
            accepted).map fun (ep, req) => ep.set id (some (.mediumsq req))
      else none
  | .pull _ => none

/-- The round of `omx__process_delayed_requests` for a request. -/
def processDelayed (id : ℕ) (throttling : Bool) (accepted : ℕ) (region handle : Bool) :
    Req → Option Endpoint
  | .mediumsq req =>
      if req.needResources then
        (allocSetupIsendMediumsq z ep id { req with needResources := false } throttling accepted).map
          (storeMediumsq id)
      else none
  | .pull req =>
      if req.needResources then
        some (storePull id (ep.allocSetupPull id { req with needResources := false } region handle))
      else none

/-- The round of `omx__process_throttling_requests` for a request. -/
def processThrottling (id : ℕ) (accepted : ℕ) : Req → Option Endpoint
  | .mediumsq req =>
      if req.needSeqnum then
        (ep.setupIsendMediumsq { req with needSeqnum := false } accepted).map
          fun (ep, req) => ep.set id (some (.mediumsq req))
      else none
  | .pull _ => none

/-- `OMX_EVT_SEND_MEDIUMSQ_FRAG_DONE`, for the user of the entry. -/
def fragDone (id : ℕ) : Req → Option Endpoint
  | .mediumsq req =>
      -- `frags_pending_nr` is set when the request is posted
      if req.needResources || req.needSeqnum then none
      else
        let req := { req with fragsPendingNr := (req.fragsPendingNr + (2 ^ 32 - 1)) % 2 ^ 32 }
        if req.fragsPendingNr = 0 then
          let req := { req with driverMediumsqSending := false }
          if req.needAck then some (ep.set id (some (.mediumsq req)))
          else some (ep.sendComplete id req)
        else some (ep.set id (some (.mediumsq req)))
  | .pull _ => none

/-- `omx__process_event`. -/
def processEvent : ExpEvent → Option Endpoint
  | .sendMediumsqFragDone sendqIndex =>
      (ep.sendqMap.user sendqIndex).bind fun id => (ep.req id).bind
        (fragDone { ep with availExpEvents := ep.availExpEvents + 1 } id)
  | .pullDone id =>
      match ep.req id with
      | some (.pull req) =>
          if req.driverPulling then
            some (set { ep with availExpEvents := ep.availExpEvents + 1 } id none)
          else none
      | _ => none

/-- The round of `omx__progress` for an expected event. -/
def progress : Option Endpoint :=
  match ep.expEventq with
  | [] => none
  | event :: events =>
      processEvent { ep with expEventq := events, unreleased := (ep.unreleased + 1) % z.batchNr } event

/-- The driver reports the k-th of what it accepted; `omx_notify_exp_event` fails if the queue is
full. -/
def report (k : ℕ) : Option Endpoint :=
  (ep.inDriver[k]?).map fun event =>
    if ep.expEventq.length + ep.unreleased < z.entryNr then
      { ep with inDriver := ep.inDriver.eraseIdx k, expEventq := ep.expEventq ++ [event] }
    else { ep with inDriver := ep.inDriver.eraseIdx k }

end Endpoint

/-! ## Runs -/

inductive Action where
  | submitMedium (length beforeIndex : ℕ) (othersDelayed throttling : Bool) (accepted : ℕ)
  | submitPull (region handle : Bool)
  | completeUnsent (id : ℕ)
  | ack (id : ℕ)
  | resend (id accepted : ℕ)
  | processDelayed (id : ℕ) (throttling : Bool) (accepted : ℕ) (region handle : Bool)
  | processThrottling (id accepted : ℕ)
  | progress
  | report (k : ℕ)
  deriving DecidableEq, Repr

namespace Endpoint

def step (z : Sizes) (ep : Endpoint) : Action → Option Endpoint
  | .submitMedium length beforeIndex othersDelayed throttling accepted =>
      if smallMsgLengthMax < length then
        ep.submitIsendMedium z length beforeIndex othersDelayed throttling accepted
      else none
  | .submitPull region handle => some (ep.submitPull region handle)
  | .completeUnsent id => (ep.req id).bind (ep.completeUnsent id)
  | .ack id => (ep.req id).bind (ep.markRequestAcked id)
  | .resend id accepted => (ep.req id).bind (ep.resend id accepted)
  | .processDelayed id throttling accepted region handle =>
      (ep.req id).bind (ep.processDelayed z id throttling accepted region handle)
  | .processThrottling id accepted => (ep.req id).bind (ep.processThrottling id accepted)
  | .progress => ep.progress z
  | .report k => ep.report z k

end Endpoint

def machine (z : Sizes) : Machine Endpoint Action where
  init := Endpoint.init z
  step := Endpoint.step z

end Xen2mx.Sendq
