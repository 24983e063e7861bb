/-
# `Xen2mx.Xenfront.Calls` — ioctls of many processes over one command ring

Every ioctl that forwards a command runs through the same stages, in its own
process and without a lock around them: some checks, a slot from
`omx_ring_get_request`, the request id computed from the producer index once
more, the request written into the slot with further checks on the way, and a
push of the whole ring.  Each access to what the processes share is one step
here, so that calls, the backend and the response handler interleave freely.

    pc             the call is about to
    check k        make the check `k` of those before the slot
    load           read `req_prod_pvt` in `omx_ring_get_request`
    store i        write `req_prod_pvt` back, one higher
    mark i         set the status of the request it takes to be the last one
    identify i     compute its request id, from `req_prod_pvt` again
    header i id    write the header of the request
    fill i id k    make the check `k` of those after the slot, or complete the request
    poke i id      push the ring
    wait i id      poll its status
    read i id ..   read its status and its data, in either order

A request has room for two segments of a region, and for nine pages of a message.  What there is
more of is written all the same, from some length on over the slots behind.

Indexes are natural numbers here: the 32-bit indexes of the code are their
remainders, and give the same slots and request ids.
-/
import Xen2mx.Lib.Runs
import Xen2mx.Xenfront.Results

namespace Xen2mx.Xenfront

open Xenback (Func RingSize)

/-! ## Ioctls and their checks -/

/-- Why an ioctl gives up before it pokes the backend. -/
inductive Failure where
  | badPointer | badLength | badOffset | badSegments | busy | noRight | unknownRegion
  | noMemory | noPages | noGrant
  deriving DecidableEq, Repr

/-- What `omx_ioctl_xen_user_region_create` grants for one segment: the pages of its
grant list, and its own. -/
structure SegmentGrants where
  nrParts : ℕ
  nrPages : ℕ
  deriving DecidableEq, Repr

/-- The allocation of its references and each page it grants may fail. -/
def SegmentGrants.checks (seg : SegmentGrants) : List Failure :=
  List.replicate (1 + seg.nrParts + seg.nrPages) .noGrant

/-- The ioctls that forward a command, with the sizes their loops depend on. -/
inductive Ioctl where
  | sendTiny | sendSmall | sendMediumsqFrag
  | sendMediumva (mxWire : Bool) (nrPages : ℕ)
  | sendRndv | sendNotify | sendLiback | sendConnectRequest | sendConnectReply | pull
  | openEndpoint | closeEndpoint
  | createUserRegion (segs : List SegmentGrants)
  | destroyUserRegion (nrSegments : ℕ)
  | getBoardInfo | getEndpointInfo | getBoardCount
  | peerTableGetState | peerTableSetState | setHostname
  | peerLookup (cmd : PeerLookup)
  deriving DecidableEq, Repr

namespace Ioctl

def func : Ioctl → Func
  | sendTiny => .sendTiny
  | sendSmall => .sendSmall
  | sendMediumsqFrag => .sendMediumsqFrag
  | sendMediumva _ _ => .sendMediumva
  | sendRndv => .sendRndv
  | sendNotify => .sendNotify
  | sendLiback => .sendLiback
  | sendConnectRequest => .sendConnectRequest
  | sendConnectReply => .sendConnectReply
  | pull => .pull
  | openEndpoint => .xenOpenEndpoint
  | closeEndpoint => .xenCloseEndpoint
  | createUserRegion _ => .xenCreateUserRegion
  | destroyUserRegion _ => .xenDestroyUserRegion
  | getBoardInfo => .getBoardInfo
  | getEndpointInfo => .getEndpointInfo
  | getBoardCount => .xenGetBoardCount
  | peerTableGetState => .xenPeerTableGetState
  | peerTableSetState => .xenPeerTableSetState
  | setHostname => .xenSetHostname
  | peerLookup cmd => cmd.func

/-- The checks made before `omx_ring_get_request`, in order. -/
def checksBefore : Ioctl → List Failure
  | openEndpoint => [.badPointer, .busy, .noMemory, .noGrant]
  | closeEndpoint | getBoardInfo | getEndpointInfo | peerTableSetState | peerLookup _ => [.badPointer]
  | createUserRegion _ => [.badPointer, .noMemory, .unknownRegion]
  | destroyUserRegion _ => [.badPointer, .unknownRegion]
  | setHostname => [.badPointer, .noRight]
  | _ => []

/-- The checks made between `omx_ring_get_request` and `omx_poke_dom0`, in order. -/
def checksAfter : Ioctl → List Failure
  | sendTiny | sendSmall => [.badPointer, .badLength, .badPointer]
  | sendMediumsqFrag => [.badPointer, .badLength, .badOffset]
  | sendMediumva mxWire nrPages =>
      [.badPointer] ++ (if mxWire then [.badLength] else []) ++
        [.badSegments, .noMemory, .badPointer, .badLength, .noMemory, .noPages, .noGrant, .noMemory] ++
        List.replicate nrPages .noGrant
  | sendRndv | sendNotify | sendLiback | sendConnectRequest | sendConnectReply | pull => [.badPointer]
  | createUserRegion segs => segs.flatMap SegmentGrants.checks
  | _ => []

/-- The bytes of a slot, `sizeof(struct omx_xenif_request)`. -/
def slotSize : ℕ := 250

/-- Where `segs[i]` of a region and `grefs` of a message are in the slot. -/
def segsOffset (i : ℕ) : ℕ := 52 + 99 * i
def grefsOffset : ℕ := 63

/-- From where to where the arrays of the request are written, right before the check `k` of those
after the slot or before the request is complete.  The list `gref` of a segment, at byte 28 of it,
takes as many references as there are parts.  An empty segment is not written. -/
def writes (ioctl : Ioctl) (k : ℕ) : List (ℕ × ℕ) :=
  match ioctl with
  | sendMediumva _ nrPages =>
      if k < ioctl.checksAfter.length then [] else [(grefsOffset, grefsOffset + 4 * nrPages)]
  | createUserRegion segs =>
      (segs.zipIdx.filter fun (seg, i) =>
          seg.nrPages ≠ 0 ∧ ((segs.take (i + 1)).flatMap SegmentGrants.checks).length = k).map
        fun (seg, i) => (segsOffset i, segsOffset i + max 99 (28 + 4 * seg.nrParts))
  | destroyUserRegion nrSegments =>
      (List.range nrSegments).map fun i => (segsOffset i, segsOffset (i + 1))
  | _ => []

/-- The ioctl writes the status it waits on once more after `omx_ring_get_request`. -/
def setsStatus : Ioctl → Bool
  | openEndpoint | closeEndpoint | createUserRegion _ | destroyUserRegion _ => true
  | _ => false

theorem func_eq_getEndpointInfo {ioctl : Ioctl} (h : ioctl.func = .getEndpointInfo) :
    ioctl = getEndpointInfo := by
  cases ioctl with
  | getEndpointInfo => rfl
  | peerLookup cmd => cases cmd <;> cases h
  | _ => cases h

end Ioctl

/-- One call: the ioctl, the index of its endpoint where the request names one, the
endpoint it asks about, the region it is about, and the rest of its request; and what is
found in the slot `j` behind its own, if the bytes that it writes reach there. -/
structure Call (D : Type*) where
  ioctl : Ioctl
  eid : Option ℕ
  endpoint : ℕ
  id : ℕ
  args : D
  beyond : ℕ × ℕ → ℕ → Response D → Response D

/-- The field a call takes its answer from. -/
def Call.field {D : Type*} (call : Call D) : Option Field :=
  Xenfront.field call.ioctl.func call.endpoint

/-! ## The state -/

/-- Where a call is.  A call that has ended remembers the index it took. -/
inductive Pc (D : Type*) where
  | check (k : ℕ)
  | load
  | store (idx : ℕ)
  | mark (idx : ℕ)
  | identify (idx : ℕ)
  | header (idx id : ℕ)
  | fill (idx id k : ℕ)
  | poke (idx id : ℕ)
  | wait (idx id : ℕ)
  | read (idx id : ℕ) (st : Option Status) (data : Option D)
  | failed (idx : Option ℕ)
  | timedOut (idx : ℕ)
  | returned (idx : ℕ) (st : Status) (data : Option D)

/-- What the calls share: the frontend, the ring and the backend.  A slot holds a
request or the response that took its place.  `log` records the requests
executed, each with its response, and is read by no step. -/
structure Shared (D : Type*) where
  fe : XenfrontInfo D
  ring : ℕ → Response D
  reqProdPvt : ℕ
  reqProd : ℕ
  answered : ℕ
  rspProd : ℕ
  rspCons : ℕ
  log : List (Response D × Response D)

/-- The calls are named by an arbitrary type, one name for each call ever made. -/
structure State (ι D : Type*) extends Shared D where
  pc : ι → Pc D

variable {ι D : Type*}

/-- The connected frontend, before any call. -/
def init (fe : XenfrontInfo D) (mem : ℕ → Response D) : State ι D :=
  { fe, ring := mem, reqProdPvt := 0, reqProd := 0, answered := 0, rspProd := 0, rspCons := 0,
    log := [], pc := fun _ => .check 0 }

/-! ## The code of a call -/

/-- `OMX_MAX_INFLIGHT_REQUESTS`. -/
def omxMaxInflightRequests : ℕ := 65536

variable [DecidableEq ι] (n : RingSize) (calls : ι → Call D)

/-- The slot that `RING_GET_REQUEST` and `RING_GET_RESPONSE` return for an index. -/
def Shared.slot (sh : Shared D) (idx : ℕ) : Response D := sh.ring (idx % n.size)

/-- Writing through the pointer to the slot. -/
def Shared.setSlot (sh : Shared D) (idx : ℕ) (e : Response D) : Shared D :=
  { sh with ring := fun j => if j = idx % n.size then e else sh.ring j }

/-- The header of the request: `request_id`, `func`, and `eid` where it has one. -/
def Call.header (call : Call D) (id : ℕ) (e : Response D) : Response D :=
  { e with func := call.ioctl.func, requestId := id, eid := call.eid.getD e.eid }

/-- The rest of the request. -/
def Call.complete (call : Call D) (e : Response D) : Response D :=
  { e with id := call.id, data := call.args }

/-- The bytes are in the slot `j` behind the one that they are counted from. -/
def Touches (j : ℕ) (w : ℕ × ℕ) : Prop :=
  0 < j ∧ w.1 < (j + 1) * Ioctl.slotSize ∧ j * Ioctl.slotSize < w.2

instance (j : ℕ) (w : ℕ × ℕ) : Decidable (Touches j w) := inferInstanceAs (Decidable (_ ∧ _ ∧ _))

/-- The slot `j` behind that of the call, after its writes before the check `k`. -/
def Call.spill (call : Call D) (k j : ℕ) (e : Response D) : Response D :=
  ((call.ioctl.writes k).filter (Touches j)).foldl (fun e w => call.beyond w j e) e

/-- The ring after them.  They go on behind its last slot, too. -/
def Shared.spill (sh : Shared D) (call : Call D) (idx k : ℕ) : Shared D :=
  { sh with ring := fun p => call.spill k (p - idx % n.size) (sh.ring p) }

/-- What `wait_for_backend_response` polls has changed. -/
def Call.polled (call : Call D) (fe : XenfrontInfo D) (id : ℕ) : Bool :=
  if call.ioctl = .getEndpointInfo then !fe.infoDoing call.endpoint
  else fe.requests id ≠ busy call.ioctl.func

/-- The next step of the code of a call.  `junk` is what a check on the way of the
request has left in the slot. -/
def callCode (call : Call D) (junk : D) (sh : Shared D) : Pc D → Option (Shared D × Pc D)
  | .check k =>
      if k < call.ioctl.checksBefore.length then some (sh, .check (k + 1))
      else if call.ioctl = .getEndpointInfo then
        some ({ sh with fe := sh.fe.setInfoDoing call.endpoint true }, .load)
      else some (sh, .load)
  | .load => some (sh, .store sh.reqProdPvt)
  | .store idx => some ({ sh with reqProdPvt := idx + 1 }, .mark idx)
  | .mark idx =>
      let last := (sh.reqProdPvt - 1) % omxMaxInflightRequests
      some ({ sh with fe := sh.fe.setRequest last .doing }, .identify idx)
  | .identify idx => some (sh, .header idx ((sh.reqProdPvt - 1) % omxMaxInflightRequests))
  | .header idx id =>
      let fe := if call.ioctl.setsStatus then sh.fe.setRequest id (busy call.ioctl.func) else sh.fe
      some ({ sh with fe }.setSlot n idx (call.header id (sh.slot n idx)), .fill idx id 0)
  | .fill idx id k =>
      if k < call.ioctl.checksAfter.length then
        some ((sh.setSlot n idx { sh.slot n idx with data := junk }).spill n call idx k,
          .fill idx id (k + 1))
      else
        some ((sh.setSlot n idx (call.complete (sh.slot n idx))).spill n call idx k, .poke idx id)
  | .poke idx id => some ({ sh with reqProd := sh.reqProdPvt }, .wait idx id)
  | .wait idx id => if call.polled sh.fe id then some (sh, .read idx id none none) else none
  | .read idx id none data => some (sh, .read idx id (some (sh.fe.requests id)) data)
  | .read idx _ (some st) data =>
      if call.field.isSome → data.isSome then some (sh, .returned idx st data) else none
  | .failed _ | .timedOut _ | .returned .. => none

/-- The call fails the check it is at, and goes to `out`. -/
def failCode (call : Call D) (junk : D) (sh : Shared D) : Pc D → Option (Shared D × Pc D)
  | .check k => if k < call.ioctl.checksBefore.length then some (sh, .failed none) else none
  | .fill idx _ k =>
      if k < call.ioctl.checksAfter.length then
        some ((sh.setSlot n idx { sh.slot n idx with data := junk }).spill n call idx k,
          .failed (some idx))
      else none
  | _ => none

/-- `wait_for_backend_response` gives up. -/
def timeoutCode (sh : Shared D) : Pc D → Option (Shared D × Pc D)
  | .wait idx _ => some (sh, .timedOut idx)
  | _ => none

/-- A query copies its answer. -/
def readDataCode (call : Call D) (sh : Shared D) : Pc D → Option (Shared D × Pc D)
  | .read idx id st none => call.field.map fun f => (sh, .read idx id st (some (sh.fe.results f)))
  | _ => none

/-- One step of the call `c`. -/
def State.run (s : State ι D) (c : ι) (code : Shared D → Pc D → Option (Shared D × Pc D)) :
    Option (State ι D) :=
  (code s.toShared (s.pc c)).map fun r =>
    { toShared := r.1, pc := fun c' => if c' = c then r.2 else s.pc c' }

/-! ## The backend and the response handler -/

/-- The backend executes the next request published and writes the response over it. -/
def Shared.answer (sh : Shared D) (x : Execution) (d : D) : Option (Shared D) :=
  let req := sh.slot n sh.answered
  if sh.answered < sh.reqProd ∧ x.func = req.func then
    some { sh.setSlot n sh.answered (respond req d x) with
      answered := sh.answered + 1
      log := sh.log ++ [(req, respond req d x)] }
  else none

/-- `omx_xenif_interrupt` handles the next response. -/
def Shared.interrupt (sh : Shared D) : Option (Shared D) :=
  if sh.rspCons < sh.rspProd then
    some { sh with fe := omxXenifInterrupt sh.fe (sh.slot n sh.rspCons), rspCons := sh.rspCons + 1 }
  else none

variable {n}

theorem Shared.answer_eq_some {sh sh' : Shared D} {x : Execution} {d : D}
    (h : sh.answer n x d = some sh') :
    (sh.answered < sh.reqProd ∧ x.func = (sh.slot n sh.answered).func) ∧
      sh' = { sh.setSlot n sh.answered (respond (sh.slot n sh.answered) d x) with
        answered := sh.answered + 1
        log := sh.log ++ [(sh.slot n sh.answered, respond (sh.slot n sh.answered) d x)] } := by
  obtain ⟨hc, hsome⟩ := Option.ite_none_right_eq_some.1 h
  exact ⟨hc, (Option.some.inj hsome).symm⟩

theorem Shared.interrupt_eq_some {sh sh' : Shared D} (h : sh.interrupt n = some sh') :
    sh.rspCons < sh.rspProd ∧
      sh' = { sh with
        fe := omxXenifInterrupt sh.fe (sh.slot n sh.rspCons)
        rspCons := sh.rspCons + 1 } := by
  obtain ⟨hc, hsome⟩ := Option.ite_none_right_eq_some.1 h
  exact ⟨hc, (Option.some.inj hsome).symm⟩

variable (n)

/-! ## The machine -/

/-- `setEndpoint` and `setUserRegion` are what opening and closing endpoints and
creating and destroying regions do to the tables that the handler looks up. -/
inductive Act (ι D : Type*) where
  | call (c : ι) (junk : D)
  | fail (c : ι) (junk : D)
  | timeout (c : ι)
  | readData (c : ι)
  | answer (x : Execution) (d : D)
  | pushResponses
  | interrupt
  | setEndpoint (eid : ℕ) (endpoint : Option ℕ)
  | setUserRegion (endpoint id : ℕ) (present : Bool)

def step (s : State ι D) : Act ι D → Option (State ι D)
  | .call c junk => s.run c (callCode n (calls c) junk)
  | .fail c junk => s.run c (failCode n (calls c) junk)
  | .timeout c => s.run c timeoutCode
  | .readData c => s.run c (readDataCode (calls c))
  | .answer x d => (s.answer n x d).map fun sh => { s with toShared := sh }
  | .pushResponses => some { s with rspProd := s.answered }
  | .interrupt => (s.interrupt n).map fun sh => { s with toShared := sh }
  | .setEndpoint eid endpoint => some { s with fe := s.fe.setEndpoint eid endpoint }
  | .setUserRegion endpoint id present => some { s with fe := s.fe.setUserRegion endpoint id present }

/-- Any number of calls over a frontend `fe` and a ring page that held `mem`. -/
def machine (fe : XenfrontInfo D) (mem : ℕ → Response D) : Machine (State ι D) (Act ι D) :=
  { init := init fe mem, step := step n calls }

end Xen2mx.Xenfront
