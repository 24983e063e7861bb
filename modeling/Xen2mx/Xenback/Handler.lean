/-
# `Xen2mx.Xenback.Handler` — the work handler of the backend as a machine

`msg_workq_handler` polls the ring, hands what it finds to
`omx_xen_process_message`, pushes the responses and polls again; it gives up
after `OMX_XEN_BACKEND_TIMEOUT` empty polls, provided the final check of the
ring finds nothing either.  Each access of the handler to the shared page is one
step here, so that the frontend can publish and the event channel can fire
between any two of them.

    pc             the handler is about to
    idle           be run by the workqueue, once queued
    poll i         test RING_HAS_UNCONSUMED_REQUESTS, after i empty polls
    enter i        read req_cons and req_prod in omx_xen_process_message
    batch i ..     test `cons != prod` and fetch the next request
    exec i ..      run the operation of the request it fetched
    push i         push the responses, back in the loop
    finalCheck i   run the first half of RING_FINAL_CHECK_FOR_REQUESTS
    finalRecheck i run its second half
    crashed        nothing: a BUG_ON stopped the machine
-/
import Xen2mx.Lib.Runs
import Xen2mx.Xenback.Ring

namespace Xen2mx.Xenback

/-! ## The operations -/

/-- What the handler needs of the rest of the backend, whose state is `β`:
`endpointOpen` says whether `omx_xenback_get_endpoint` finds the endpoint a
request names, `misc` and `specific` what the bodies of the two switches make of
a request, of the slot of its response and of the backend. -/
structure Ops (β δ : Type*) where
  endpointOpen : β → Entry δ → Bool
  misc : Func → Entry δ → Entry δ → β → Entry δ × β
  specific : Func → Entry δ → Entry δ → β → Entry δ × β

/-- The commands that `omx_xen_process_message` sends to `omx_xenback_process_misc`. -/
def Func.isMisc : Func → Bool
  | .peerFromIndex | .peerFromAddr | .peerFromHostname | .getEndpointInfo
  | .xenGetBoardCount | .xenPeerTableGetState | .xenPeerTableSetState | .xenSetHostname
  | .getBoardInfo | .xenOpenEndpoint | .xenCloseEndpoint
  | .xenCreateUserRegion | .xenDestroyUserRegion => true
  | _ => false

/-- The commands whose handling begins with `BUG_ON(!endpoint)`. -/
def Func.needsEndpoint (func : Func) : Bool :=
  match func with
  | .getEndpointInfo | .getBoardInfo => true
  | func => !func.isMisc

variable {β δ : Type*} (n : RingSize) (ops : Ops β δ)

/-- `omx_xenback_process_misc`; `none` is a BUG. -/
def omxXenbackProcessMisc (func : Func) (req resp : Entry δ) (be : β) : Option (Entry δ × β) :=
  match func with
  | .getEndpointInfo | .getBoardInfo =>
      if ops.endpointOpen be req then some (ops.misc func req resp be) else none
  | func => some (ops.misc func req resp be)

/-- `omx_xenback_process_specific`; `none` is a BUG.  An unknown command falls
through its switch and is answered like any other. -/
def omxXenbackProcessSpecific (func : Func) (req resp : Entry δ) (be : β) :
    Option (Entry δ × β) :=
  if ops.endpointOpen be req then some (ops.specific func req resp be) else none

/-- The `switch (func)` of `omx_xen_process_message`. -/
def processRequest (func : Func) (req resp : Entry δ) (be : β) : Option (Entry δ × β) :=
  if func.isMisc then omxXenbackProcessMisc ops func req resp be
  else omxXenbackProcessSpecific ops func req resp be

/-- An operation returns unless it needs an endpoint that is not open. -/
theorem processRequest_isSome (func : Func) (req resp : Entry δ) (be : β) :
    (processRequest ops func req resp be).isSome ↔
      (func.needsEndpoint = true → ops.endpointOpen be req = true) := by
  cases func <;>
    simp [processRequest, omxXenbackProcessMisc, omxXenbackProcessSpecific, Func.isMisc,
      Func.needsEndpoint]

/-! ## The state -/

/-- Where the handler is; `i` counts the empty polls of this run of the handler. -/
inductive Pc where
  | idle
  | poll (i : ℕ)
  | enter (i : ℕ)
  | batch (i : ℕ) (cons prod : RingIdx)
  | exec (i : ℕ) (cons prod : RingIdx) (func : Func) (req resp : RingIdx)
  | push (i : ℕ)
  | finalCheck (i : ℕ)
  | finalRecheck (i : ℕ)
  | crashed
  deriving DecidableEq, Repr

/-- The ring, the handler, the event channel and the workqueue.  The last three
fields record what happened and are read by no step: the requests given a slot,
those published, and those executed, each with the response it was answered. -/
structure State (β δ : Type*) where
  sring : Sring δ
  reqProdPvt : RingIdx
  back : BackRing
  pc : Pc
  evtchn : Bool
  queued : Bool
  be : β
  allocated : List (Entry δ)
  published : List (Entry δ)
  log : List (Entry δ × Entry δ)

/-- The connected ring over the memory `mem`, before any request. -/
def init (be : β) (mem : ℕ → Entry δ) : State β δ :=
  { sring := sharedRingInit mem, reqProdPvt := 0, back := backRingInit, pc := .idle,
    evtchn := false, queued := false, be, allocated := [], published := [], log := [] }

/-! ## The frontend and the event channel -/

/-- `omx_ring_get_request`, and the caller filling the slot it was given. -/
def omxRingGetRequest (s : State β δ) (r : Entry δ) : State β δ :=
  { s with
    sring := ringSet n s.sring s.reqProdPvt r
    reqProdPvt := s.reqProdPvt + 1
    allocated := s.allocated ++ [r] }

/-- `omx_poke_dom0` on the command ring. -/
def omxPokeDom0 (s : State β δ) : State β δ :=
  let (sring, notify) := ringPushRequestsAndCheckNotify s.sring s.reqProdPvt
  { s with sring, evtchn := s.evtchn || notify, published := s.allocated }

/-- `omx_xenif_be_int`, for the command ring: `queue_work` keeps one instance queued. -/
def omxXenifBeInt (s : State β δ) : Option (State β δ) :=
  if s.evtchn then
    some { s with
      evtchn := false
      queued := s.queued || decide (ringHasUnconsumedRequests n s.back s.sring ≠ 0) }
  else none

/-! ## The handler -/

/-- `OMX_XEN_BACKEND_TIMEOUT`. -/
def omxXenBackendTimeout : ℕ := 1000 * 1000

/-- The body of the loop of `omx_xen_process_message`, up to the switch.  The two
early exits leave by `out_with_lock`, past the update of `req_cons`. -/
def omxXenProcessMessage (s : State β δ) (i : ℕ) (cons prod : RingIdx) : State β δ :=
  if cons = prod then
    { s with back := { s.back with reqCons := cons }, pc := .push i }
  else if ringRequestConsOverflow n s.back cons then
    { s with pc := .push i }
  else
    let func := (ringGet n s.sring cons).func
    if func = .null then
      { s with pc := .push i }
    else
      { s with
        back := { s.back with rspProdPvt := s.back.rspProdPvt + 1 }
        pc := .exec i (cons + 1) prod func cons s.back.rspProdPvt }

/-- The rest of the body: the operation reads the request and writes the
response in their slots. -/
def runRequest (s : State β δ) (i : ℕ) (cons prod : RingIdx) (func : Func)
    (req resp : RingIdx) : State β δ :=
  let r := ringGet n s.sring req
  match processRequest ops func r (ringGet n s.sring resp) s.be with
  | none => { s with pc := .crashed }
  | some (answer, be) =>
      { s with
        sring := ringSet n s.sring resp answer
        be
        pc := .batch i cons prod
        log := s.log ++ [(r, answer)] }

/-- One step of `msg_workq_handler`. -/
def msgWorkqHandler (s : State β δ) : Option (State β δ) :=
  match s.pc with
  | .idle => if s.queued then some { s with queued := false, pc := .poll 0 } else none
  | .poll i =>
      if ringHasUnconsumedRequests n s.back s.sring ≠ 0 then some { s with pc := .enter i }
      else if omxXenBackendTimeout < i + 1 then some { s with pc := .finalCheck (i + 1) }
      else some { s with pc := .poll (i + 1) }
  | .enter i => some { s with pc := .batch i s.back.reqCons s.sring.reqProd }
  | .batch i cons prod => some (omxXenProcessMessage n s i cons prod)
  | .exec i cons prod func req resp => some (runRequest n ops s i cons prod func req resp)
  | .push i => some { s with sring := ringPushResponses s.sring s.back, pc := .poll i }
  | .finalCheck i =>
      if ringHasUnconsumedRequests n s.back s.sring ≠ 0 then some { s with pc := .poll i }
      else
        some { s with
          sring := { s.sring with reqEvent := s.back.reqCons + 1 }
          pc := .finalRecheck i }
  | .finalRecheck i =>
      if ringHasUnconsumedRequests n s.back s.sring ≠ 0 then some { s with pc := .poll i }
      else some { s with pc := .idle }
  | .crashed => none

/-- The handler waits for nothing but the workqueue. -/
theorem msgWorkqHandler_eq_none {s : State β δ} (h : msgWorkqHandler n ops s = none) :
    (s.pc = .idle ∧ s.queued = false) ∨ s.pc = .crashed := by
  unfold msgWorkqHandler at h
  cases hs : s.pc with
  | idle =>
      simp only [hs] at h
      split at h
      · cases h
      · exact .inl ⟨rfl, Bool.eq_false_iff.2 ‹_›⟩
  | crashed => exact .inr rfl
  | poll i =>
      simp only [hs] at h
      split at h
      · cases h
      · split at h <;> cases h
  | finalCheck i | finalRecheck i =>
      simp only [hs] at h
      split at h <;> cases h
  | enter | batch | exec | push =>
      simp only [hs] at h
      cases h

/-! ## The machine -/

inductive Act (δ : Type*) where
  | getRequest (r : Entry δ)
  | poke
  | interrupt
  | handler

def step (s : State β δ) : Act δ → Option (State β δ)
  | .getRequest r => some (omxRingGetRequest n s r)
  | .poke => some (omxPokeDom0 s)
  | .interrupt => omxXenifBeInt n s
  | .handler => msgWorkqHandler n ops s

/-- The backend and any frontend, over the state `be` of the backend and the
page `mem` at the start. -/
def machine (be : β) (mem : ℕ → Entry δ) : Machine (State β δ) (Act δ) :=
  { init := init be mem, step := step n ops }

end Xen2mx.Xenback
