/-
# `Xen2mx.Recvring.Ring` — the receive ring, used backwards

What the backend receives for an endpoint of the guest goes to the frontend
through the *responses* of a second ring, `recv_ring`; no request asked for
them.  To keep the indexes of the ring balanced the frontend answers each
response by a dummy request, `omx_xenfront_ack`.  Requests and responses share
the slots of the ring, so that the dummy request for a response lands in the
slot of the response — as long as none was left out.

    backend     load      RING_GET_RESPONSE(rsp_prod_pvt++): rsp_prod_pvt is read
                take      and written back, one higher
                fill      the response is written into its slot
                poke      omx_poke_domU: responses pushed
                balance   omx_xen_process_incoming_response
    frontend    interrupt omx_xenif_interrupt_recv is scheduled
                handle    one turn of its loop, up to the acknowledgement
                ack       omx_xenfront_ack
                finish    rsp_cons stored, RING_FINAL_CHECK_FOR_RESPONSES

A reception of the backend runs in a context of its own, and many of them run at
once: nothing but the push is under a lock, the increment is not.  The handler of the frontend is the
one work of a single-threaded workqueue.
-/
import Mathlib.Logic.Function.Basic
import Xen2mx.Lib.Runs
import Xen2mx.Xenback.Ring

namespace Xen2mx.Recvring

open Xenback (RingIdx RingSize BackRing)

/-! ## Entries -/

/-- The values of `func` in this ring; a slot of the zeroed page has `null`. -/
inductive Func where
  | null | xenDummy
  | xenRecvPullDone | recvPullRequest
  | recvMediumFrag | recvSmall | recvTiny
  | recvLiback | recvNotify | recvRndv | recvConnectRequest | recvConnectReply
  | xenSendMediumsqDone
  deriving DecidableEq, Repr

/-- What the case of a function in `omx_xenif_interrupt_recv` passes to
`omx_xenfront_ack`, if the endpoint is known; `none` in the default case. -/
def Func.ack : Func → Option Func
  | null | xenDummy => none
  | xenRecvPullDone | recvPullRequest | xenSendMediumsqDone => some xenDummy
  | f => some f

/-- A slot, as a request or a response. -/
structure Entry (δ : Type*) where
  func : Func
  eid : ℕ
  data : δ
  deriving DecidableEq, Repr

/-- The shared page. -/
structure Sring (δ : Type*) where
  reqProd : RingIdx
  rspProd : RingIdx
  ring : ℕ → Entry δ

/-- The private indexes of the frontend: `struct omx_xenif_front_ring`. -/
structure FrontRing where
  reqProdPvt : RingIdx
  rspCons : RingIdx
  deriving DecidableEq, Repr

variable {κ δ : Type*}

/-- `RING_GET_REQUEST` and `RING_GET_RESPONSE`. -/
def ringGet (n : RingSize) (sring : Sring δ) (idx : RingIdx) : Entry δ := sring.ring (n.slot idx)

/-- Writing through the pointer that `RING_GET_REQUEST` or `RING_GET_RESPONSE` returned. -/
def ringSet (n : RingSize) (sring : Sring δ) (idx : RingIdx) (e : Entry δ) : Sring δ :=
  { sring with ring := fun j => if j = n.slot idx then e else sring.ring j }

/-! ## The system -/

/-- Where a reception of the backend is: `loaded idx resp` has read `rsp_prod_pvt`;
`taken i idx resp` has slot `idx`, the `i`-th one taken, and has not written its
response into it. -/
inductive Reception (δ : Type*) where
  | idle
  | loaded (idx : RingIdx) (resp : Entry δ)
  | taken (i : ℕ) (idx : RingIdx) (resp : Entry δ)
  | filled
  deriving DecidableEq, Repr

/-- The index a reception has read and not written back. -/
def Reception.loads : Reception δ → Option RingIdx
  | loaded idx _ => some idx
  | idle | taken .. | filled => none

/-- The slot a reception has yet to write. -/
def Reception.writes : Reception δ → Option RingIdx
  | taken _ idx _ => some idx
  | idle | loaded .. | filled => none

/-- Where the handler of the frontend is, with its `cons` and `prod`. -/
inductive Handler where
  | idle
  | loop (cons prod : RingIdx)
  | acking (cons prod : RingIdx) (func : Func)
  deriving DecidableEq, Repr

/-- The slot whose response the handler reads next. -/
def Handler.next : Handler → Option RingIdx
  | loop cons _ => some cons
  | idle | acking .. => none

/-- The acknowledgement the handler is about to write. -/
def Handler.owed : Handler → List Func
  | acking _ _ func => [func]
  | idle | loop .. => []

/-- The ring and both its ends; and, for the statements, the responses in the order
of their slots, those the handler has read, the acknowledgements, and which
response each slot holds. -/
structure State (κ δ : Type*) where
  sring : Sring δ
  back : BackRing
  front : FrontRing
  /-- `fe->endpoints[eid]` is not NULL -/
  endpoints : ℕ → Bool
  reception : κ → Reception δ
  handler : Handler
  sent : List (Entry δ)
  handled : List (Entry δ)
  returned : List Func
  holds : ℕ → Option ℕ

inductive Act (κ δ : Type*) where
  | load (k : κ) (resp : Entry δ)
  | take (k : κ)
  | fill (k : κ)
  | poke (k : κ)
  | balance
  | interrupt
  | handle
  | ack
  | finish
  | setEndpoint (eid : ℕ) (isOpen : Bool)

/-- The rings as both ends initialise them, over a zeroed page. -/
def start (zero : δ) : State κ δ where
  sring := { reqProd := 0, rspProd := 0, ring := fun _ => ⟨.null, 0, zero⟩ }
  back := { rspProdPvt := 0, reqCons := 0 }
  front := { reqProdPvt := 0, rspCons := 0 }
  endpoints := fun _ => false
  reception := fun _ => .idle
  handler := .idle
  sent := []
  handled := []
  returned := []
  holds := fun _ => none

/-! ## The backend -/

/-- The loop of `omx_xen_process_incoming_response` over the given number of
requests; it leaves without storing its index at a request without function. -/
def balanceLoop (n : RingSize) (sring : Sring δ) : ℕ → RingIdx → Option RingIdx
  | 0, cons => some cons
  | k + 1, cons =>
      if (ringGet n sring cons).func = .null then none else balanceLoop n sring k (cons + 1)

/-- `omx_xen_process_incoming_response`. -/
def omxXenProcessIncomingResponse (n : RingSize) (sring : Sring δ) (back : BackRing) : BackRing :=
  match balanceLoop n sring (sring.reqProd - back.reqCons).toNat back.reqCons with
  | some cons => { back with reqCons := cons }
  | none => back

variable [DecidableEq κ] (n : RingSize) (s : State κ δ)

namespace State

/-- A packet for the endpoint arrives, or a transfer for it completes: the
reception is about to take a slot, without asking whether the ring has one. -/
def load (k : κ) (resp : Entry δ) : Option (State κ δ) :=
  match s.reception k, resp.func.ack with
  | .idle, some _ =>
      some { s with
        reception := Function.update s.reception k (.loaded s.back.rspProdPvt resp) }
  | _, _ => none

def take (k : κ) : Option (State κ δ) :=
  match s.reception k with
  | .loaded idx resp =>
      some { s with
        back := { s.back with rspProdPvt := idx + 1 }
        reception := Function.update s.reception k (.taken s.sent.length idx resp)
        sent := s.sent ++ [resp] }
  | .idle | .taken .. | .filled => none

def fill (k : κ) : Option (State κ δ) :=
  match s.reception k with
  | .taken i idx resp =>
      some { s with
        sring := ringSet n s.sring idx resp
        reception := Function.update s.reception k .filled
        holds := Function.update s.holds (n.slot idx) (some i) }
  | .idle | .loaded .. | .filled => none

/-- `omx_poke_domU`: all responses up to `rsp_prod_pvt` are published. -/
def poke (k : κ) : Option (State κ δ) :=
  match s.reception k with
  | .filled =>
      some { s with
        sring := { s.sring with rspProd := s.back.rspProdPvt }
        reception := Function.update s.reception k .idle }
  | .idle | .loaded .. | .taken .. => none

def balance : State κ δ :=
  { s with back := omxXenProcessIncomingResponse n s.sring s.back }

/-! ## The frontend -/

def interrupt : Option (State κ δ) :=
  match s.handler with
  | .idle =>
      if s.sring.rspProd = s.front.rspCons then none
      else some { s with handler := .loop s.front.rspCons s.sring.rspProd }
  | .loop .. | .acking .. => none

/-- One turn of the loop of `omx_xenif_interrupt_recv`: a case that finds no
endpoint breaks before the acknowledgement. -/
def handle : Option (State κ δ) :=
  match s.handler with
  | .loop cons prod =>
      if cons = prod then none
      else
        let resp := ringGet n s.sring cons
        some { s with
          handled := s.handled ++ [resp]
          handler :=
            match resp.func.ack, s.endpoints resp.eid with
            | some func, true => .acking (cons + 1) prod func
            | _, _ => .loop (cons + 1) prod }
  | .idle | .acking .. => none

/-- `omx_xenfront_ack`: only `func` of the slot is written. -/
def ack : Option (State κ δ) :=
  match s.handler with
  | .acking cons prod func =>
      let idx := s.front.reqProdPvt
      some { s with
        sring := { ringSet n s.sring idx { ringGet n s.sring idx with func } with
          reqProd := idx + 1 }
        front := { s.front with reqProdPvt := idx + 1 }
        handler := .loop cons prod
        returned := s.returned ++ [func]
        holds := Function.update s.holds (n.slot idx) none }
  | .idle | .loop .. => none

/-- After the loop: `rsp_cons` is stored, and the final check may start the loop again. -/
def finish : Option (State κ δ) :=
  match s.handler with
  | .loop cons prod =>
      if cons = prod then
        some { s with
          front := { s.front with rspCons := cons }
          handler := if s.sring.rspProd = cons then .idle else .loop cons s.sring.rspProd }
      else none
  | .idle | .acking .. => none

def setEndpoint (eid : ℕ) (isOpen : Bool) : State κ δ :=
  { s with endpoints := Function.update s.endpoints eid isOpen }

end State

def step : Act κ δ → Option (State κ δ)
  | .load k resp => s.load k resp
  | .take k => s.take k
  | .fill k => s.fill n k
  | .poke k => s.poke k
  | .balance => some (s.balance n)
  | .interrupt => s.interrupt
  | .handle => s.handle n
  | .ack => s.ack n
  | .finish => s.finish
  | .setEndpoint eid isOpen => some (s.setEndpoint eid isOpen)

/-- The receive ring of a guest, with `n` slots. -/
def machine (zero : δ) : Machine (State κ δ) (Act κ δ) where
  init := start zero
  step := step n

/-! ## The statements -/

/-- The action writes a slot that holds a response the frontend has not consumed. -/
def Overwrites : Act κ δ → Prop
  | .fill k => ∃ idx ∈ (s.reception k).writes, ∃ i ∈ s.holds (n.slot idx), s.handled.length ≤ i
  | .ack => s.handler.owed ≠ [] ∧
      ∃ i ∈ s.holds (n.slot s.front.reqProdPvt), s.handled.length ≤ i
  | _ => False

/-- The ring is balanced. -/
structure Balanced : Prop where
  /-- Responses are handled once, as they were sent, in order. -/
  handled : s.handled <+: s.sent
  /-- At rest, none is left. -/
  all_handled : s.handler = .idle → s.sring.rspProd = s.front.rspCons →
    (∀ k, s.reception k = .idle) → s.handled = s.sent
  /-- The frontend returns one request for each response it has handled. -/
  returned : (s.returned ++ s.handler.owed).map some = s.handled.map (·.func.ack)
  /-- Between two runs of the handler, as many requests were returned as responses
  were consumed. -/
  difference : s.handler = .idle → s.sring.reqProd - s.front.rspCons = 0

end Xen2mx.Recvring
