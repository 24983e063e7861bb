/-
# `Xen2mx.Resend.Queues` — what waits for an ack, a reply or the driver

A request that was posted waits in a queue of the endpoint until it is answered.  From time to time
the queues are scanned, and what was last sent too long ago is posted again.

    queue                              waits for          scanned   comes to the tail
    non_acked_req_q                    an ack             yes       posted; left by the driver
    connect_req_q                      a reply            yes       posted
    driver_mediumsq_sending_req_q      the driver         no        posted, a medium
    large_send_need_reply_req_q        a notify           no        acked

A post stamps the request with the time, but for a medium of which the driver refused the first
fragment: its stamp is what it was, and if it was never sent, what its memory was.

What the driver accepts of a medium, how long a scan takes between its posts, and when the answers
come, is part of the actions.  The clock of the driver has 64 bits and does not come around.
-/
import Mathlib.Algebra.Group.Nat.Defs
import Xen2mx.Lib.Runs

namespace Xen2mx.Resend

/-! ## Requests -/

inductive ReqType where
  | sendTiny
  | sendSmall
  | sendMediumsq
  | sendMediumva
  | sendLarge
  | recvLarge
  | connect
  deriving DecidableEq, Repr

structure Req where
  id : ℕ
  partner : ℕ
  type : ReqType
  lastSendJiffies : ℕ
  resends : ℕ
  resendsMax : ℕ
  /-- Of a medium. -/
  fragsNr : ℕ
  fragsPendingNr : ℕ
  needAck : Bool
  needReply : Bool
  driverMediumsqSending : Bool
  deriving DecidableEq, Repr

/-- A post that was made. -/
def Req.sent (req : Req) (jiffies : ℕ) : Req :=
  { req with resends := req.resends + 1, lastSendJiffies := jiffies }

/-- The rate of the clock, and `ack_delay_jiffies`. -/
structure Config where
  hz : ℕ
  hz_lt : hz + 2 < 2 ^ 32
  ackDelayJiffies : ℕ

/-- `omx__resend_delay_jiffies`, with two resends a second. -/
def Config.resendDelayJiffies (c : Config) : ℕ := (c.hz + 2) / 2

theorem Config.resendDelayJiffies_pos (c : Config) : 0 < c.resendDelayJiffies :=
  Nat.div_pos (Nat.le_add_left 2 c.hz) Nat.two_pos

/-- "the remaining ones are more recent", unless this holds; the difference has 64 bits. -/
def Expired (c : Config) (now : ℕ) (req : Req) : Prop :=
  c.resendDelayJiffies ≤ (now + 2 ^ 64 - req.lastSendJiffies) % 2 ^ 64

instance (c : Config) (now : ℕ) (req : Req) : Decidable (Expired c now req) :=
  inferInstanceAs (Decidable (_ ≤ _))

/-! ## The endpoint -/

structure Endpoint where
  jiffies : ℕ
  nonAckedReqQ : List Req
  connectReqQ : List Req
  driverMediumsqSendingReqQ : List Req
  largeSendNeedReplyReqQ : List Req
  availExpEvents : ℕ
  reqResendsMax : ℕ
  /-- The requests so far. -/
  next : ℕ

namespace Endpoint

def init (availExpEvents reqResendsMax : ℕ) : Endpoint where
  jiffies := 0
  nonAckedReqQ := []
  connectReqQ := []
  driverMediumsqSendingReqQ := []
  largeSendNeedReplyReqQ := []
  availExpEvents := availExpEvents
  reqResendsMax := reqResendsMax
  next := 0

variable (c : Config) (ep : Endpoint)

/-- Time goes on. -/
def tick (n : ℕ) : Endpoint := { ep with jiffies := ep.jiffies + n }

/-- `omx__post_isend_mediumsq`, when the driver takes so many fragments.  If it does not take all
the first time, the rest is copied without an end, unless it was the last that it refused. -/
def postIsendMediumsq (accepted : ℕ) (req : Req) : Option (Endpoint × Req) :=
  let i := min accepted req.fragsNr
  if i < req.fragsNr then
    if req.resends = 0 ∧ i + 1 < req.fragsNr then none
    else
      let ep := { ep with availExpEvents := ep.availExpEvents + (req.fragsNr - i) }
      let req := { req with fragsPendingNr := i }
      if i = 0 then some (ep, req)
      else some (ep, { req.sent ep.jiffies with driverMediumsqSending := true })
  else
    some (ep, { req.sent ep.jiffies with fragsPendingNr := i, driverMediumsqSending := true })

/-- `omx__post_isend_*` and `omx__post_notify`, which leave a refused message to the resends. -/
def post (accepted : ℕ) (req : Req) : Option (Endpoint × Req) :=
  if req.type = .sendMediumsq then ep.postIsendMediumsq accepted req
  else some (ep, req.sent ep.jiffies)

/-- `omx__setup_isend_*` and `omx__setup_notify`.  The request has what `malloc` left for a stamp. -/
def setup (type : ReqType) (partner fragsNr accepted malloc : ℕ) : Option Endpoint :=
  let events := if type = .sendMediumsq then fragsNr else 0
  if type = .connect ∨ ep.availExpEvents < events then none
  else
    let req : Req :=
      { id := ep.next
        partner, type
        lastSendJiffies := malloc
        resends := 0
        resendsMax := ep.reqResendsMax
        fragsNr
        fragsPendingNr := 0
        needAck := false
        needReply := type = .sendLarge
        driverMediumsqSending := false }
    (post { ep with availExpEvents := ep.availExpEvents - events, next := ep.next + 1 }
      accepted req).map fun (ep, req) =>
      let req := { req with needAck := true }
      if req.driverMediumsqSending then
        { ep with driverMediumsqSendingReqQ := ep.driverMediumsqSendingReqQ ++ [req] }
      else { ep with nonAckedReqQ := ep.nonAckedReqQ ++ [req] }

/-- `omx__connect_common`, to another endpoint. -/
def connectCommon (partner : ℕ) : Endpoint :=
  let req : Req :=
    { id := ep.next
      partner
      type := .connect
      lastSendJiffies := ep.jiffies
      resends := 1
      resendsMax := ep.reqResendsMax
      fragsNr := 0
      fragsPendingNr := 0
      needAck := false
      needReply := true
      driverMediumsqSending := false }
  { ep with connectReqQ := ep.connectReqQ ++ [req], next := ep.next + 1 }

/-- A queue without a request. -/
def without (id : ℕ) (queue : List Req) : List Req := queue.filter fun req => req.id ≠ id

/-- `OMX_EVT_SEND_MEDIUMSQ_FRAG_DONE` of a request in the queue of the driver. -/
def fragDone (id : ℕ) : Option Endpoint :=
  (ep.driverMediumsqSendingReqQ.find? fun req => req.id = id).map fun req =>
    let ep := { ep with availExpEvents := ep.availExpEvents + 1 }
    let req := { req with fragsPendingNr := req.fragsPendingNr - 1 }
    if req.fragsPendingNr ≠ 0 then
      { ep with
        driverMediumsqSendingReqQ :=
          ep.driverMediumsqSendingReqQ.map fun req' => if req'.id = id then req else req' }
    else
      let ep :=
        { ep with driverMediumsqSendingReqQ := without id ep.driverMediumsqSendingReqQ }
      if req.needAck then
        { ep with nonAckedReqQ := ep.nonAckedReqQ ++ [{ req with driverMediumsqSending := false }] }
      else ep

/-- `omx__mark_request_acked`, with success or for a nack. -/
def markRequestAcked (id : ℕ) (success : Bool) : Endpoint :=
  match ep.nonAckedReqQ.find? fun req => req.id = id with
  | some req =>
      { ep with
        nonAckedReqQ := without id ep.nonAckedReqQ
        largeSendNeedReplyReqQ :=
          if success ∧ req.type = .sendLarge ∧ req.needReply then
            ep.largeSendNeedReplyReqQ ++ [{ req with needAck := false }]
          else ep.largeSendNeedReplyReqQ }
  | none =>
      { ep with
        driverMediumsqSendingReqQ := ep.driverMediumsqSendingReqQ.map fun req =>
          if req.id = id then { req with needAck := false } else req }

/-- `omx__process_recv_notify` for the send that reserves the region. -/
def processRecvNotify (id : ℕ) : Endpoint :=
  { ep with
    nonAckedReqQ := ep.nonAckedReqQ.map fun req =>
      if req.id = id then { req with needReply := false } else req
    largeSendNeedReplyReqQ := without id ep.largeSendNeedReplyReqQ }

/-- The requests of the other partners. -/
def others (partner : ℕ) (queue : List Req) : List Req :=
  queue.filter fun req => req.partner ≠ partner

/-- `omx__partner_cleanup`.  What is in the driver stays there. -/
def partnerCleanup (partner : ℕ) : Endpoint :=
  { ep with
    nonAckedReqQ := others partner ep.nonAckedReqQ
    connectReqQ := others partner ep.connectReqQ
    largeSendNeedReplyReqQ := others partner ep.largeSendNeedReplyReqQ
    driverMediumsqSendingReqQ := ep.driverMediumsqSendingReqQ.map fun req =>
      if req.partner = partner then { req with needAck := false } else req }

/-! ## The scans -/

theorem length_others_lt {req : Req} {queue all : List Req} (h : all = req :: queue) :
    (others req.partner all).length < all.length := by
  rw [h, others, List.filter_cons_of_neg (by simp)]
  exact Nat.lt_succ_of_le (List.length_filter_le _ _)

theorem length_tail_lt {req : Req} {queue all : List Req} (h : all = req :: queue) :
    queue.length < all.length := by
  rw [h]
  exact Nat.lt_succ_self _

/-- The first loop of `omx__process_resend_requests`, from a request on; what was posted is in
`tmp_req_q`.  The last component says whether "the remaining ones are more recent", or the events
for a medium lacked.  `expired` is the condition on the stamps. -/
def resendLoop (expired : Req → Bool) (accepted elapsed : ℕ → ℕ) (ep : Endpoint)
    (tmpReqQ : List Req) : Option (Endpoint × List Req × Bool) :=
  match _hq : ep.nonAckedReqQ with
  | [] => some (ep, tmpReqQ, true)
  | req :: queue =>
      if !expired req then some (ep, tmpReqQ, true)
      else if req.resendsMax < req.resends then
        -- `start_resending`
        resendLoop expired accepted elapsed (ep.partnerCleanup req.partner)
          (others req.partner tmpReqQ)
      else if req.type = .sendMediumsq ∧ ep.availExpEvents < req.fragsNr then
        some (ep, tmpReqQ, false)
      else
        let ep := ep.tick (elapsed req.id)
        let events := if req.type = .sendMediumsq then req.fragsNr else 0
        match post { ep with availExpEvents := ep.availExpEvents - events } (accepted req.id) req with
        | none => none
        | some (ep', req) =>
            if req.driverMediumsqSending then
              resendLoop expired accepted elapsed
                { ep' with
                  nonAckedReqQ := queue
                  driverMediumsqSendingReqQ := ep'.driverMediumsqSendingReqQ ++ [req] }
                tmpReqQ
            else
              resendLoop expired accepted elapsed { ep' with nonAckedReqQ := queue }
                (tmpReqQ ++ [req])
termination_by ep.nonAckedReqQ.length
decreasing_by
  · exact length_others_lt _hq
  · exact length_tail_lt _hq
  · exact length_tail_lt _hq

/-- The second loop, over the connect requests. -/
def reconnectLoop (expired : Req → Bool) (elapsed : ℕ → ℕ) (ep : Endpoint) (tmpReqQ : List Req) :
    Endpoint × List Req :=
  match _hq : ep.connectReqQ with
  | [] => (ep, tmpReqQ)
  | req :: queue =>
      if !expired req then (ep, tmpReqQ)
      else if req.resendsMax < req.resends then
        reconnectLoop expired elapsed (ep.partnerCleanup req.partner) (others req.partner tmpReqQ)
      else
        let ep := ep.tick (elapsed req.id)
        reconnectLoop expired elapsed { ep with connectReqQ := queue }
          (tmpReqQ ++ [req.sent ep.jiffies])
termination_by ep.connectReqQ.length
decreasing_by
  · change (others req.partner ep.connectReqQ).length < ep.connectReqQ.length
    exact length_others_lt _hq
  · change queue.length < ep.connectReqQ.length
    exact length_tail_lt _hq

/-- `omx__process_resend_requests`. -/
def processResendRequests (accepted elapsed : ℕ → ℕ) : Option Endpoint :=
  let expired : Req → Bool := fun req => Expired c ep.jiffies req
  (ep.resendLoop expired accepted elapsed []).map fun (ep, tmpReqQ, _) =>
    let (ep, tmpReqQ) := reconnectLoop expired elapsed
      { ep with nonAckedReqQ := ep.nonAckedReqQ ++ tmpReqQ } []
    { ep with connectReqQ := ep.connectReqQ ++ tmpReqQ }

/-- A date for the wakeup, if it is earlier than that so far.  `OMX_NO_WAKEUP_JIFFIES` is 0. -/
def earlier (wakeup tmp : ℕ) : ℕ := if tmp < wakeup ∨ wakeup = 0 then tmp else wakeup

/-- The date for the first request of a queue. -/
def wakeupFor (wakeup : ℕ) : List Req → ℕ
  | [] => wakeup
  | req :: _ => earlier wakeup ((req.lastSendJiffies + c.resendDelayJiffies) % 2 ^ 64)

/-- The date that `omx__prepare_progress_wakeup` computes; `oldest` is
`oldest_recv_time_not_acked` of the first partner to ack, if there is one. -/
def prepareProgressWakeup (oldest : Option ℕ) : ℕ :=
  wakeupFor c
    (wakeupFor c (oldest.elim 0 fun time => earlier 0 ((time + c.ackDelayJiffies) % 2 ^ 64))
      ep.nonAckedReqQ)
    ep.connectReqQ

end Endpoint

/-! ## Runs -/

inductive Action where
  | tick (n : ℕ)
  | setup (type : ReqType) (partner fragsNr accepted malloc : ℕ)
  | connect (partner : ℕ)
  | connectReply (id : ℕ)
  | fragDone (id : ℕ)
  | ack (id : ℕ) (success : Bool)
  | notify (id : ℕ)
  | cleanup (partner : ℕ)
  | resend (accepted elapsed : ℕ → ℕ)

def Endpoint.act (c : Config) (ep : Endpoint) : Action → Option Endpoint
  | .tick n => some (ep.tick n)
  | .setup type partner fragsNr accepted malloc => ep.setup type partner fragsNr accepted malloc
  | .connect partner => some (ep.connectCommon partner)
  | .connectReply id => some { ep with connectReqQ := without id ep.connectReqQ }
  | .fragDone id => ep.fragDone id
  | .ack id success => some (ep.markRequestAcked id success)
  | .notify id => some (ep.processRecvNotify id)
  | .cleanup partner => some (ep.partnerCleanup partner)
  | .resend accepted elapsed => ep.processResendRequests c accepted elapsed

/-- The large send that an ack takes out of the non-acked queue to wait for its reply. -/
def Endpoint.ackedLarge (ep : Endpoint) : Action → List Req
  | .ack id true =>
      ((ep.nonAckedReqQ.find? fun req => req.id = id).toList.filter fun req =>
        req.type = .sendLarge ∧ req.needReply).map fun req => { req with needAck := false }
  | _ => []

/-- A step, after which a resend can still be dated. -/
def Endpoint.step (c : Config) (ep : Endpoint) (a : Action) : Option Endpoint :=
  (ep.act c a).bind fun ep' =>
    if ep'.jiffies + c.resendDelayJiffies < 2 ^ 64 then some ep' else none

/-- The large sends that the acks of a run take out, in the order of the acks. -/
def Endpoint.ackedLarges (c : Config) (ep : Endpoint) : List Action → List Req
  | [] => []
  | a :: as => ep.ackedLarge a ++ (ep.step c a).elim [] fun ep' => ackedLarges c ep' as

/-- An endpoint, from its opening on. -/
def machine (c : Config) (availExpEvents reqResendsMax : ℕ) : Machine Endpoint Action where
  init := .init availExpEvents reqResendsMax
  step := Endpoint.step c

end Xen2mx.Resend
