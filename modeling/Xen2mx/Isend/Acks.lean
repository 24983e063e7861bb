/-
# `Xen2mx.Isend.Acks` — what an ack does to the requests of a partner

`omx__handle_ack` goes through `non_acked_req_q` from its head.  What it dequeues is marked
acked, and completes unless something else still has it; then as many throttled sends go as
there are new acks.

    request                              what the ack does
    send tiny, small, mediumva, notify   completes it
    send mediumsq                        completes it, unless the driver still sends it
    send large                           completes it, unless its reply is awaited

A request that goes while acks are handled brings one more number into the window, so an ack of
that number counts or not, as it comes after or before (`GivenMeanwhile`).

**Proved here.**

    a queue in order  ⟹  an ack in the window takes exactly what is before it; any other changes
        nothing; and acks in any order, none of a number given meanwhile, do what the most
        advanced of them does                                            (`handleAck_acks`)
-/
import Mathlib.Data.List.TakeWhile
import Xen2mx.Isend.Window
import Xen2mx.Request.Cleanup

namespace Xen2mx.Request

variable {ι : Type*}

/-! ## Acked requests -/

namespace Req

/-- The driver has not sent all of it, or its reply did not come. -/
def held (req : Req ι) : Bool :=
  match req.type with
  | .sendMediumsq => req.state.driverMediumsqSending
  | .sendLarge => req.state.needReply
  | _ => false

/-- The types that `omx__mark_request_acked` knows. -/
def acknowledged (req : Req ι) : Bool :=
  match req.type with
  | .sendTiny | .sendSmall | .sendMediumsq | .sendMediumva | .sendLarge | .recvLarge => true
  | _ => false

/-- What `omx__mark_request_acked` makes of a request, for an ack; it was `old`. -/
def acked (hasCtxids : Bool) (req old : Req ι) : Outcome ι :=
  let req' := { req with state := { req.state with needAck := false } }
  match req.type with
  | .sendTiny | .sendSmall | .sendMediumva | .recvLarge =>
      completed hasCtxids { req' with queueElt := none } false
  | .sendMediumsq =>
      if req.state.driverMediumsqSending then
        { new := some { req' with failed := req.failed || false }, completions := 0, dangling := [] }
      else completed hasCtxids { req' with queueElt := none } false
  | .sendLarge =>
      if req.state.needReply then
        { new := some { req' with queueElt := some .largeSendNeedReply }
          completions := 0
          dangling := [] }
      else completed hasCtxids { req' with queueElt := none } false
  | _ => { new := some old, completions := 0, dangling := [] }

theorem completions_acked (req : Req ι) (h : req.acknowledged = true) (hasCtxids : Bool)
    (old : Req ι) : (req.acked hasCtxids old).completions = if req.held then 0 else 1 := by
  unfold acknowledged at h
  unfold acked held
  cases htype : req.type with
  | sendTiny | sendSmall | sendMediumva | recvLarge => rfl
  | sendMediumsq => exact apply_ite Outcome.completions ..
  | sendLarge => exact apply_ite Outcome.completions ..
  | connect | recv | sendSelf | recvSelfUnexpected => simp [htype] at h

/-- What is held is only marked. -/
theorem new_acked_of_held (req : Req ι) (h : req.held = true) (hasCtxids : Bool) (old : Req ι) :
    ∃ req', (req.acked hasCtxids old).new = some req' ∧ req'.state.needAck = false ∧
      req'.type = req.type ∧ req'.held = true := by
  unfold held at h
  unfold acked
  split at h
  · rename_i htype
    simp only [htype, h, if_true]
    exact ⟨_, rfl, rfl, rfl, rfl⟩
  · rename_i htype
    simp only [htype, h, if_true]
    exact ⟨_, rfl, rfl, rfl, rfl⟩
  · cases h

end Req

theorem Round.ack {ep : Endpoint ι} {id : ℕ} {old : Req ι} (hold : ep.req id = some old)
    (req : Req ι) :
    Round ep (ep.markRequestAcked id req false) id (req.acked ep.hasCtxids old) := by
  obtain ⟨type, partner, state⟩ := req
  cases type with
  | sendTiny | sendSmall | sendMediumva | recvLarge => exact Round.complete ep id _ false
  | sendMediumsq =>
      unfold Endpoint.markRequestAcked Req.acked
      dsimp only
      split_ifs
      · exact Round.set ..
      · exact Round.complete ..
  | sendLarge =>
      unfold Endpoint.markRequestAcked Req.acked
      dsimp only
      rw [if_neg Bool.false_ne_true]
      split_ifs
      · exact Round.set ..
      · exact Round.complete ..
  | connect | recv | sendSelf | recvSelfUnexpected => exact Round.refl hold

/-- The loop of `omx__handle_ack`, as far as it goes. -/
def Loop.acks : Loop ι where
  sel req := req.acknowledged
  body ep id req := ep.markRequestAcked id { req with partnerElt := none } false
  out hasCtxids req := Req.acked hasCtxids { req with partnerElt := none } req
  round _ _ _ hreq := Round.ack hreq _

/-- A held request completes when it is given back. -/
theorem completions_of_held {req : Req ι} (hack : req.state.needAck = false) (ep : Endpoint ι)
    (id : ℕ) :
    (ep.mediumsqDone id req).completions id = ep.completions id + 1 ∧
      (ep.processRecvNotify id req).completions id = ep.completions id + 1 := by
  unfold Endpoint.mediumsqDone Endpoint.processRecvNotify
  rw [if_neg (by simp [hack]), if_neg (by simp [hack])]
  constructor
  · exact (congrFun (Round.complete ep id _ false).completions id).trans (Function.update_self ..)
  · exact (congrFun (Round.complete ep id _ false).completions id).trans (Function.update_self ..)

end Xen2mx.Request

namespace Xen2mx.Isend

variable {ι : Type*}

/-! ## Requests and queues -/

/-- The type of the request itself. -/
def ReqType.request : ReqType → Request.ReqType
  | .sendTiny => .sendTiny
  | .sendSmall => .sendSmall
  | .sendMediumsq => .sendMediumsq
  | .sendMediumva => .sendMediumva
  | .sendLarge => .sendLarge
  | .recvLarge => .recvLarge

/-- The requests of an endpoint, and the queues of a partner.  Here `number` is which request
it is. -/
structure Flight (ι : Type*) where
  requests : Request.Endpoint ι
  partner : Partner ι

namespace Flight

open Request (Loop)

variable (s : Flight ι)

/-- The loop of `omx__handle_ack` over `non_acked_req_q`. -/
def ackLoop (partner : Partner ι) (newAcks : ℕ) :
    List (Req ι) → Request.Endpoint ι → List (Req ι) × Request.Endpoint ι
  | [], requests => ([], requests)
  | req :: queue, requests =>
      if newAcks ≤ partner.reqIndex req then (req :: queue, requests)
      else
        ackLoop partner newAcks queue
          ((requests.req req.number).elim requests fun r =>
            requests.markRequestAcked req.number { r with partnerElt := none } false)

/-- The loop of `omx__process_throttling_requests` with `nr` to go, and how many it sent.
`sending` tells of which mediumsq the driver takes some fragments. -/
def throttlingLoop (sending : ℕ → Bool) : (nr : ℕ) → Flight ι → ℕ × Flight ι
  | 0, s => (0, s)
  | nr + 1, s =>
      match s.partner.needSeqnumSendReqQ with
      | [] => (0, s)
      | req :: queue =>
          let rest := throttlingLoop sending nr
            { requests := (s.requests.req req.number).elim s.requests fun r =>
                s.requests.processThrottling req.number r (sending req.number)
              partner := { s.partner with needSeqnumSendReqQ := queue }.setup req }
          (rest.1 + 1, rest.2)

/-- `omx__process_throttling_requests`. -/
def processThrottlingRequests (sending : ℕ → Bool) (nr : ℕ) : Flight ι :=
  let loop := s.throttlingLoop sending nr
  { loop.2 with
    partner :=
      { loop.2.partner with throttlingSendsNr := loop.2.partner.throttlingSendsNr - loop.1 } }

/-- `omx__handle_ack`. -/
def handleAck (sending : ℕ → Bool) (ackBefore : Seqnum) : Flight ι :=
  if s.partner.newAcks ackBefore = 0 ∨ s.partner.missingAcks < s.partner.newAcks ackBefore then s
  else
    let loop := ackLoop s.partner (s.partner.newAcks ackBefore) s.partner.nonAckedReqQ s.requests
    processThrottlingRequests
      { requests := loop.2
        partner := { s.partner with nonAckedReqQ := loop.1, nextAckedSendSeq := ackBefore } }
      sending (s.partner.newAcks ackBefore)

/-- One ack after the other. -/
def handleAcks (sending : ℕ → Bool) (acks : List Seqnum) : Flight ι :=
  acks.foldl (fun s' ack => s'.handleAck sending ack) s

/-! ### What an ack comes to -/

/-- The queues hold the requests, each in one place. -/
structure Coherent : Prop where
  nodup :
    ((s.partner.nonAckedReqQ ++ s.partner.needSeqnumSendReqQ).map Req.number).Nodup
  queued : ∀ req ∈ s.partner.nonAckedReqQ, ∃ r, s.requests.req req.number = some r ∧
    r.type = req.type.request ∧ r.partnerElt = some .nonAcked
  waiting : ∀ req ∈ s.partner.needSeqnumSendReqQ, ∃ r, s.requests.req req.number = some r ∧
    r.type = req.type.request ∧ r.partnerElt = some .needSeqnum

/-- The requests that an ack of the first `n` numbers is for. -/
def acked (n : ℕ) : List (Req ι) :=
  s.partner.nonAckedReqQ.filter fun req => s.partner.reqIndex req < n

/-- Something else still has the request. -/
def held (req : Req ι) : Bool := (s.requests.req req.number).any Request.Req.held

/-- `s'` is `s` with the first `n` numbers acknowledged. -/
structure Advances (n : ℕ) (s' : Flight ι) : Prop where
  partner : s.partner.Advances n s'.partner
  completed : ∀ id, s'.requests.completions id = s.requests.completions id +
    if ∃ req ∈ s.acked n, s.held req = false ∧ req.number = id then 1 else 0
  marked : ∀ req ∈ s.acked n, s.held req = true →
    ∃ r, s'.requests.req req.number = some r ∧ r.state.needAck = false
  posted : ∀ req ∈ s.partner.needSeqnumSendReqQ.take n, ∃ r,
    s'.requests.req req.number = some r ∧ r.type = req.type.request ∧ r.partnerElt = some .nonAcked
  kept : ∀ id, id ∉ (s.acked n).map Req.number →
    id ∉ (s.partner.needSeqnumSendReqQ.take n).map Req.number →
      s'.requests.req id = s.requests.req id

section Rounds

variable {s}

theorem mem_acked {n : ℕ} {req : Req ι} :
    req ∈ s.acked n ↔ req ∈ s.partner.nonAckedReqQ ∧ s.partner.reqIndex req < n := by
  rw [acked, List.mem_filter, decide_eq_true_eq]

/-- In order, the loop stops where nothing acked follows. -/
theorem takeWhile_eq_acked (h : s.partner.Ordered) (n : ℕ) :
    (s.partner.nonAckedReqQ.takeWhile fun req => s.partner.reqIndex req < n) = s.acked n := by
  have hsplit := List.takeWhile_append_dropWhile
    (p := fun req => s.partner.reqIndex req < n) (l := s.partner.nonAckedReqQ)
  have hacked : s.acked n =
      (s.partner.nonAckedReqQ.takeWhile fun req => s.partner.reqIndex req < n).filter
        (fun req => s.partner.reqIndex req < n) ++
      (s.partner.nonAckedReqQ.dropWhile fun req => s.partner.reqIndex req < n).filter
        (fun req => s.partner.reqIndex req < n) := by
    rw [← List.filter_append, hsplit]
    rfl
  have htaken : ∀ req ∈ s.partner.nonAckedReqQ.takeWhile (fun req => s.partner.reqIndex req < n),
      decide (s.partner.reqIndex req < n) = true :=
    fun _ hreq => List.mem_takeWhile_imp (p := fun req => s.partner.reqIndex req < n) hreq
  rw [hacked, List.filter_eq_self.2 htaken, List.filter_eq_nil_iff.2, List.append_nil]
  intro req hreq
  rw [Partner.dropWhile_eq_filter h.sorted, List.mem_filter] at hreq
  simpa using hreq.2

theorem acknowledged_of_type {r : Request.Req ι} {type : ReqType} (h : r.type = type.request) :
    r.acknowledged = true := by
  unfold Request.Req.acknowledged
  rw [h]
  cases type <;> rfl

theorem ackLoop_eq (partner : Partner ι) (n : ℕ) (queue : List (Req ι))
    (requests : Request.Endpoint ι) :
    ackLoop partner n queue requests =
      (queue.dropWhile fun req => partner.reqIndex req < n,
        ((queue.takeWhile fun req => partner.reqIndex req < n).map Req.number).foldl
          Loop.acks.turn requests) := by
  induction queue generalizing requests with
  | nil => rfl
  | cons req queue ih =>
      unfold ackLoop
      split
      · rename_i hle
        rw [List.dropWhile_cons_of_neg (by simpa using hle),
          List.takeWhile_cons_of_neg (by simpa using hle)]
        rfl
      · rename_i hlt
        rw [ih, List.dropWhile_cons_of_pos (by simpa using hlt),
          List.takeWhile_cons_of_pos (by simpa using hlt)]
        rfl

/-- A throttled request that goes waits for its ack. -/
theorem round_processThrottling (requests : Request.Endpoint ι) (id : ℕ) {r : Request.Req ι}
    {type : ReqType} (htype : r.type = type.request) (sending : Bool) :
    ∃ r', Request.Round requests (requests.processThrottling id r sending) id ⟨some r', 0, []⟩ ∧
      r'.type = type.request ∧ r'.partnerElt = some .nonAcked := by
  have hearly : ∀ r₁ : Request.Req ι, r₁.type = type.request → r₁.partnerElt = some .nonAcked →
      ∃ r', Request.Round requests (requests.notifyRequestDoneEarly id r₁) id ⟨some r', 0, []⟩ ∧
        r'.type = type.request ∧ r'.partnerElt = some .nonAcked := by
    intro r₁ htype₁ helt
    unfold Request.Endpoint.notifyRequestDoneEarly
    dsimp only
    split_ifs
    · exact ⟨_, .set .., htype₁, helt⟩
    · exact ⟨_, .set .., htype₁, helt⟩
    · exact ⟨_, .set .., htype₁, helt⟩
  unfold Request.Endpoint.processThrottling Request.Endpoint.setup
  cases type with
  | sendTiny | sendSmall | recvLarge =>
      simp only [htype, ReqType.request]
      exact hearly _ rfl rfl
  | sendMediumsq =>
      simp only [htype, ReqType.request]
      split
      · exact hearly _ rfl rfl
      · exact hearly _ rfl rfl
  | sendMediumva | sendLarge =>
      simp only [htype, ReqType.request]
      exact ⟨_, .set .., rfl, rfl⟩

theorem partner_throttlingLoop (sending : ℕ → Bool) (nr : ℕ) (s : Flight ι) :
    (throttlingLoop sending nr s).1 = (s.partner.processThrottling nr).1 ∧
      (throttlingLoop sending nr s).2.partner = (s.partner.processThrottling nr).2 := by
  induction nr generalizing s with
  | zero => exact ⟨rfl, rfl⟩
  | succ nr ih =>
      unfold throttlingLoop Partner.processThrottling
      cases s.partner.needSeqnumSendReqQ with
      | nil => exact ⟨rfl, rfl⟩
      | cons req queue =>
          obtain ⟨hsent, hpartner⟩ := ih
            { requests := (s.requests.req req.number).elim s.requests fun r =>
                s.requests.processThrottling req.number r (sending req.number)
              partner := { s.partner with needSeqnumSendReqQ := queue }.setup req }
          exact ⟨congrArg (· + 1) hsent, hpartner⟩

/-- What the throttled requests that go change, and what they do not. -/
theorem requests_throttlingLoop (sending : ℕ → Bool) (nr : ℕ) (s : Flight ι)
    (hnodup : (s.partner.needSeqnumSendReqQ.map Req.number).Nodup)
    (hwaiting : ∀ req ∈ s.partner.needSeqnumSendReqQ, ∃ r,
      s.requests.req req.number = some r ∧ r.type = req.type.request) :
    (∀ id, id ∉ (s.partner.needSeqnumSendReqQ.take nr).map Req.number →
        (throttlingLoop sending nr s).2.requests.req id = s.requests.req id) ∧
      (throttlingLoop sending nr s).2.requests.completions = s.requests.completions ∧
        ∀ req ∈ s.partner.needSeqnumSendReqQ.take nr, ∃ r,
          (throttlingLoop sending nr s).2.requests.req req.number = some r ∧
            r.type = req.type.request ∧ r.partnerElt = some .nonAcked := by
  induction nr generalizing s with
  | zero => exact ⟨fun _ _ => rfl, rfl, by simp⟩
  | succ nr ih =>
      unfold throttlingLoop
      cases hqueue : s.partner.needSeqnumSendReqQ with
      | nil => exact ⟨fun _ _ => rfl, rfl, by simp⟩
      | cons req queue =>
          rw [hqueue] at hnodup hwaiting
          obtain ⟨hnot, hnodup⟩ := List.nodup_cons.1 hnodup
          obtain ⟨r, hr, htype⟩ := hwaiting req (List.mem_cons_self ..)
          obtain ⟨r', hround, hr'⟩ := round_processThrottling s.requests req.number htype
            (sending req.number)
          have hreqs : ∀ id, id ≠ req.number →
              (s.requests.processThrottling req.number r (sending req.number)).req id =
                s.requests.req id := by
            intro id hne
            rw [hround.req, Function.update_of_ne hne]
          have hne : ∀ req' ∈ queue, req'.number ≠ req.number := fun req' hreq' heq =>
            hnot (heq ▸ List.mem_map_of_mem hreq')
          obtain ⟨hkept, hcompletions, hsent⟩ := ih
            ⟨s.requests.processThrottling req.number r (sending req.number),
              { s.partner with needSeqnumSendReqQ := queue }.setup req⟩ hnodup fun req' hreq' => by
                rw [hreqs _ (hne req' hreq')]
                exact hwaiting req' (List.mem_cons_of_mem _ hreq')
          simp only [hr, Option.elim_some, List.take_succ_cons, List.map_cons, List.mem_cons,
            not_or]
          refine ⟨fun id hid => (hkept id hid.2).trans (hreqs id hid.1), ?_, ?_⟩
          · rw [hcompletions, hround.completions]
            exact Function.update_eq_self ..
          · rintro req' (rfl | hreq')
            · refine ⟨r', ?_, hr'⟩
              rw [hkept _ fun hmem => hnot
                (List.map_subset _ (List.take_subset ..) hmem), hround.req, Function.update_self]
            · exact hsent req' hreq'

end Rounds

theorem handleAck_of_not {s : Flight ι} {sending : ℕ → Bool} {ackBefore : Seqnum}
    (h : ¬ s.partner.InWindow ackBefore) : s.handleAck sending ackBefore = s := by
  unfold handleAck
  refine if_pos ?_
  rcases not_and_or.1 h with h | h
  · exact .inl (not_not.1 h)
  · exact .inr (Nat.lt_of_not_le h)

section Step

variable {s} (hcoherent : s.Coherent)
include hcoherent

namespace Coherent

theorem nodup_queued : (s.partner.nonAckedReqQ.map Req.number).Nodup := by
  have hnodup := hcoherent.nodup
  rw [List.map_append] at hnodup
  exact (List.nodup_append.1 hnodup).1

theorem nodup_waiting : (s.partner.needSeqnumSendReqQ.map Req.number).Nodup := by
  have hnodup := hcoherent.nodup
  rw [List.map_append] at hnodup
  exact (List.nodup_append.1 hnodup).2.1

theorem number_ne {req req' : Req ι} (h : req ∈ s.partner.nonAckedReqQ)
    (h' : req' ∈ s.partner.needSeqnumSendReqQ) : req.number ≠ req'.number := by
  have hnodup := hcoherent.nodup
  rw [List.map_append] at hnodup
  exact (List.nodup_append.1 hnodup).2.2 _ (List.mem_map_of_mem h) _ (List.mem_map_of_mem h')

theorem eq_of_number {req req' : Req ι} (h : req ∈ s.partner.nonAckedReqQ)
    (h' : req' ∈ s.partner.nonAckedReqQ) (heq : req.number = req'.number) : req = req' :=
  List.inj_on_of_nodup_map hcoherent.nodup_queued h h' heq

/-- A number of an acked request is of no throttled one. -/
theorem not_mem_waiting {n k : ℕ} {req : Req ι} (h : req ∈ s.acked n) :
    req.number ∉ (s.partner.needSeqnumSendReqQ.take k).map Req.number := by
  intro hmem
  obtain ⟨req', hreq', heq⟩ := List.mem_map.1 hmem
  exact hcoherent.number_ne (mem_acked.1 h).1 (List.mem_of_mem_take hreq') heq.symm

/-- The rounds for what is acked. -/
theorem rounds (n : ℕ) : Loop.acks.Rounds ((s.acked n).map Req.number) s.requests
    (((s.acked n).map Req.number).foldl Loop.acks.turn s.requests) := by
  refine Loop.acks.rounds _ ?_ s.requests fun id hid => ?_
  · exact hcoherent.nodup_queued.sublist (List.filter_sublist.map _)
  · obtain ⟨req, hreq, rfl⟩ := List.mem_map.1 hid
    obtain ⟨r, hr, -⟩ := hcoherent.queued req (mem_acked.1 hreq).1
    exact fun hnone => nomatch hnone.symm.trans hr

theorem completions_rounds (n id : ℕ) :
    (((s.acked n).map Req.number).foldl Loop.acks.turn s.requests).completions id =
      s.requests.completions id +
        if ∃ req ∈ s.acked n, s.held req = false ∧ req.number = id then 1 else 0 := by
  have hrounds := hcoherent.rounds n
  by_cases hid : id ∈ (s.acked n).map Req.number
  · obtain ⟨req, hreq, rfl⟩ := List.mem_map.1 hid
    obtain ⟨r, hr, htype, -⟩ := hcoherent.queued req (mem_acked.1 hreq).1
    have hheld : s.held req = r.held := by rw [held, hr, Option.any_some]
    have hout : (Loop.acks.out s.requests.hasCtxids r).completions = if r.held then 0 else 1 :=
      Request.Req.completions_acked { r with partnerElt := none } (acknowledged_of_type htype) _ r
    rw [(hrounds.turned _ hid r hr).2, hout]
    cases hr' : r.held with
    | true =>
        rw [if_pos rfl, if_neg]
        rintro ⟨req', hreq', hnot, hnumber⟩
        obtain rfl := hcoherent.eq_of_number (mem_acked.1 hreq').1 (mem_acked.1 hreq).1 hnumber
        exact nomatch hr'.symm.trans (hheld.symm.trans hnot)
    | false =>
        rw [if_neg Bool.false_ne_true, if_pos ⟨req, hreq, hheld.trans hr', rfl⟩]
  · rw [(hrounds.kept id hid).2, if_neg, Nat.add_zero]
    rintro ⟨req, hreq, -, rfl⟩
    exact hid (List.mem_map_of_mem hreq)

end Coherent

omit hcoherent in
/-- The queues of the partner change as in the model of sends. -/
theorem partner_handleAck (sending : ℕ → Bool) (ackBefore : Seqnum) :
    (s.handleAck sending ackBefore).partner = s.partner.handleAck ackBefore := by
  unfold handleAck Partner.handleAck
  split
  · rfl
  · unfold processThrottlingRequests
    obtain ⟨hsent, hpartner⟩ := partner_throttlingLoop sending (s.partner.newAcks ackBefore)
      { requests := (ackLoop s.partner (s.partner.newAcks ackBefore) s.partner.nonAckedReqQ
          s.requests).2
        partner := { s.partner with
          nonAckedReqQ := (ackLoop s.partner (s.partner.newAcks ackBefore) s.partner.nonAckedReqQ
            s.requests).1
          nextAckedSendSeq := ackBefore } }
    dsimp only
    rw [hsent, hpartner, ackLoop_eq]

theorem advances_handleAck (hordered : s.partner.Ordered) {ackBefore : Seqnum}
    (hwindow : s.partner.InWindow ackBefore) (sending : ℕ → Bool) :
    s.Advances (s.partner.newAcks ackBefore) (s.handleAck sending ackBefore) := by
  have hpartner : s.partner.Advances (s.partner.newAcks ackBefore)
      (s.handleAck sending ackBefore).partner := by
    rw [partner_handleAck]
    exact Partner.advances_handleAck hordered hwindow
  revert hpartner
  have hrounds := hcoherent.rounds (s.partner.newAcks ackBefore)
  have hcompletions := hcoherent.completions_rounds (s.partner.newAcks ackBefore)
  unfold handleAck
  rw [if_neg (not_or.2 ⟨hwindow.1, Nat.not_lt.2 hwindow.2⟩), ackLoop_eq,
    takeWhile_eq_acked hordered]
  generalize ((s.acked (s.partner.newAcks ackBefore)).map Req.number).foldl Loop.acks.turn
    s.requests = requests at hrounds hcompletions ⊢
  intro hpartner
  -- what is left to do is `omx__process_throttling_requests`
  obtain ⟨hkept, hsame, hposted⟩ := requests_throttlingLoop sending (s.partner.newAcks ackBefore)
    ⟨requests, { s.partner with
      nonAckedReqQ := s.partner.nonAckedReqQ.dropWhile fun req =>
        s.partner.reqIndex req < s.partner.newAcks ackBefore
      nextAckedSendSeq := ackBefore }⟩
    hcoherent.nodup_waiting fun req hreq => by
      obtain ⟨r, hr, htype, -⟩ := hcoherent.waiting req hreq
      refine ⟨r, ((hrounds.kept _ fun hmem => ?_).1).trans hr, htype⟩
      obtain ⟨req', hreq', heq⟩ := List.mem_map.1 hmem
      exact hcoherent.number_ne (mem_acked.1 hreq').1 hreq heq
  refine ⟨hpartner, fun id => ?_, fun req hreq hheld => ?_, hposted,
    fun id hid hid' => (hkept id hid').trans (hrounds.kept id hid).1⟩
  · exact (congrFun hsame id).trans (hcompletions id)
  · obtain ⟨r, hr, -⟩ := hcoherent.queued req (mem_acked.1 hreq).1
    rw [held, hr, Option.any_some] at hheld
    obtain ⟨r', hnew, hack, -⟩ := Request.Req.new_acked_of_held { r with partnerElt := none }
      hheld s.requests.hasCtxids r
    refine ⟨r', ?_, hack⟩
    exact ((hkept _ (hcoherent.not_mem_waiting hreq)).trans
      (hrounds.turned _ (List.mem_map_of_mem hreq) r hr).1).trans hnew

end Step

namespace Advances

variable {s} {s' s'' : Flight ι} {n m : ℕ} (h : s.Advances n s')
include h

theorem coherent (hcoherent : s.Coherent) : s'.Coherent := by
  have hnumbers : ((s.partner.nonAckedReqQ.filter fun req => n ≤ s.partner.reqIndex req) ++
      s.partner.needSeqnumSendReqQ).map Req.number |>.Nodup :=
    hcoherent.nodup.sublist ((List.filter_sublist.append (List.Sublist.refl _)).map _)
  refine ⟨?_, fun req hreq => ?_, fun req hreq => ?_⟩
  · rw [h.partner.queue, h.partner.throttled, List.append_assoc, List.map_append, List.map_append,
      Partner.map_number_numbered, ← List.map_append, List.take_append_drop, ← List.map_append]
    exact hnumbers
  · rw [h.partner.queue] at hreq
    rcases List.mem_append.1 hreq with hreq | hreq
    · obtain ⟨hreq, hge⟩ := List.mem_filter.1 hreq
      obtain ⟨r, hr, hr'⟩ := hcoherent.queued req hreq
      refine ⟨r, (h.kept _ ?_ ?_).trans hr, hr'⟩
      · intro hmem
        obtain ⟨req', hreq', heq⟩ := List.mem_map.1 hmem
        obtain ⟨hreq', hlt⟩ := mem_acked.1 hreq'
        obtain rfl := hcoherent.eq_of_number hreq' hreq heq
        exact absurd (of_decide_eq_true hge) (Nat.not_le.2 hlt)
      · intro hmem
        obtain ⟨req', hreq', heq⟩ := List.mem_map.1 hmem
        exact hcoherent.number_ne hreq (List.mem_of_mem_take hreq') heq.symm
    · obtain ⟨req', hreq', hnumber, htype⟩ := Partner.mem_numbered hreq
      rw [hnumber, htype]
      exact h.posted req' hreq'
  · rw [h.partner.throttled] at hreq
    obtain ⟨r, hr, hr'⟩ := hcoherent.waiting req (List.mem_of_mem_drop hreq)
    refine ⟨r, (h.kept _ ?_ ?_).trans hr, hr'⟩
    · intro hmem
      obtain ⟨req', hreq', heq⟩ := List.mem_map.1 hmem
      exact hcoherent.number_ne (mem_acked.1 hreq').1 (List.mem_of_mem_drop hreq) heq
    · intro hmem
      have hnodup := hcoherent.nodup_waiting
      rw [← List.take_append_drop n s.partner.needSeqnumSendReqQ, List.map_append] at hnodup
      exact (List.nodup_append.1 hnodup).2.2 _ hmem _ (List.mem_map_of_mem hreq) rfl

theorem mem_acked_iff (hle : n + m ≤ s.partner.missingAcks) {req : Req ι} :
    req ∈ s'.acked m ↔
      req ∈ s.partner.nonAckedReqQ ∧ n ≤ s.partner.reqIndex req ∧
        s.partner.reqIndex req < n + m := by
  rw [mem_acked, h.partner.queue, List.mem_append, List.mem_filter, decide_eq_true_eq]
  constructor
  · rintro ⟨⟨hreq, hge⟩ | hnew, hlt⟩
    · rw [h.partner.reqIndex_eq hge] at hlt
      exact ⟨hreq, hge, by omega⟩
    · have hge := ((h.partner.new (by omega)).2 req hnew).1
      omega
  · rintro ⟨hreq, hge, hlt⟩
    refine ⟨.inl ⟨hreq, hge⟩, ?_⟩
    rw [h.partner.reqIndex_eq hge]
    omega

/-- What the first numbers do not concern is as it was. -/
theorem req_eq (hcoherent : s.Coherent) {req : Req ι} (hreq : req ∈ s.partner.nonAckedReqQ)
    (hge : n ≤ s.partner.reqIndex req) :
    s'.requests.req req.number = s.requests.req req.number := by
  refine h.kept _ (fun hmem => ?_) fun hmem => ?_
  · obtain ⟨req', hreq', heq⟩ := List.mem_map.1 hmem
    obtain ⟨hreq', hlt⟩ := mem_acked.1 hreq'
    obtain rfl := hcoherent.eq_of_number hreq' hreq heq
    exact absurd hge (Nat.not_le.2 hlt)
  · obtain ⟨req', hreq', heq⟩ := List.mem_map.1 hmem
    exact hcoherent.number_ne hreq (List.mem_of_mem_take hreq') heq.symm

/-- Two acks, the second further than the first, come to the second. -/
theorem trans (hcoherent : s.Coherent) (h' : s'.Advances m s'')
    (hle : n + m ≤ s.partner.missingAcks) : s.Advances (n + m) s'' := by
  have hcoherent' := h.coherent hcoherent
  have htake : s.partner.needSeqnumSendReqQ.take (n + m) =
      s.partner.needSeqnumSendReqQ.take n ++ s'.partner.needSeqnumSendReqQ.take m := by
    rw [h.partner.throttled, List.take_add]
  have hacked : ∀ req, req ∈ s.acked (n + m) ↔ req ∈ s.acked n ∨ req ∈ s'.acked m := by
    intro req
    rw [h.mem_acked_iff hle, mem_acked, mem_acked]
    constructor
    · rintro ⟨hreq, hreqlt⟩
      exact (Nat.lt_or_ge (s.partner.reqIndex req) n).imp (⟨hreq, ·⟩) (⟨hreq, ·, hreqlt⟩)
    · rintro (⟨hreq, hreqlt⟩ | ⟨hreq, -, hreqlt⟩)
      · exact ⟨hreq, by omega⟩
      · exact ⟨hreq, hreqlt⟩
  have hheld : ∀ req ∈ s'.acked m, s'.held req = s.held req := by
    intro req hreq
    obtain ⟨hreq, hge, -⟩ := (h.mem_acked_iff hle).1 hreq
    rw [held, held, h.req_eq hcoherent hreq hge]
  -- nothing is acked twice
  have hdisjoint : ∀ req ∈ s.acked n, req.number ∉ (s'.acked m).map Req.number := by
    intro req hreq hmem
    obtain ⟨req', hreq', heq⟩ := List.mem_map.1 hmem
    obtain ⟨hreq', hge, -⟩ := (h.mem_acked_iff hle).1 hreq'
    obtain ⟨hreq, hreqlt⟩ := mem_acked.1 hreq
    obtain rfl := hcoherent.eq_of_number hreq' hreq heq
    exact absurd hge (Nat.not_le.2 hreqlt)
  refine ⟨h.partner.trans h'.partner hle, fun id => ?_, fun req hreq hreqheld => ?_,
    fun req hreq => ?_, fun id hid hid' => ?_⟩
  · rw [h'.completed, h.completed, Nat.add_assoc]
    congr 1
    by_cases hfirst : ∃ req ∈ s.acked n, s.held req = false ∧ req.number = id
    · obtain ⟨req, hreq, hnot, rfl⟩ := hfirst
      rw [if_pos ⟨req, hreq, hnot, rfl⟩, if_neg,
        if_pos ⟨req, (hacked req).2 (.inl hreq), hnot, rfl⟩]
      rintro ⟨req', hreq', -, heq⟩
      exact hdisjoint req hreq (heq ▸ List.mem_map_of_mem hreq')
    · rw [if_neg hfirst, Nat.zero_add]
      refine if_congr ⟨?_, ?_⟩ rfl rfl
      · rintro ⟨req, hreq, hnot, hnumber⟩
        exact ⟨req, (hacked req).2 (.inr hreq), (hheld req hreq).symm.trans hnot, hnumber⟩
      · rintro ⟨req, hreq, hnot, hnumber⟩
        rcases (hacked req).1 hreq with hreq | hreq
        · exact absurd ⟨req, hreq, hnot, hnumber⟩ hfirst
        · exact ⟨req, hreq, (hheld req hreq).trans hnot, hnumber⟩
  · rcases (hacked req).1 hreq with hreq | hreq
    · obtain ⟨r, hr, hack⟩ := h.marked req hreq hreqheld
      refine ⟨r, (h'.kept _ (hdisjoint req hreq) fun hmem => ?_).trans hr, hack⟩
      obtain ⟨req', hreq', heq⟩ := List.mem_map.1 hmem
      have hwaiting := List.mem_of_mem_take hreq'
      rw [h.partner.throttled] at hwaiting
      exact hcoherent.number_ne (mem_acked.1 hreq).1 (List.mem_of_mem_drop hwaiting) heq.symm
    · exact h'.marked req hreq ((hheld req hreq).trans hreqheld)
  · rw [htake] at hreq
    rcases List.mem_append.1 hreq with hreq | hreq
    · -- it is in the queue now, behind what the second ack takes
      obtain ⟨r, hr, htype⟩ := h.posted req hreq
      have hmem : req.number ∈ (Partner.numbered s.partner.nextSendSeq
          (s.partner.needSeqnumSendReqQ.take n)).map Req.number := by
        rw [Partner.map_number_numbered]
        exact List.mem_map_of_mem hreq
      obtain ⟨req', hreq', heq⟩ := List.mem_map.1 hmem
      have hge := ((h.partner.new (by omega)).2 req' hreq').1
      have hqueued : req' ∈ s'.partner.nonAckedReqQ := by
        rw [h.partner.queue]
        exact List.mem_append_right _ hreq'
      have heq' := h'.req_eq hcoherent' hqueued (by omega)
      rw [heq] at heq'
      exact ⟨r, heq'.trans hr, htype⟩
    · exact h'.posted req hreq
  · rw [htake, List.map_append, List.mem_append, not_or] at hid'
    refine (h'.kept id (fun hmem => hid ?_) hid'.2).trans (h.kept id (fun hmem => hid ?_) hid'.1)
    · obtain ⟨req, hreq, heq⟩ := List.mem_map.1 hmem
      exact List.mem_map.2 ⟨req, (hacked req).2 (.inr hreq), heq⟩
    · obtain ⟨req, hreq, heq⟩ := List.mem_map.1 hmem
      exact List.mem_map.2 ⟨req, (hacked req).2 (.inl hreq), heq⟩

/-- One more ack, if it is not of a number that was given since `s`. -/
theorem handleAck (hordered : s.partner.Ordered) (hcoherent : s.Coherent)
    (hle : n ≤ s.partner.missingAcks) {ackBefore : Seqnum}
    (hgiven : (ackBefore - s.partner.nextSendSeq).num ≠ 0 →
      min n s.partner.needSeqnumSendReqQ.length < (ackBefore - s.partner.nextSendSeq).num)
    (sending : ℕ → Bool) :
    s.Advances (if s.partner.InWindow ackBefore then max n (s.partner.newAcks ackBefore) else n)
      (s'.handleAck sending ackBefore) := by
  have hacked := h.partner.acked
  have hmissing := (h.partner.missingAcks_eq hle).2
  have hlt := s.partner.missingAcks_lt
  have hnew := Seqnum.num_sub_sub ackBefore s'.partner.nextAckedSendSeq s.partner.nextAckedSendSeq
  have hnext := Seqnum.num_sub_sub ackBefore s.partner.nextSendSeq s.partner.nextAckedSendSeq
  have hacklt := Seqnum.num_lt (ackBefore - s.partner.nextAckedSendSeq)
  rw [hacked] at hnew
  change s'.partner.newAcks ackBefore = if n ≤ s.partner.newAcks ackBefore then
    s.partner.newAcks ackBefore - n else 2 ^ 14 + s.partner.newAcks ackBefore - n at hnew
  change _ = if s.partner.missingAcks ≤ s.partner.newAcks ackBefore then
    s.partner.newAcks ackBefore - s.partner.missingAcks
    else 2 ^ 14 + s.partner.newAcks ackBefore - s.partner.missingAcks at hnext
  change s.partner.newAcks ackBefore < _ at hacklt
  by_cases hforward : s.partner.InWindow ackBefore ∧ n < s.partner.newAcks ackBefore
  · obtain ⟨hwindow, hfurther⟩ := hforward
    rw [if_pos hfurther.le] at hnew
    have hsum : s.partner.newAcks ackBefore = n + s'.partner.newAcks ackBefore := by omega
    have hwindow' : s'.partner.InWindow ackBefore :=
      ⟨by omega, by rw [hmissing]; have hin := hwindow.2; omega⟩
    rw [if_pos hwindow, max_eq_right hfurther.le, hsum]
    exact h.trans hcoherent (advances_handleAck (h.coherent hcoherent)
      (h.partner.ordered hordered hle) hwindow' sending) (hsum ▸ hwindow.2)
  · -- an ack of the past, or of what was not sent
    have hsame : (if s.partner.InWindow ackBefore then max n (s.partner.newAcks ackBefore)
        else n) = n := by
      split
      · rename_i hwindow
        exact max_eq_left (not_lt.1 fun hfurther => hforward ⟨hwindow, hfurther⟩)
      · rfl
    have hnot : ¬ s'.partner.InWindow ackBefore := by
      unfold Partner.InWindow at hforward ⊢
      rw [hnew, hmissing]
      rw [hnext] at hgiven
      split_ifs at hgiven ⊢ <;> omega
    rw [hsame, handleAck_of_not hnot]
    exact h

end Advances

theorem Advances.refl (s : Flight ι) : s.Advances 0 s := by
  have hnone : ∀ req, req ∉ s.acked 0 := fun req hreq => Nat.not_lt_zero _ (mem_acked.1 hreq).2
  refine ⟨.refl s.partner, fun id => ?_, fun req hreq => absurd hreq (hnone req), by simp,
    fun _ _ _ => rfl⟩
  rw [if_neg]
  · rfl
  · rintro ⟨req, hreq, -⟩
    exact hnone req hreq

/-- The ack is up to a number that is first given while what `top` acknowledges is. -/
def GivenMeanwhile (top ackBefore : Seqnum) : Prop :=
  (ackBefore - s.partner.nextSendSeq).num ≠ 0 ∧
    (ackBefore - s.partner.nextSendSeq).num ≤
      min (s.partner.newAcks top) s.partner.needSeqnumSendReqQ.length

/-- Any number of acks come to the most advanced of those that are in the window. -/
theorem advances_handleAcks {s : Flight ι} (hcoherent : s.Coherent) (hordered : s.partner.Ordered)
    {top : Seqnum} (htop : s.partner.InWindow top) (sending : ℕ → Bool) (acks : List Seqnum)
    (hmost : ∀ ack ∈ acks, s.partner.InWindow ack → s.partner.newAcks ack ≤ s.partner.newAcks top)
    (hgiven : ∀ ack ∈ acks, ¬ s.GivenMeanwhile top ack) :
    ∃ n, s.Advances n (s.handleAcks sending acks) ∧
      n ≤ s.partner.newAcks top ∧
        ∀ ack ∈ acks, s.partner.InWindow ack → s.partner.newAcks ack ≤ n := by
  induction acks using List.reverseRecOn with
  | nil => exact ⟨0, .refl s, Nat.zero_le _, nofun⟩
  | append_singleton acks ack ih =>
      obtain ⟨n, hadvances, hle, hall⟩ :=
        ih (fun ack hack => hmost ack (List.mem_append_left _ hack))
          fun ack hack => hgiven ack (List.mem_append_left _ hack)
      have hack : ack ∈ acks ++ [ack] := List.mem_append_right _ (List.mem_singleton_self _)
      have hmost := hmost ack hack
      rw [handleAcks, List.foldl_append]
      refine ⟨_, hadvances.handleAck hordered hcoherent (hle.trans htop.2) (fun hne => ?_) sending,
        ?_, fun ack' hack' hwindow => ?_⟩
      · by_contra hge
        refine hgiven ack hack ⟨hne, (not_lt.1 hge).trans ?_⟩
        exact min_le_min_right _ hle
      · split
        · exact max_le hle (hmost ‹_›)
        · exact hle
      · rcases List.mem_append.1 hack' with hack' | hack'
        · have hn := hall ack' hack' hwindow
          split
          · exact hn.trans (le_max_left ..)
          · exact hn
        · obtain rfl := List.mem_singleton.1 hack'
          rw [if_pos hwindow]
          exact le_max_right ..

/-- What acks do to the requests of a partner, one and many. -/
theorem handleAck_acks (s : Flight ι) (hordered : s.partner.Ordered) (hcoherent : s.Coherent) :
    (∀ sending ack, s.partner.InWindow ack →
        s.Advances (s.partner.newAcks ack) (s.handleAck sending ack) ∧
          (s.handleAck sending ack).partner.Ordered ∧ (s.handleAck sending ack).Coherent) ∧
      (∀ sending ack, ¬ s.partner.InWindow ack → s.handleAck sending ack = s) ∧
      ∀ sending sending' (acks : List Seqnum) top, top ∈ acks → s.partner.InWindow top →
        (∀ ack ∈ acks, s.partner.InWindow ack → s.partner.newAcks ack ≤ s.partner.newAcks top) →
        (∀ ack ∈ acks, ¬ s.GivenMeanwhile top ack) →
          s.Advances (s.partner.newAcks top) (s.handleAcks sending acks) ∧
            (s.handleAcks sending acks).partner.nonAckedReqQ =
                (s.handleAck sending' top).partner.nonAckedReqQ ∧
              (s.handleAcks sending acks).requests.completions =
                (s.handleAck sending' top).requests.completions := by
  refine ⟨fun sending ack hwindow => ?_, fun sending ack hnot => handleAck_of_not hnot,
    fun sending sending' acks top hmem htop hmost hgiven => ?_⟩
  · have hadvances := advances_handleAck hcoherent hordered hwindow sending
    exact ⟨hadvances, hadvances.partner.ordered hordered hwindow.2, hadvances.coherent hcoherent⟩
  · obtain ⟨n, hmany, hle, hall⟩ :=
      advances_handleAcks hcoherent hordered htop sending acks hmost hgiven
    obtain rfl : n = s.partner.newAcks top := le_antisymm hle (hall top hmem htop)
    have hone := advances_handleAck hcoherent hordered htop sending'
    refine ⟨hmany, hmany.partner.queue.trans hone.partner.queue.symm, funext fun id => ?_⟩
    exact (hmany.completed id).trans (hone.completed id).symm

/-- A partner that waits for the ack of number 0 only, the others of the window being nacked, and
a request that waits for the window. -/
def throttledTiny : Flight Bool where
  requests := ((Request.Endpoint.init false 0 false).isend true .sendTiny (.posted false) true).isend
    true .sendTiny .throttled true
  partner := { (.reset : Partner Bool) with
    nextSendSeq := 0x1fff
    nextAckedSendSeq := 0
    nonAckedReqQ := [⟨0, true, .sendTiny, false, 0⟩]
    needSeqnumSendReqQ := [⟨1, true, .sendTiny, false, 0⟩]
    throttlingSendsNr := 1 }

/-- A mediumsq that the driver still sends. -/
def sendingMediumsq : Flight Bool where
  requests := (Request.Endpoint.init false 0 false).isend true .sendMediumsq (.posted true) true
  partner := { (.reset : Partner Bool) with
    nextSendSeq := 1
    nextAckedSendSeq := 0
    nonAckedReqQ := [⟨0, true, .sendMediumsq, false, 0⟩] }

theorem throttledTiny_ordered : throttledTiny.partner.Ordered :=
  ⟨List.pairwise_singleton .., by decide⟩

theorem throttledTiny_coherent : throttledTiny.Coherent where
  nodup := by decide
  queued req hreq := by
    obtain rfl := List.mem_singleton.1 hreq
    exact ⟨_, rfl, rfl, rfl⟩
  waiting req hreq := by
    obtain rfl := List.mem_singleton.1 hreq
    exact ⟨_, rfl, rfl, rfl⟩

theorem throttledTiny_acks : ∀ ack ∈ [1, 0x3ffe, (1 : Seqnum)],
    (throttledTiny.partner.InWindow ack →
        throttledTiny.partner.newAcks ack ≤ throttledTiny.partner.newAcks 1) ∧
      ¬ throttledTiny.GivenMeanwhile 1 ack := by
  intro ack hack
  have hcases : ack = 1 ∨ ack = 0x3ffe := by simpa [or_comm, or_assoc] using hack
  rcases hcases with rfl | rfl
  · exact ⟨fun _ => le_rfl, fun h => absurd h.2 (by decide +kernel)⟩
  · exact ⟨fun h => absurd h.2 (by decide +kernel), fun h => absurd h.2 (by decide +kernel)⟩

theorem handleAck_acks_throttledTiny :
    throttledTiny.Advances (throttledTiny.partner.newAcks 1)
      (throttledTiny.handleAcks (fun _ => false) [1, 0x3ffe, 1]) :=
  ((handleAck_acks throttledTiny throttledTiny_ordered throttledTiny_coherent).2.2
    (fun _ => false) (fun _ => false) [1, 0x3ffe, 1] 1 (List.mem_cons_self ..) (by decide +kernel)
    (fun ack hack => (throttledTiny_acks ack hack).1)
    (fun ack hack => (throttledTiny_acks ack hack).2)).1

/-- An ack does not complete what the driver still sends; and acks of 8192 and 1 do not come to
the same in the other order, if a throttled request gets number 8191 in between. -/
theorem handleAck_not_acks :
    (∃ s : Flight Bool, s.partner.Ordered ∧ s.Coherent ∧ s.partner.InWindow 1 ∧
      (∃ req ∈ s.acked 1, req.number = 0) ∧
        (s.handleAck (fun _ => false) 1).requests.completions 0 = s.requests.completions 0) ∧
      ∃ s : Flight Bool, s.partner.Ordered ∧ s.Coherent ∧
        (s.handleAcks (fun _ => false) [1, 0x2000]).requests.completions 1 ≠
          (s.handleAcks (fun _ => false) [0x2000, 1]).requests.completions 1 := by
  refine ⟨⟨sendingMediumsq, ⟨List.pairwise_singleton .., by decide⟩, ⟨by decide, ?_, nofun⟩,
    by decide, by decide, by decide⟩, throttledTiny, throttledTiny_ordered,
    throttledTiny_coherent, by decide +kernel⟩
  intro req hreq
  obtain rfl := List.mem_singleton.1 hreq
  exact ⟨_, rfl, rfl, rfl⟩

end Flight

end Xen2mx.Isend
