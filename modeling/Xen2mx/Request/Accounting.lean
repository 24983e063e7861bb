/-
# `Xen2mx.Request.Accounting` — every request is accounted for, in every run

    a request is gone                              ⟺  it was freed, once
    it is there                                    ⟹  the application, a call or a list has it
    it is on the done queues                       ⟺  it is DONE, and neither ZOMBIE nor INTERNAL
    test, wait, test_any or wait_any report it     ⟹  it has no bit but DONE and those of a send
                                                       that its ack or the driver still owes
    endpoint->zombies                              =   the requests with ZOMBIE

A send is `DONE` early when its data is buffered, and becomes a zombie when it is reported.

**Proved here.**
* `requests_accounted`: this holds in every state of every run of which each step is `Proper`.
-/
import Xen2mx.Request.PartnerCleanup

namespace Xen2mx.Request

variable {ι : Type*} [DecidableEq ι] {ep ep' : Endpoint ι}

/-! ## Steps -/

/-- The requests that are there all meet `p`. -/
def Endpoint.allReqs (ep : Endpoint ι) (p : Req ι → Bool) : Bool :=
  (List.range ep.next).all fun id => (ep.req id).all p

/-- Every request of the partner can be ended by a cleanup. -/
def Endpoint.cleanable (ep : Endpoint ι) (i : ι) : Bool :=
  ep.allReqs fun req => req.partner ≠ some i || req.cleanable ep.hasCtxids

/-- The cleanups are of what they can end, nobody takes the request of a call that has not returned,
and an `omx_iconnect` that returns no pointer does so before its request is done. -/
def Proper (ep : Endpoint ι) : Action ι → Prop
  | .returns id handle =>
      handle = false → ∀ req ∈ ep.req id, req.type = .connect → req.state.done = false
  | .testAny id => id ∉ ep.running
  | .partnerCleanup i => ep.cleanable i = true
  | _ => True

instance (ep : Endpoint ι) (a : Action ι) : Decidable (Proper ep a) :=
  match a with
  | .returns id handle => inferInstanceAs (Decidable
      (handle = false → ∀ req ∈ ep.req id, req.type = .connect → req.state.done = false))
  | .testAny id => inferInstanceAs (Decidable (id ∉ ep.running))
  | .partnerCleanup i => inferInstanceAs (Decidable (ep.cleanable i = true))
  | .isend .. | .isendSelf .. | .irecv | .irecvUnexp .. | .connect _ | .iconnect _ | .allocFails
  | .connectReturns _ | .test _ | .forget _ | .cancel _ | .cancelNotest _
  | .recvPosted .. | .recvUnexp .. | .recvDiscarded _ | .recvMediumFrag .. | .recvEarly _
  | .popEarly _ | .ack .. | .notify _ | .connectReply .. | .mediumsqDone _ | .pullDone ..
  | .processDelayed .. | .processThrottling .. | .resend .. => .isTrue trivial

omit [DecidableEq ι] in
theorem Inv.of_allReqs (h : Inv ep) {p : Req ι → Bool} (hall : ep.allReqs p = true) {id : ℕ}
    {req : Req ι} (hreq : ep.req id = some req) : p req = true := by
  have hid := List.all_eq_true.1 hall id (List.mem_range.2 (h.lt_next hreq))
  rwa [hreq] at hid

theorem Inv.cleanable (h : Inv ep) {i : ι} (hclean : ep.cleanable i = true) (id : ℕ) (req : Req ι)
    (hreq : ep.req id = some req) (hpartner : req.partner = some i) :
    req.cleanable ep.hasCtxids = true := by
  simpa [hpartner] using h.of_allReqs hclean hreq

omit [DecidableEq ι] in
theorem Inv.init (hasCtxids : Bool) (zombieMax : ℕ) (myself : ι) :
    Inv (Endpoint.init hasCtxids zombieMax myself) := by
  have hnone : ∀ id, (Endpoint.init hasCtxids zombieMax myself).req id = none := fun _ => rfl
  exact ⟨fun id req hreq => (nomatch (hnone id).symm.trans hreq), fun id _ => hnone id,
    fun id => (if_neg fun hlt => Nat.not_lt_zero id hlt.1).symm, rfl, rfl,
    fun id req hreq => (nomatch (hnone id).symm.trans hreq),
    fun id id' req req' hreq => (nomatch (hnone id).symm.trans hreq)⟩

omit [DecidableEq ι] in
theorem act_inv {id : ℕ} {guard : Req ι → Prop} [DecidablePred guard]
    {body : Req ι → Endpoint ι} (hstep : ep.act id guard body = some ep')
    (hbody : ∀ req, ep.req id = some req → guard req → Inv (body req)) : Inv ep' := by
  obtain ⟨req, hreq, hstep⟩ := Option.bind_eq_some_iff.1 hstep
  obtain ⟨hguard, hstep⟩ := Option.ite_none_right_eq_some.1 hstep
  cases hstep
  exact hbody req hreq hguard

omit [DecidableEq ι] in
/-- Packets are not requests. -/
theorem Inv.early (h : Inv ep) (early : ι → ℕ) : Inv { ep with early } :=
  ⟨h.coherent, h.fresh, h.frees, h.zombies, h.dangling, h.sreq, h.sreqInj⟩

theorem step_inv {a : Action ι} (h : Inv ep) (hproper : Proper ep a)
    (hstep : step ep a = some ep') : Inv ep' := by
  cases a with
  | isend i type posting handle =>
      obtain ⟨htype, hstep⟩ := Option.ite_none_right_eq_some.1 hstep
      cases hstep
      exact inv_isend h htype i posting handle
  | isendSelf how handle => exact inv_isendSelf h hstep
  | irecv =>
      cases hstep
      exact inv_irecv h
  | irecvUnexp id pulling handle => exact inv_irecvUnexp h hstep
  | connect i =>
      cases hstep
      exact inv_connect h i
  | iconnect i =>
      cases hstep
      exact inv_iconnect h i
  | returns id handle =>
      refine act_inv hstep fun req hreq hguard => ?_
      exact inv_returns h hreq hguard.1 fun hhandle => hproper hhandle req hreq
  | allocFails =>
      cases hstep
      exact inv_allocFails h
  | connectReturns id =>
      exact act_inv hstep fun req hreq hinternal => inv_connectReturns h hreq hinternal
  | test id =>
      refine act_inv hstep fun req hreq ⟨hhandle, _⟩ => ?_
      split_ifs with hdone
      · exact inv_test h hreq hhandle hdone
      · exact h
  | testAny id => exact act_inv hstep fun req hreq hdone => inv_testAny h hreq hdone
  | forget id =>
      refine act_inv hstep fun req hreq ⟨hhandle, _⟩ => ?_
      split_ifs
      · exact h
      · exact inv_forget h hreq hhandle
  | cancel id =>
      refine act_inv hstep fun req hreq ⟨hhandle, _⟩ => ?_
      cases hcancel : req.cancelCommon with
      | none => exact h
      | some req' => exact inv_cancel h hreq hhandle hcancel
  | cancelNotest id =>
      refine act_inv hstep fun req hreq ⟨hhandle, _⟩ => ?_
      cases hcancel : req.cancelCommon with
      | none => exact h
      | some req' => exact inv_cancelNotest h hreq hhandle hcancel
  | recvPosted i msg id => exact act_inv hstep fun req hreq hqueue => inv_recvPosted h hreq hqueue i msg
  | recvUnexp i msg buffer =>
      cases hstep
      exact inv_recvUnexp h i msg buffer
  | recvDiscarded i =>
      cases hstep
      exact inv_recvDiscarded h i
  | recvMediumFrag id last =>
      exact act_inv hstep fun req hreq hpartner => inv_recvMediumFrag h hreq hpartner last
  | recvEarly i | popEarly i =>
      cases hstep
      exact h.early _
  | ack id error => exact act_inv hstep fun req hreq hpartner => inv_ack h hreq hpartner error
  | notify id => exact act_inv hstep fun req hreq hreply => inv_notify h hreq hreply.1 hreply.2
  | connectReply id error =>
      exact act_inv hstep fun req hreq hpartner => inv_connectReply h hreq hpartner error
  | mediumsqDone id => exact act_inv hstep fun req hreq hqueue => inv_mediumsqDone h hreq hqueue
  | pullDone id error posting =>
      exact act_inv hstep fun req hreq hqueue => inv_pullDone h hreq hqueue error posting
  | processDelayed id posting =>
      exact act_inv hstep fun req hreq hqueue => inv_processDelayed h hreq hqueue posting
  | processThrottling id sending =>
      exact act_inv hstep fun req hreq hpartner => inv_processThrottling h hreq hpartner sending
  | resend id sending => exact act_inv hstep fun req hreq hqueue => inv_resend h hreq hqueue sending
  | partnerCleanup i =>
      have heq : ep.partnerCleanup i = ep' := Option.some.inj hstep
      rw [← heq]
      exact inv_partnerCleanup h (h.cleanable hproper)

/-- The bits and the lists of all requests agree in every state reached. -/
theorem inv_of_reaches {hasCtxids : Bool} {zombieMax : ℕ} {myself : ι}
    (h : (machine hasCtxids zombieMax myself).Reaches Proper ep) : Inv ep :=
  h.invariant (Inv.init hasCtxids zombieMax myself) fun _ _ _ hinv hproper hstep =>
    step_inv hinv hproper hstep

/-! ## Accounts -/

/-- The request is what `omx_test` or `omx_test_any` would report. -/
def Req.reported (req : Req ι) : Bool := req.handle && req.state.done || req.doneElt

structure Accounted (ep : Endpoint ι) : Prop where
  frees : ∀ id, ep.frees id = if id < ep.next ∧ ep.req id = none then 1 else 0
  held : ∀ id req, ep.req id = some req →
    req.handle = true ∨ req.state.internal = true ∨ req.queueElt ≠ none ∨ req.partnerElt ≠ none
  doneElt : ∀ id req, ep.req id = some req → (req.doneElt = true ↔
    req.state.done = true ∧ req.state.zombie = false ∧ req.state.internal = false)
  ctxidElt : ∀ id req, ep.req id = some req →
    (req.ctxidElt = some .done ↔ ep.hasCtxids = true ∧ req.doneElt = true)
  reported : ∀ id req, ep.req id = some req → req.reported = true →
    req.state =
      { done := true
        needAck := req.state.needAck
        driverMediumsqSending := req.state.driverMediumsqSending }
  zombies : ep.zombies = ep.zombieCount

omit [DecidableEq ι] in
theorem Inv.accounted (h : Inv ep) : Accounted ep := by
  refine ⟨h.frees, fun id req hreq => ?_, fun id req hreq => ?_, fun id req hreq => ?_,
    fun id req hreq hreported => ?_, h.zombies⟩
  all_goals obtain ⟨ph, rest, hok, rfl⟩ := h.coherent id req hreq
  · by_cases hlists : ph.queueElt = none ∧ ph.partnerElt = none
    · have hph : ph = .finished := by
        revert hlists
        cases ph <;> decide
      subst hph
      have hzombie := (hok.finished rfl).2
      cases hinternal : rest.internal <;> simp [Phase.req, Phase.isUnexp, hzombie, hinternal]
    · exact .inr (.inr (Decidable.not_and_iff_not_or_not.1 hlists))
  · simp [Phase.req, and_assoc]
  · have hiff : ∀ b : Bool, (if b = true then if (rest.done && !rest.zombie && !rest.internal) = true
        then some CtxidQueue.done else if ph.isUnexp = true then some CtxidQueue.unexp else none
        else none) = some CtxidQueue.done ↔
          b = true ∧ (rest.done && !rest.zombie && !rest.internal) = true := by
      intro b
      split_ifs <;> simp_all
    exact hiff ep.hasCtxids
  · have hbits : rest.done = true ∧ rest.zombie = false ∧ rest.internal = false := by
      simp only [Req.reported, Phase.req, Bool.or_eq_true, Bool.and_eq_true, Bool.not_eq_true']
        at hreported
      rcases hreported with ⟨⟨⟨hzombie, hinternal⟩, -⟩, hdone⟩ | ⟨⟨hdone, hzombie⟩, hinternal⟩
      · exact ⟨hdone, hzombie, hinternal⟩
      · exact ⟨hdone, hzombie, hinternal⟩
    obtain ⟨hdone, hzombie, hinternal⟩ := hbits
    simp only [Phase.req, hdone, hzombie, hinternal]
    rcases hok.done hdone with hearly | rfl
    · revert hearly
      cases ph <;> decide
    · rfl

/-- For every order of calls, events and cleanups: as long as cleanups meet only requests that they
can end, and nothing ends the request of a call before that can give it up, each request is freed
once, is on the done queues when it is `DONE` and neither `ZOMBIE` nor `INTERNAL`, is reported with
no bit but those of an early completion, and the zombies are counted. -/
theorem requests_accounted {hasCtxids : Bool} {zombieMax : ℕ} {myself : ι}
    (h : (machine hasCtxids zombieMax myself).Reaches Proper ep) : Accounted ep :=
  (inv_of_reaches h).accounted

/-- A tiny is reported before its ack, a receive is forgotten, a large send is dropped, and a connect
is given up before its reply comes. -/
def calls : List (Action Bool) :=
  [.isend false .sendTiny (.posted false) true, .test 0, .irecv, .returns 1 true,
    .isend false .sendLarge .delayed true, .partnerCleanup false, .testAny 2, .forget 1,
    .iconnect false, .returns 3 false, .connectReply 3 false]

theorem requests_accounted_three :
    ∃ ep, (machine true 8 true).exec (.init true 8 true) calls = some ep ∧
      ep.frees 0 = 1 ∧ ep.frees 2 = 1 ∧ ep.frees 3 = 1 ∧ ep.zombies = 1 ∧ Accounted ep := by
  obtain ⟨ep, hep, hfrees⟩ :
      ∃ ep, (machine true 8 true).exec (.init true 8 true) calls = some ep ∧
        ep.frees 0 = 1 ∧ ep.frees 2 = 1 ∧ ep.frees 3 = 1 ∧ ep.zombies = 1 :=
    ⟨_, rfl, by decide⟩
  obtain ⟨hfirst, hthird, hfourth, hzombies⟩ := hfrees
  exact ⟨ep, hep, hfirst, hthird, hfourth, hzombies,
    requests_accounted ⟨calls, by decide, hep⟩⟩

/-- The tiny is reported while it has `NEED_ACK`, and the connect of `omx_connect` is done, and not
on the done queues. -/
theorem requests_not_exactly_done :
    ∃ ep, (machine true 8 true).exec (.init true 8 true)
        [.isend false .sendTiny (.posted false) true, .connect false, .connectReply 1 false] =
          some ep ∧
      (∃ req, ep.req 0 = some req ∧ req.reported = true ∧ req.state ≠ { done := true }) ∧
        ∃ req, ep.req 1 = some req ∧ req.state.done = true ∧ req.state.zombie = false ∧
          req.doneElt = false :=
  ⟨_, rfl, ⟨_, rfl, by decide⟩, _, rfl, by decide⟩

end Xen2mx.Request
