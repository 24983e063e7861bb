/-
# `Xen2mx.Request.PartnerCleanup` — what is left of the requests of a partner

After `omx__partner_cleanup` no list of the partner holds a request, and those of the endpoint hold
none of the partner, but those of the driver.  Most requests of the partner complete with an error,
or are freed because the application forgot them; unexpected messages are freed.  Some do not end
as they should:

    throttled          keeps `NEED_SEQNUM`, so it is not freed when it is tested
    delayedPull        keeps `RECV_PARTIAL` and nothing else, not even `ZOMBIE`
    unexpectedPartial  completes, though the application never posted it
    unexpected*        stays in the list of its ctxid, if there are ctxids
    selfSend           does not complete

`Req.cleanable` excludes the first four, and keeps the invariant.
-/
import Xen2mx.Request.Cleanup

namespace Xen2mx.Request

variable {ι : Type*}

/-! ## The loops -/

section Loops

variable [DecidableEq ι] (i : ι)

def nonAckedLoop : Loop ι where
  sel req := req.partner = some i ∧ req.partnerElt = some .nonAcked
  body ep id req := ep.markRequestAcked id { req with partnerElt := none } true
  out c req := Req.nacked c { req with partnerElt := none } req
  round _ _ _ hreq := .nack _ hreq

def needReplyLoop : Loop ι where
  sel req := req.partner = some i ∧ req.queueElt = some .largeSendNeedReply
  body ep id req :=
    ep.sendComplete id
      { req with queueElt := none, state := { req.state with needReply := false } } true
  out c req :=
    Req.completed c { req with queueElt := none, state := { req.state with needReply := false } } true
  round _ _ _ _ := .complete ..

def needResourcesLoop : Loop ι where
  sel req := req.partner = some i ∧ req.queueElt = some .needResources
  body ep id req :=
    ep.completeUnsent id
      { req with queueElt := none, state := { req.state with needResources := false } }
  out c req :=
    Req.unsent c { req with queueElt := none, state := { req.state with needResources := false } } req
  round _ _ _ hreq := .unsent _ hreq

def needSeqnumLoop : Loop ι where
  sel req := req.partner = some i ∧ req.partnerElt = some .needSeqnum
  body ep id req := ep.completeUnsent id { req with partnerElt := none }
  out c req := Req.unsent c { req with partnerElt := none } req
  round _ _ _ hreq := .unsent _ hreq

def connectLoop : Loop ι where
  sel req := req.partner = some i ∧ req.partnerElt = some .connect
  body ep id req := ep.connectComplete id req true
  out c req :=
    Req.completed c
      { req with
        queueElt := none
        partnerElt := none
        state := { req.state with needReply := false } } true
  round _ _ _ _ := .complete ..

def partialLoop : Loop ι where
  sel req := req.partner = some i ∧ req.partnerElt = some .partialMediumRecv
  body ep id req :=
    let req' :=
      if req.state.unexpectedRecv then
        { req with
          queueElt := none
          ctxidElt := if ep.hasCtxids then none else req.ctxidElt }
      else req
    ep.recvComplete id
      { req' with partnerElt := none, state := { req'.state with recvPartial := false } } true
  out c req :=
    let req' :=
      if req.state.unexpectedRecv then
        { req with
          queueElt := none
          ctxidElt := if c then none else req.ctxidElt }
      else req
    Req.completed c
      { req' with partnerElt := none, state := { req'.state with recvPartial := false } } true
  round _ _ _ _ := .complete ..

def unexpLoop : Loop ι where
  sel req := req.partner = some i ∧ req.queueElt = some .unexp
  body ep id req :=
    ep.free id
      { req with
        queueElt := none
        unexpBuffer := if req.type = .recvLarge then req.unexpBuffer else false }
  out _ req :=
    let req' : Req ι :=
      { req with
        queueElt := none
        unexpBuffer := if req.type = .recvLarge then req.unexpBuffer else false }
    { new := none, completions := 0, dangling := if req'.tied then [req'] else [] }
  round _ _ _ _ := .free ..

/-- The loops before the early packets. -/
def pendingLoops : List (Loop ι) :=
  [nonAckedLoop i, needReplyLoop i, needResourcesLoop i, needSeqnumLoop i, connectLoop i,
    partialLoop i]

theorem partnerCleanup_eq (ep : Endpoint ι) :
    ep.partnerCleanup i = (unexpLoop i).run ((runLoops (pendingLoops i) ep).dropEarly i) := by
  have hNonAcked : ∀ ep : Endpoint ι, ep.dropNonAcked i = (nonAckedLoop i).run ep := fun _ => rfl
  have hNeedReply : ∀ ep : Endpoint ι, ep.dropNeedReply i = (needReplyLoop i).run ep := fun _ => rfl
  have hResources : ∀ ep : Endpoint ι, ep.dropNeedResources i = (needResourcesLoop i).run ep :=
    fun _ => rfl
  have hSeqnum : ∀ ep : Endpoint ι, ep.dropNeedSeqnum i = (needSeqnumLoop i).run ep := fun _ => rfl
  have hConnect : ∀ ep : Endpoint ι, ep.dropConnect i = (connectLoop i).run ep := fun _ => rfl
  have hPartial : ∀ ep : Endpoint ι, ep.dropPartial i = (partialLoop i).run ep := fun _ => rfl
  have hUnexp : ∀ ep : Endpoint ι, ep.dropUnexp i = (unexpLoop i).run ep := fun _ => rfl
  rw [Endpoint.partnerCleanup, hNonAcked, hNeedReply, hResources, hSeqnum, hConnect, hPartial,
    hUnexp]
  simp only [runLoops, pendingLoops, List.foldl_cons, List.foldl_nil]

end Loops

/-! ## What a round leaves -/

/-- The lists of the endpoint that hold requests of the partner before the cleanup, and are not the
driver's. -/
def Queue.isCleaned : Queue → Bool
  | .needResources | .nonAcked | .largeSendNeedReply | .connect | .unexp => true
  | _ => false

namespace Req

variable {req : Req ι} {c : Bool}

/-- The request is in a list that the cleanup takes it from. -/
def linked (req : Req ι) : Bool :=
  req.queueElt.any Queue.isCleaned || req.partnerElt.isSome || req.ctxidElt = some .unexp

/-- What the cleanup of a partner ends as it should, or leaves as it was. -/
def cleanable (c : Bool) (req : Req ι) : Bool :=
  match req.queueElt with
  | some .unexp => req.partnerElt.isNone && !c
  | some .needResources => !req.state.recvPartial
  | _ => req.partnerElt ≠ some .needSeqnum || req.state.zombie

theorem cleanable_of_not_linked (h : req.linked = false) : req.cleanable c = true := by
  obtain ⟨type, partner, state, queueElt, partnerElt⟩ := req
  simp only [linked, Bool.or_eq_false_iff, Option.isSome_eq_false_iff, Option.isNone_iff_eq_none]
    at h
  obtain ⟨⟨hqueue, rfl⟩, -⟩ := h
  rcases queueElt with _ | q
  · rfl
  · cases q <;> first | rfl | exact nomatch hqueue

theorem notified_not_linked (h : req.linked = false) {new : Req ι} (hnew : new ∈ req.notified c) :
    new.linked = false := by
  have hctxid : ∀ q, (req.queueElt.any Queue.isCleaned || req.partnerElt.isSome ||
      decide (q = some CtxidQueue.unexp)) = false ↔ (req.queueElt.any Queue.isCleaned ||
        req.partnerElt.isSome) = false ∧ q ≠ some CtxidQueue.unexp := by
    intro q
    rw [Bool.or_eq_false_iff, decide_eq_false_iff_not]
  have hreq := (hctxid _).1 h
  unfold notified at hnew
  split_ifs at hnew
  · cases hnew
    exact (hctxid _).2 hreq
  · exact nomatch hnew
  · cases hnew
    exact h
  · cases hnew
    refine (hctxid _).2 ⟨hreq.1, ?_⟩
    cases c with
    | true => exact nofun
    | false => exact hreq.2

theorem completed_not_linked (h : req.linked = false) {error : Bool} {new : Req ι}
    (hnew : new ∈ (req.completed c error).new) : new.linked = false :=
  notified_not_linked (by exact h) hnew

end Req

namespace Phase

variable {ph : Phase} {rest : Rest ι} {c : Bool}

theorem not_linked (hunexp : ph.isUnexp = false) (hqueue : ph.queueElt.any Queue.isCleaned = false)
    (hpartner : ph.partnerElt = none) (b : Bool) :
    ({ ph.req c rest with handle := b } : Req ι).linked = false := by
  simp only [Req.linked, req, hunexp, hqueue, hpartner, Option.isSome_none, Bool.or_self,
    Bool.false_or, decide_eq_false_iff_not]
  split_ifs <;> simp_all

theorem idle_not_linked (b : Bool) : (idle c rest b).linked = false :=
  not_linked rfl rfl rfl b

end Phase

namespace Phase

/-- What the loops before the early packets make of a request of the partner. -/
def outcome (ph : Phase) (c : Bool) (rest : Rest ι) : Outcome ι :=
  let b := (ph.req c rest).handle
  match ph with
  | .delayed | .nonAcked | .nonAckedReply | .needReply | .connecting | .partialRecv =>
      (idle c rest b).completed c true
  | .throttled =>
      Req.completed c
        { idle c rest b with state := { (idle c rest b).state with needSeqnum := true } } true
  | .delayedPull => Req.completed c { idle c rest b with state := { recvPartial := true } } true
  | .unexpectedPartial =>
      Req.completed c
        { unexpectedPartial.req c rest with
          queueElt := none
          partnerElt := none
          ctxidElt := if c then none else (unexpectedPartial.req c rest).ctxidElt
          state := { (unexpectedPartial.req c rest).state with recvPartial := false } } true
  -- the driver will give it back
  | .sending =>
      { new := some (sendingAcked.req c { rest with failed := rest.failed || true })
        completions := 0
        dangling := [] }
  | .sendingAcked | .posted | .pulling | .unexpected | .unexpectedRndv | .selfSend | .finished =>
      { new := some (ph.req c rest), completions := 0, dangling := [] }

/-- Some loop before the early packets selects the requests of the partner in the phase. -/
def isPending : Phase → Bool
  | .delayed | .delayedPull | .throttled | .sending | .nonAcked | .nonAckedReply | .needReply
  | .connecting | .partialRecv | .unexpectedPartial => true
  | _ => false

end Phase

theorem phase_of_largeSendNeedReply {ph : Phase} {c : Bool} {rest : Phase.Rest ι}
    (hqueue : (ph.req c rest).queueElt = some .largeSendNeedReply) : ph = .needReply := by
  revert hqueue
  cases ph <;> simp [Phase.req, Phase.queueElt]

section Outcomes

open Phase

variable [DecidableEq ι] {i : ι} {ep : Endpoint ι} {id : ℕ} {req : Req ι} {c : Bool} {ph : Phase}
  {rest : Rest ι}

theorem out_eq (hok : ph.Ok rest) {loop : Loop ι} (hmem : loop ∈ pendingLoops i)
    (hsel : loop.sel (ph.req c rest) = true) :
    loop.out c (ph.req c rest) = ph.outcome c rest ∧ ph.isPending = true := by
  have htypes := hok.types
  obtain ⟨type, partner, failed, buffer, sreq, done, zombie, internal⟩ := rest
  simp only [pendingLoops, List.mem_cons, List.not_mem_nil, or_false] at hmem
  rcases hmem with rfl | rfl | rfl | rfl | rfl | rfl
  · obtain ⟨-, hpartner⟩ := of_decide_eq_true hsel
    rcases phase_of_nonAcked hpartner with rfl | rfl | rfl
    · obtain rfl : type = .sendMediumsq := beq_iff_eq.1 htypes
      exact ⟨rfl, rfl⟩
    · cases type with
      | sendTiny | sendSmall | sendMediumsq | sendMediumva | sendLarge | recvLarge => exact ⟨rfl, rfl⟩
      | connect | recv | sendSelf | recvSelfUnexpected => exact nomatch htypes
    · obtain rfl : type = .sendLarge := beq_iff_eq.1 htypes
      exact ⟨rfl, rfl⟩
  · obtain ⟨-, hqueue⟩ := of_decide_eq_true hsel
    obtain rfl := phase_of_largeSendNeedReply hqueue
    exact ⟨rfl, rfl⟩
  · obtain ⟨-, hqueue⟩ := of_decide_eq_true hsel
    rcases phase_of_needResources hqueue with rfl | rfl
    · cases type with
      | sendTiny | sendSmall | sendMediumsq | sendMediumva | sendLarge | recvLarge => exact ⟨rfl, rfl⟩
      | connect | recv | sendSelf | recvSelfUnexpected => exact nomatch htypes
    · obtain rfl : type = .recvLarge := beq_iff_eq.1 htypes
      exact ⟨rfl, rfl⟩
  · obtain ⟨-, hpartner⟩ := of_decide_eq_true hsel
    obtain rfl := phase_of_needSeqnum hpartner
    cases type with
    | sendTiny | sendSmall | sendMediumsq | sendMediumva | sendLarge | recvLarge => exact ⟨rfl, rfl⟩
    | connect | recv | sendSelf | recvSelfUnexpected => exact nomatch htypes
  · obtain ⟨-, hpartner⟩ := of_decide_eq_true hsel
    obtain rfl := phase_of_connect hpartner
    exact ⟨rfl, rfl⟩
  · obtain ⟨-, hpartner⟩ := of_decide_eq_true hsel
    rcases phase_of_partialMediumRecv hpartner with rfl | rfl
    · exact ⟨rfl, rfl⟩
    · exact ⟨rfl, rfl⟩

omit [DecidableEq ι] in
/-- Whatever a loop before the early packets makes of a request is in none of the lists. -/
theorem outcome_not_linked (hpending : ph.isPending = true) {new : Req ι}
    (hnew : new ∈ (ph.outcome c rest).new) : new.linked = false := by
  have hidle : ∀ b : Bool, (idle c rest b).linked = false := fun b => idle_not_linked b
  cases ph with
  | delayed | nonAcked | nonAckedReply | needReply | connecting | partialRecv =>
      exact Req.completed_not_linked (hidle _) hnew
  | throttled | delayedPull => exact Req.completed_not_linked (by exact hidle true) hnew
  | unexpectedPartial =>
      refine Req.completed_not_linked ?_ hnew
      cases c <;> simp [Req.linked, Phase.req]
  | sending =>
      cases hnew
      exact @not_linked _ .sendingAcked _ _ rfl rfl rfl _
  | sendingAcked | posted | pulling | unexpected | unexpectedRndv | selfSend | finished =>
      cases hpending

theorem selected (hpending : ph.isPending = true) (hpartner : rest.partner = some i) :
    ∃ loop ∈ pendingLoops i, loop.sel (ph.req c rest) = true := by
  cases ph with
  | sending | nonAcked | nonAckedReply =>
      exact ⟨nonAckedLoop i, by simp [pendingLoops], decide_eq_true ⟨hpartner, rfl⟩⟩
  | needReply => exact ⟨needReplyLoop i, by simp [pendingLoops], decide_eq_true ⟨hpartner, rfl⟩⟩
  | delayed | delayedPull =>
      exact ⟨needResourcesLoop i, by simp [pendingLoops], decide_eq_true ⟨hpartner, rfl⟩⟩
  | throttled => exact ⟨needSeqnumLoop i, by simp [pendingLoops], decide_eq_true ⟨hpartner, rfl⟩⟩
  | connecting => exact ⟨connectLoop i, by simp [pendingLoops], decide_eq_true ⟨hpartner, rfl⟩⟩
  | partialRecv | unexpectedPartial =>
      exact ⟨partialLoop i, by simp [pendingLoops], decide_eq_true ⟨hpartner, rfl⟩⟩
  | sendingAcked | posted | pulling | unexpected | unexpectedRndv | selfSend | finished =>
      exact nomatch hpending

theorem partner_of_sel {loop : Loop ι} (hmem : loop ∈ pendingLoops i) (hsel : loop.sel req = true) :
    req.partner = some i := by
  simp only [pendingLoops, List.mem_cons, List.not_mem_nil, or_false] at hmem
  rcases hmem with rfl | rfl | rfl | rfl | rfl | rfl <;> exact (of_decide_eq_true hsel).1

theorem linked_of_sel {loop : Loop ι} (hmem : loop ∈ pendingLoops i) (hsel : loop.sel req = true) :
    req.linked = true := by
  simp only [pendingLoops, List.mem_cons, List.not_mem_nil, or_false] at hmem
  rcases hmem with rfl | rfl | rfl | rfl | rfl | rfl <;>
    simp [Req.linked, (of_decide_eq_true hsel).2, Queue.isCleaned]

/-- A request of the partner after the loops before the early packets. -/
theorem runLoops_phase (hfresh : ∀ id, ep.next ≤ id → ep.req id = none) (hok : ph.Ok rest)
    (hreq : ep.req id = some (ph.req ep.hasCtxids rest)) (hpartner : rest.partner = some i) :
    (runLoops (pendingLoops i) ep).req id = (ph.outcome ep.hasCtxids rest).new ∧
      (runLoops (pendingLoops i) ep).completions id =
        ep.completions id + (ph.outcome ep.hasCtxids rest).completions := by
  cases hpending : ph.isPending with
  | true =>
      obtain ⟨loop', hmem', hsel'⟩ := selected (c := ep.hasCtxids) hpending hpartner
      have hsome : ((pendingLoops i).find? fun loop =>
          loop.sel (ph.req ep.hasCtxids rest)).isSome = true :=
        List.find?_isSome.2 ⟨loop', hmem', hsel'⟩
      obtain ⟨loop, hfind⟩ := Option.isSome_iff_exists.1 hsome
      have hmem := List.mem_of_find?_eq_some hfind
      have hsel := List.find?_some hfind
      obtain ⟨hout, -⟩ := out_eq hok hmem hsel
      rw [← hout]
      refine Loop.runLoops_turned _ hfresh hreq hfind fun loop₁ hmem₁ new hnew => ?_
      rw [hout] at hnew
      by_contra hsel₁
      rw [Bool.not_eq_false] at hsel₁
      cases (outcome_not_linked hpending hnew).symm.trans (linked_of_sel hmem₁ hsel₁)
  | false =>
      have hsame : ph.outcome ep.hasCtxids rest = ⟨some (ph.req ep.hasCtxids rest), 0, []⟩ := by
        cases ph <;> first | rfl | cases hpending
      rw [hsame, ← hreq]
      refine Loop.runLoops_kept _ hfresh fun loop hmem req hreq' => ?_
      cases hreq.symm.trans hreq'
      by_contra hsel
      rw [Bool.not_eq_false] at hsel
      cases hpending.symm.trans (out_eq hok hmem hsel).2

/-- What the last loop does to what the others left. -/
structure Dropped (i : ι) (ep ep' : Endpoint ι) : Prop where
  kept : ∀ id, (∀ req, ep.req id = some req → (unexpLoop i).sel req = false) →
    ep'.req id = ep.req id ∧ ep'.completions id = ep.completions id
  freed : ∀ id req, ep.req id = some req → (unexpLoop i).sel req = true →
    ep'.req id = none ∧ ep'.completions id = ep.completions id
  dangling : ep'.dangling = [] → ∀ id req, ep.req id = some req → (unexpLoop i).sel req = true →
    ((unexpLoop i).out ep.hasCtxids req).dangling = []
  early : ep'.early = Function.update ep.early i 0

theorem dropped (hfresh : ∀ id, ep.next ≤ id → ep.req id = none) :
    Dropped i ep ((unexpLoop i).run (ep.dropEarly i)) := by
  have hran : (unexpLoop i).Ran (ep.dropEarly i) ((unexpLoop i).run (ep.dropEarly i)) :=
    (unexpLoop i).ran hfresh
  exact ⟨hran.kept, hran.turned, fun h => (hran.dangling.1 h).2, hran.early⟩

theorem partnerCleanup_dropped (hfresh : ∀ id, ep.next ≤ id → ep.req id = none) :
    Dropped i (runLoops (pendingLoops i) ep) (ep.partnerCleanup i) := by
  rw [partnerCleanup_eq]
  exact dropped (Loop.runLoops_fresh _ hfresh)

/-- A request of the partner after the cleanup. -/
theorem partnerCleanup_phase (hfresh : ∀ id, ep.next ≤ id → ep.req id = none) (hok : ph.Ok rest)
    (hreq : ep.req id = some (ph.req ep.hasCtxids rest)) (hpartner : rest.partner = some i) :
    (ep.partnerCleanup i).req id =
        (if ph = .unexpected ∨ ph = .unexpectedRndv then none
          else (ph.outcome ep.hasCtxids rest).new) ∧
      (ep.partnerCleanup i).completions id =
        ep.completions id + (ph.outcome ep.hasCtxids rest).completions := by
  obtain ⟨hreq', hcompletions⟩ := runLoops_phase hfresh hok hreq hpartner
  have hdropped := partnerCleanup_dropped (i := i) hfresh
  rw [← hcompletions]
  split_ifs with hunexp
  · have hsel : (unexpLoop i).sel (ph.req ep.hasCtxids rest) = true := by
      rcases hunexp with rfl | rfl <;> exact decide_eq_true ⟨hpartner, rfl⟩
    refine hdropped.freed id (ph.req ep.hasCtxids rest) ?_ hsel
    rcases hunexp with rfl | rfl <;> exact hreq'
  · rw [← hreq']
    refine hdropped.kept id fun req hget => ?_
    have hnot : req.queueElt ≠ some .unexp := by
      cases hpending : ph.isPending with
      | true =>
          have hunlinked := outcome_not_linked hpending (hreq'.symm.trans hget)
          intro hqueue
          simp [Req.linked, hqueue, Queue.isCleaned] at hunlinked
      | false =>
          have hsame : ph.outcome ep.hasCtxids rest = ⟨some (ph.req ep.hasCtxids rest), 0, []⟩ := by
            cases ph <;> first | rfl | exact nomatch hpending
          rw [hsame] at hreq'
          cases hreq'.symm.trans hget
          revert hpending hunexp
          cases ph <;> simp [isPending, Phase.req, queueElt]
    exact decide_eq_false fun h => hnot h.2

/-- What is not of the partner is left alone. -/
theorem partnerCleanup_other (hfresh : ∀ id, ep.next ≤ id → ep.req id = none)
    (hother : ∀ req, ep.req id = some req → req.partner ≠ some i) :
    (ep.partnerCleanup i).req id = ep.req id ∧
      (ep.partnerCleanup i).completions id = ep.completions id := by
  obtain ⟨hreq, hcompletions⟩ := Loop.runLoops_kept (pendingLoops i) hfresh
    fun loop hmem req hreq => by
      by_contra hsel
      rw [Bool.not_eq_false] at hsel
      exact hother req hreq (partner_of_sel hmem hsel)
  obtain ⟨hreq', hcompletions'⟩ := (partnerCleanup_dropped (i := i) hfresh).kept id
    fun req hget => decide_eq_false fun h => hother req (hreq.symm.trans hget) h.1
  exact ⟨hreq'.trans hreq, hcompletions'.trans hcompletions⟩

theorem partnerCleanup_early (hfresh : ∀ id, ep.next ≤ id → ep.req id = none) :
    (ep.partnerCleanup i).early = Function.update ep.early i 0 := by
  rw [(partnerCleanup_dropped hfresh).early, Loop.runLoops_early _ hfresh]

end Outcomes

/-! ## The invariant -/

section Invariant

open Phase

variable {ep : Endpoint ι} {id : ℕ} {req : Req ι}

theorem inv_needReplyRound (h : Inv ep) (hreq : ep.req id = some req)
    (hqueue : req.queueElt = some .largeSendNeedReply) :
    Inv (ep.sendComplete id
      { req with queueElt := none, state := { req.state with needReply := false } } true) := by
  obtain ⟨ph, rest, hok, rfl⟩ := h.coherent id req hreq
  obtain rfl := phase_of_largeSendNeedReply hqueue
  exact Settles.inv h rest hreq nofun rfl rfl rfl (Settles.complete ep id rest _
    (zombieBit_settle hreq _ _ _ rfl) (h.zombies_pos hreq) hok.internal (hok.buffer_of rfl) true)

theorem completeUnsent_eq (htype : (req.type.isSend || req.type == .recvLarge) = true)
    (hrecvPartial : req.state.recvPartial = false) : ep.completeUnsent id req = ep.complete id req true := by
  obtain ⟨type, partner, state⟩ := req
  unfold Endpoint.completeUnsent
  cases type with
  | sendTiny | sendSmall | sendMediumsq | sendMediumva | sendLarge => rfl
  | recvLarge =>
      rw [show state.recvPartial = false from hrecvPartial]
      rfl
  | connect | recv | sendSelf | recvSelfUnexpected => exact nomatch htype

theorem inv_needResourcesRound (h : Inv ep) (hreq : ep.req id = some req)
    (hqueue : req.queueElt = some .needResources) (hrecvPartial : req.state.recvPartial = false) :
    Inv (ep.completeUnsent id
      { req with queueElt := none, state := { req.state with needResources := false } }) := by
  obtain ⟨ph, rest, hok, rfl⟩ := h.coherent id req hreq
  rcases phase_of_needResources hqueue with rfl | rfl
  · have heq : ep.completeUnsent id (idle ep.hasCtxids rest (delayed.req ep.hasCtxids rest).handle) =
        ep.complete id (idle ep.hasCtxids rest (delayed.req ep.hasCtxids rest).handle) true :=
      completeUnsent_eq hok.types hrecvPartial
    refine Eq.mpr (congrArg Inv heq) ?_
    exact Settles.inv h rest hreq nofun rfl rfl rfl (Settles.complete ep id rest _
      (zombieBit_settle hreq _ _ _ rfl) (h.zombies_pos hreq) hok.internal (hok.buffer_of rfl) true)
  · exact nomatch hrecvPartial

/-- A throttled request that the application forgot is freed, whatever bit it keeps. -/
theorem inv_needSeqnumRound (h : Inv ep) (hreq : ep.req id = some req)
    (hpartner : req.partnerElt = some .needSeqnum) (hzombie : req.state.zombie = true) :
    Inv (ep.completeUnsent id { req with partnerElt := none }) := by
  obtain ⟨ph, rest, hok, rfl⟩ := h.coherent id req hreq
  obtain rfl := phase_of_needSeqnum hpartner
  have hinternal := hok.internal_eq_false (by rintro ⟨⟩) (by rintro ⟨⟩)
  have hdone := hok.done_eq_false rfl (by rintro ⟨⟩)
  have hbuffer := hok.buffer_of rfl
  have heq : ep.completeUnsent id { throttled.req ep.hasCtxids rest with partnerElt := none } =
      ep.complete id { throttled.req ep.hasCtxids rest with partnerElt := none } true :=
    completeUnsent_eq hok.types rfl
  rw [heq]
  have hup := @Updates.notifyRequestDone _ ep id
    { throttled.req ep.hasCtxids rest with partnerElt := none, failed := rest.failed || true }
    (by rw [hreq]; rfl) (fun _ => h.zombies_pos hreq hzombie)
    (fun _ => by cases hc : ep.hasCtxids <;> simp [Req.tied, Phase.req, queueElt, hdone, hbuffer, isUnexp])
  have hnone : Req.notified ep.hasCtxids
      { throttled.req ep.hasCtxids rest with partnerElt := none, failed := rest.failed || true } =
        none := by
    rw [Req.notified, if_neg, if_pos hzombie]
    simp [Phase.req, hinternal]
  rw [hnone] at hup
  exact (Lands.of_free hup).inv h hreq (not_isSelfSend (by rintro ⟨⟩))

variable [DecidableEq ι] {i : ι} {c : Bool}

theorem inv_partialRound (h : Inv ep) (hreq : ep.req id = some req)
    (hpartner : req.partnerElt = some .partialMediumRecv) (hqueue : req.queueElt ≠ some .unexp) :
    Inv ((partialLoop i).body ep id req) := by
  obtain ⟨ph, rest, hok, rfl⟩ := h.coherent id req hreq
  rcases phase_of_partialMediumRecv hpartner with rfl | rfl
  · exact Settles.inv h rest hreq nofun rfl rfl rfl (Settles.complete ep id rest _
      (zombieBit_settle hreq _ _ _ rfl) (h.zombies_pos hreq) hok.internal (hok.buffer_of rfl) true)
  · exact absurd rfl hqueue

theorem inv_unexpRound (h : Inv ep) (hreq : ep.req id = some req)
    (hqueue : req.queueElt = some .unexp) (hpartner : req.partnerElt = none)
    (hc : ep.hasCtxids = false) : Inv ((unexpLoop i).body ep id req) := by
  obtain ⟨ph, rest, hok, rfl⟩ := h.coherent id req hreq
  have hunexp := phase_of_unexp hqueue
  obtain ⟨hdone, hzombie, hinternal⟩ := hok.unexp hunexp
  have hz : zombieBit (ep.req id) = 0 := by
    rw [hreq]
    exact zombieBit_req hzombie _
  have hself : ¬ Req.IsSelfSend (ph.req ep.hasCtxids rest) := by
    refine not_isSelfSend ?_
    rintro rfl
    exact nomatch hunexp
  refine (Lands.of_free (.free hz ?_)).inv h hreq hself
  have hbuffer : (if rest.type = .recvLarge then rest.unexpBuffer else false) = false := by
    split_ifs with htype
    · by_contra hne
      rw [Bool.not_eq_false] at hne
      have htypes := hok.types
      rw [htype] at htypes
      rcases hok.buffer hne with rfl | rfl <;> exact nomatch htypes
    · rfl
  simp only [Req.tied, Phase.req, hc, hdone] at hpartner ⊢
  simp [hpartner, hbuffer]

/-- The requests of the partner end as they should. -/
structure Cleanable (i : ι) (c : Bool) (ep : Endpoint ι) : Prop where
  inv : Inv ep
  hasCtxids : ep.hasCtxids = c
  cleanable : ∀ id req, ep.req id = some req → req.partner = some i → req.cleanable c = true

theorem cleanable_round (h : Cleanable i c ep) {loop : Loop ι} (hmem : loop ∈ pendingLoops i)
    (hreq : ep.req id = some req) (hsel : loop.sel req = true) :
    Cleanable i c (loop.body ep id req) := by
  have hpartner := partner_of_sel hmem hsel
  have hclean := h.cleanable id req hreq hpartner
  have hround := loop.round ep id req hreq
  refine ⟨?_, hround.hasCtxids.trans h.hasCtxids, fun id' new hnew hpartner' => ?_⟩
  · simp only [pendingLoops, List.mem_cons, List.not_mem_nil, or_false] at hmem
    rcases hmem with rfl | rfl | rfl | rfl | rfl | rfl
    · exact inv_ack h.inv hreq (of_decide_eq_true hsel).2 true
    · exact inv_needReplyRound h.inv hreq (of_decide_eq_true hsel).2
    · have hqueue : req.queueElt = some .needResources := (of_decide_eq_true hsel).2
      rw [Req.cleanable, hqueue] at hclean
      exact inv_needResourcesRound h.inv hreq hqueue (by simpa using hclean)
    · have helt : req.partnerElt = some .needSeqnum := (of_decide_eq_true hsel).2
      obtain ⟨ph, rest, hok, rfl⟩ := h.inv.coherent id req hreq
      obtain rfl := phase_of_needSeqnum helt
      exact inv_needSeqnumRound h.inv hreq helt hclean
    · exact inv_connectReply h.inv hreq (of_decide_eq_true hsel).2 true
    · have helt : req.partnerElt = some .partialMediumRecv := (of_decide_eq_true hsel).2
      refine inv_partialRound h.inv hreq helt fun hqueue => ?_
      rw [Req.cleanable, hqueue, helt] at hclean
      exact nomatch hclean
  · rw [hround.req] at hnew
    by_cases heq : id' = id
    · subst heq
      rw [Function.update_self, h.hasCtxids] at hnew
      obtain ⟨ph, rest, hok, rfl⟩ := h.inv.coherent id' req hreq
      rw [h.hasCtxids] at hsel hnew
      obtain ⟨hout, hpending⟩ := out_eq hok hmem hsel
      rw [hout] at hnew
      exact Req.cleanable_of_not_linked (outcome_not_linked hpending hnew)
    · rw [Function.update_of_ne heq] at hnew
      exact h.cleanable id' new hnew hpartner'

theorem cleanable_unexpRound (h : Cleanable i c ep) (hreq : ep.req id = some req)
    (hsel : (unexpLoop i).sel req = true) : Cleanable i c ((unexpLoop i).body ep id req) := by
  have hqueue : req.queueElt = some .unexp := (of_decide_eq_true hsel).2
  have hclean := h.cleanable id req hreq (of_decide_eq_true hsel).1
  have hround := (unexpLoop i).round ep id req hreq
  simp only [Req.cleanable, hqueue, Bool.and_eq_true, Option.isNone_iff_eq_none,
    Bool.not_eq_true'] at hclean
  refine ⟨inv_unexpRound h.inv hreq hqueue hclean.1 (h.hasCtxids.trans hclean.2),
    hround.hasCtxids.trans h.hasCtxids, fun id' new hnew hpartner => ?_⟩
  rw [hround.req] at hnew
  by_cases heq : id' = id
  · subst heq
    rw [Function.update_self] at hnew
    exact nomatch hnew
  · rw [Function.update_of_ne heq] at hnew
    exact h.cleanable id' new hnew hpartner

theorem inv_partnerCleanup (h : Inv ep) (hclean : ∀ id req, ep.req id = some req →
    req.partner = some i → req.cleanable ep.hasCtxids = true) : Inv (ep.partnerCleanup i) := by
  have hpending : Cleanable i ep.hasCtxids (runLoops (pendingLoops i) ep) :=
    Loop.runLoops_keep (Cleanable i ep.hasCtxids) _ ⟨h, rfl, hclean⟩
      fun loop hmem ep' id req h hreq hsel => cleanable_round h hmem hreq hsel
  have hearly : ∀ ep' : Endpoint ι, Cleanable i ep.hasCtxids ep' →
      Cleanable i ep.hasCtxids (ep'.dropEarly i) := fun ep' h =>
    ⟨⟨h.inv.coherent, h.inv.fresh, h.inv.frees, h.inv.zombies, h.inv.dangling, h.inv.sreq,
      h.inv.sreqInj⟩, h.hasCtxids, h.cleanable⟩
  rw [partnerCleanup_eq]
  exact ((unexpLoop i).run_keeps (Cleanable i ep.hasCtxids) (hearly _ hpending)
    fun ep' id req h hreq hsel => cleanable_unexpRound h hreq hsel).inv

end Invariant

end Xen2mx.Request
