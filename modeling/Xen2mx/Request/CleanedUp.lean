/-
# `Xen2mx.Request.CleanedUp` — when a cleanup leaves nothing of a partner

`CleanedUp` is what `omx__partner_cleanup` is for: no list that it empties holds a request of the
partner any more, what the application posted has completed once, with an error, and what it never
posted is gone.

    request of the partner       afterwards
    pending                      completed once with an error, or freed if forgotten
    unexpected                   freed
    the driver's                 still the driver's
    any other                    as it was

**Proved here.**
* `partnerCleanup_cleanedUp_iff`: it does so exactly if all the requests of the partner are
  `cleanable`, and none is a send of the endpoint to itself.
-/
import Xen2mx.Request.Accounting

namespace Xen2mx.Request

variable {ι : Type*}

namespace Req

/-- The driver has the request. -/
def isDrivers (req : Req ι) : Bool :=
  match req.queueElt with
  | some .driverMediumsqSending | some .driverPulling => true
  | _ => false

/-- The application posted the request, and it waits for its partner. -/
def isPending (req : Req ι) : Bool :=
  match req.queueElt with
  | some .driverMediumsqSending | some .driverPulling | some .unexp | some .recv => false
  | some _ => true
  | none => req.partnerElt.isSome

/-- `new` is what is left of a request that completed with an error. -/
def CompletedTo (req : Req ι) (new : Option (Req ι)) : Prop :=
  if req.state.zombie then new = none
  else ∃ req', new = some req' ∧ req'.failed = true ∧
    req'.state = { done := true, internal := req.state.internal } ∧
    req'.doneElt = !req.state.internal

end Req

section CleanedUp

open Phase

variable [DecidableEq ι] {i : ι} {ep : Endpoint ι} {id : ℕ} {req : Req ι} {c : Bool} {ph : Phase}
  {rest : Rest ι}

/-- `ep'` is `ep` cleaned of the partner `i`. -/
structure CleanedUp (i : ι) (ep ep' : Endpoint ι) : Prop where
  /-- No list holds a request of the partner, -/
  unlinked : ∀ id req, ep'.req id = some req → req.partner = some i → req.linked = false
  /-- or one that was freed. -/
  dangling : ep'.dangling = []
  early : ep'.early = Function.update ep.early i 0
  pending : ∀ id req, ep.req id = some req → req.partner = some i → req.isPending = true →
    ep'.completions id = ep.completions id + 1 ∧ req.CompletedTo (ep'.req id)
  unexp : ∀ id req, ep.req id = some req → req.partner = some i → req.queueElt = some .unexp →
    ep'.completions id = ep.completions id ∧ ep'.req id = none
  drivers : ∀ id req, ep.req id = some req → req.partner = some i → req.isDrivers = true →
    ep'.completions id = ep.completions id ∧
      ∃ req', ep'.req id = some req' ∧ req'.queueElt = req.queueElt
  others : ∀ id, (∀ req, ep.req id = some req → req.partner = some i →
      req.isPending = false ∧ req.queueElt ≠ some .unexp ∧ req.isDrivers = false) →
    ep'.completions id = ep.completions id ∧ ep'.req id = ep.req id

/-- The cleanup ends the request as it should. -/
def Req.cleansUp (c : Bool) (req : Req ι) : Bool :=
  req.cleanable c && req.queueElt ≠ some .unexpSelfSend

omit [DecidableEq ι] in
theorem completedTo_idle (hok : ph.Ok rest) (b : Bool) :
    Req.CompletedTo (ph.req c rest) ((idle c rest b).completed c true).new := by
  have hnew : ((idle c rest b).completed c true).new =
      (idle c { rest with failed := rest.failed || true } b).notified c := rfl
  rw [hnew, notified_idle]
  have hinternal : rest.zombie = true → rest.internal = false := by
    intro hzombie
    by_contra hne
    rw [Bool.not_eq_false] at hne
    cases (hok.internal hne).2.symm.trans hzombie
  unfold Req.CompletedTo
  split_ifs with hzombie hboth hboth
  · rfl
  · exact absurd (by simp [hinternal hzombie, show rest.zombie = true from hzombie]) hboth
  · exact absurd (Bool.and_eq_true_iff.1 hboth).2 hzombie
  · have hnot : rest.zombie = false := Bool.eq_false_iff.2 hzombie
    refine ⟨_, rfl, Bool.or_true _, ?_, ?_⟩
    · simp [Phase.req, Phase.state, hnot]
    · simp [Phase.req, hnot]

omit [DecidableEq ι] in
/-- What the loops make of a pending request. -/
theorem outcome_pending (hok : ph.Ok rest) (hpending : (ph.req c rest).isPending = true)
    (hclean : (ph.req c rest).cleansUp c = true) :
    ph.isPending = true ∧ (ph.outcome c rest).completions = 1 ∧
      (ph.req c rest).CompletedTo (ph.outcome c rest).new := by
  cases ph with
  | delayed | nonAcked | nonAckedReply | needReply | connecting | partialRecv =>
      exact ⟨rfl, rfl, completedTo_idle hok _⟩
  | throttled =>
      have hzombie : (throttled.req c rest).state.zombie = true := by
        simpa [Req.cleansUp, Req.cleanable, Phase.req, queueElt, partnerElt] using hclean
      have hinternal := hok.internal_eq_false (by rintro ⟨⟩) (by rintro ⟨⟩)
      refine ⟨rfl, rfl, ?_⟩
      rw [Req.CompletedTo, if_pos hzombie]
      show Req.notified c _ = none
      rw [Req.notified, if_neg, if_pos]
      · exact hzombie
      · rw [Bool.not_eq_true]
        exact hinternal
  | delayedPull | selfSend => cases hclean
  | sending | sendingAcked | posted | pulling | unexpected | unexpectedPartial | unexpectedRndv
  | finished => cases hpending

theorem partnerCleanup_unlinked (h : Inv ep) {req : Req ι}
    (hreq : (ep.partnerCleanup i).req id = some req) (hpartner : req.partner = some i) :
    req.linked = false := by
  by_cases hother : ∀ old, ep.req id = some old → old.partner ≠ some i
  · have hsame := (partnerCleanup_other h.fresh hother).1
    exact absurd hpartner (hother req (hsame.symm.trans hreq))
  · push Not at hother
    obtain ⟨old, hold, hpartner'⟩ := hother
    obtain ⟨ph, rest, hok, rfl⟩ := h.coherent id old hold
    have hnew := (partnerCleanup_phase h.fresh hok hold hpartner').1
    rw [hreq] at hnew
    split_ifs at hnew with hunexp
    cases hpending : ph.isPending with
    | true => exact outcome_not_linked hpending hnew.symm
    | false =>
        cases ph with
        | sendingAcked | posted | pulling | selfSend | finished =>
            cases hnew
            exact not_linked rfl rfl rfl _
        | unexpected | unexpectedRndv => exact absurd (by simp) hunexp
        | delayed | delayedPull | throttled | sending | nonAcked | nonAckedReply | needReply
        | connecting | partialRecv | unexpectedPartial => exact nomatch hpending

/-- A cleanup of what it ends as it should. -/
theorem cleanedUp_of_cleansUp (h : Inv ep) (hclean : ∀ id req, ep.req id = some req →
    req.partner = some i → req.cleansUp ep.hasCtxids = true) :
    CleanedUp i ep (ep.partnerCleanup i) := by
  have hinv : Inv (ep.partnerCleanup i) := inv_partnerCleanup h fun id req hreq hpartner =>
    (Bool.and_eq_true_iff.1 (hclean id req hreq hpartner)).1
  refine ⟨fun id req hreq hpartner => partnerCleanup_unlinked h hreq hpartner, hinv.dangling,
    partnerCleanup_early h.fresh, fun id req hreq hpartner hpending => ?_,
    fun id req hreq hpartner hqueue => ?_, fun id req hreq hpartner hdrivers => ?_,
    fun id hother => ?_⟩
  · have hclean' := hclean id req hreq hpartner
    obtain ⟨ph, rest, hok, rfl⟩ := h.coherent id req hreq
    obtain ⟨hph, hone, hto⟩ := outcome_pending hok hpending hclean'
    obtain ⟨hnew, hcompletions⟩ := partnerCleanup_phase h.fresh hok hreq hpartner
    have hunexp : ¬ (ph = .unexpected ∨ ph = .unexpectedRndv) := by
      rintro (rfl | rfl) <;> exact nomatch hph
    rw [if_neg hunexp] at hnew
    rw [hcompletions, hone, hnew]
    exact ⟨rfl, hto⟩
  · have hclean' := hclean id req hreq hpartner
    obtain ⟨ph, rest, hok, rfl⟩ := h.coherent id req hreq
    obtain ⟨hnew, hcompletions⟩ := partnerCleanup_phase h.fresh hok hreq hpartner
    have hunexp := phase_of_unexp hqueue
    cases ph with
    | unexpected | unexpectedRndv => exact ⟨hcompletions, hnew⟩
    | unexpectedPartial => exact nomatch hclean'
    | delayed | delayedPull | throttled | sending | sendingAcked | nonAcked | nonAckedReply
    | needReply | connecting | posted | partialRecv | pulling | selfSend | finished =>
        exact nomatch hunexp
  · obtain ⟨ph, rest, hok, rfl⟩ := h.coherent id req hreq
    obtain ⟨hnew, hcompletions⟩ := partnerCleanup_phase h.fresh hok hreq hpartner
    cases ph with
    | sending | sendingAcked | pulling => exact ⟨hcompletions, _, hnew, rfl⟩
    | delayed | delayedPull | throttled | nonAcked | nonAckedReply | needReply | connecting
    | posted | partialRecv | unexpected | unexpectedPartial | unexpectedRndv | selfSend
    | finished => exact nomatch hdrivers
  · by_cases hpartner : ∀ req, ep.req id = some req → req.partner ≠ some i
    · exact (partnerCleanup_other h.fresh hpartner).symm
    · push Not at hpartner
      obtain ⟨req, hreq, hpartner⟩ := hpartner
      obtain ⟨hpending, hqueue, hdrivers⟩ := hother req hreq hpartner
      obtain ⟨ph, rest, hok, rfl⟩ := h.coherent id req hreq
      obtain ⟨hnew, hcompletions⟩ := partnerCleanup_phase h.fresh hok hreq hpartner
      rw [hreq]
      cases ph with
      | posted | finished => exact ⟨hcompletions, hnew⟩
      | unexpected | unexpectedPartial | unexpectedRndv => exact absurd rfl hqueue
      | sending | sendingAcked | pulling => exact nomatch hdrivers
      | delayed | delayedPull | throttled | nonAcked | nonAckedReply | needReply | connecting
      | partialRecv | selfSend => exact nomatch hpending

omit [DecidableEq ι] in
theorem notified_state {new : Req ι} (hnew : new ∈ req.notified c) :
    new.state = { req.state with done := true } := by
  unfold Req.notified at hnew
  split_ifs at hnew with hinternal hzombie hdone
  · cases hnew
    rfl
  · exact nomatch hnew
  · cases hnew
    rw [← hdone]
  · cases hnew
    rfl

omit [DecidableEq ι] in
theorem zombie_of_notified (hnone : req.notified c = none) : req.state.zombie = true := by
  unfold Req.notified at hnone
  split_ifs at hnone with hinternal hzombie hdone
  exact hzombie

omit [DecidableEq ι] in
/-- A request that keeps a bit has not completed. -/
theorem state_of_completedTo {new : Option (Req ι)} (hto : req.CompletedTo new)
    (hzombie : req.state.zombie = false) :
    ∃ req', new = some req' ∧ req'.state = { done := true, internal := req.state.internal } := by
  rw [Req.CompletedTo, if_neg (by simp [hzombie])] at hto
  obtain ⟨req', hnew, -, hstate, -⟩ := hto
  exact ⟨req', hnew, hstate⟩

/-- What a cleanup does not end as it should. -/
theorem cleansUp_of_cleanedUp (h : Inv ep) (hcleaned : CleanedUp i ep (ep.partnerCleanup i))
    (hreq : ep.req id = some req) (hpartner : req.partner = some i) :
    req.cleansUp ep.hasCtxids = true := by
  obtain ⟨ph, rest, hok, rfl⟩ := h.coherent id req hreq
  obtain ⟨hnew, hcompletions⟩ := partnerCleanup_phase h.fresh hok hreq hpartner
  cases ph with
  | throttled =>
      have hto := (hcleaned.pending id _ hreq hpartner rfl).2
      rw [hnew, if_neg (by decide)] at hto
      have hzombie : rest.zombie = true := by
        by_contra hne
        obtain ⟨req', hreq', hstate⟩ := state_of_completedTo hto (Bool.eq_false_iff.2 hne)
        have hkeeps := notified_state hreq'
        rw [hstate] at hkeeps
        cases congrArg ReqState.needSeqnum hkeeps
      simp [Req.cleansUp, Req.cleanable, Phase.req, queueElt, hzombie]
  | delayedPull =>
      have hto := (hcleaned.pending id _ hreq hpartner rfl).2
      have hnotified : (delayedPull.outcome ep.hasCtxids rest).new = Req.notified ep.hasCtxids
          { idle ep.hasCtxids rest (delayedPull.req ep.hasCtxids rest).handle with
            state := { recvPartial := true }
            failed := rest.failed || true } := rfl
      rw [hnew, if_neg (by decide), hnotified] at hto
      cases hzombie : rest.zombie with
      | true =>
          rw [Req.CompletedTo, if_pos (by exact hzombie)] at hto
          cases zombie_of_notified hto
      | false =>
          obtain ⟨req', hreq', hstate⟩ := state_of_completedTo hto hzombie
          have hkeeps := notified_state hreq'
          rw [hstate] at hkeeps
          cases congrArg ReqState.recvPartial hkeeps
  | selfSend =>
      have hone := (hcleaned.pending id _ hreq hpartner rfl).1
      rw [hcompletions] at hone
      exact absurd hone (Nat.succ_ne_self _).symm
  | unexpectedPartial =>
      have hnone := (hcleaned.unexp id _ hreq hpartner rfl).2
      rw [hnew, if_neg (by decide)] at hnone
      cases (hok.unexp rfl).2.1.symm.trans (zombie_of_notified hnone)
  | unexpected | unexpectedRndv =>
      obtain ⟨hleft, -⟩ := runLoops_phase h.fresh hok hreq hpartner
      have hfreed := (partnerCleanup_dropped h.fresh).dangling hcleaned.dangling id _ hleft
        (decide_eq_true ⟨hpartner, rfl⟩)
      cases hc : ep.hasCtxids with
      | true => simp [unexpLoop, Req.tied, Phase.req, hc, (hok.unexp rfl).1, isUnexp] at hfreed
      | false => simp [Req.cleansUp, Req.cleanable, Phase.req, queueElt, partnerElt]
  | delayed | sending | sendingAcked | nonAcked | nonAckedReply | needReply | connecting | posted
  | partialRecv | pulling | finished =>
      simp [Req.cleansUp, Req.cleanable, Phase.req, queueElt, partnerElt, state]

/-- The cleanup of a partner leaves nothing of it exactly if it can end all its requests. -/
theorem partnerCleanup_cleanedUp_iff (h : Inv ep) (i : ι) :
    CleanedUp i ep (ep.partnerCleanup i) ↔ ∀ id req, ep.req id = some req →
      req.partner = some i → req.cleansUp ep.hasCtxids = true :=
  ⟨fun hcleaned _ _ hreq hpartner => cleansUp_of_cleanedUp h hcleaned hreq hpartner,
    fun hclean => cleanedUp_of_cleansUp h hclean⟩

end CleanedUp

/-- A tiny waits for its ack, a large send for resources, and an unexpected small has come. -/
def pendingCalls : List (Action Bool) :=
  [.isend false .sendTiny (.posted false) true, .isend false .sendLarge .delayed true,
    .recvUnexp false .whole true]

theorem partnerCleanup_cleanedUp_three :
    ∃ ep, (machine false 8 true).exec (.init false 8 true) pendingCalls = some ep ∧
      CleanedUp false ep (ep.partnerCleanup false) := by
  obtain ⟨ep, hep, hall⟩ :
      ∃ ep, (machine false 8 true).exec (.init false 8 true) pendingCalls = some ep ∧
        ep.allReqs (fun req => req.cleansUp ep.hasCtxids) = true := ⟨_, rfl, by decide⟩
  have hinv : Inv ep := inv_of_reaches ⟨pendingCalls, by decide, hep⟩
  exact ⟨ep, hep, (partnerCleanup_cleanedUp_iff hinv false).2 fun _ _ hreq _ =>
    hinv.of_allReqs hall hreq⟩

/-- The first fragment of an unexpected medium has come: the cleanup completes the request, which
keeps its buffer and is on the done queues, though the application never posted it. -/
theorem partnerCleanup_not_cleanedUp :
    ∃ ep, (machine false 8 true).exec (.init false 8 true)
        [.recvUnexp false (.mediumFrag false) true] = some ep ∧
      (∃ req, (ep.partnerCleanup false).req 0 = some req ∧ req.doneElt = true ∧
        req.unexpBuffer = true ∧ req.handle = false) ∧
        ¬ CleanedUp false ep (ep.partnerCleanup false) := by
  obtain ⟨ep, hep, ⟨req, hreq, hpartner, hqueue⟩, req', hreq', hbits⟩ :
      ∃ ep, (machine false 8 true).exec (.init false 8 true)
          [.recvUnexp false (.mediumFrag false) true] = some ep ∧
        (∃ req, ep.req 0 = some req ∧ req.partner = some false ∧ req.queueElt = some .unexp) ∧
          ∃ req, (ep.partnerCleanup false).req 0 = some req ∧ req.doneElt = true ∧
            req.unexpBuffer = true ∧ req.handle = false :=
    ⟨_, rfl, ⟨_, rfl, by decide⟩, _, rfl, by decide⟩
  refine ⟨ep, hep, ⟨req', hreq', hbits⟩, fun hcleaned => ?_⟩
  exact nomatch hreq'.symm.trans (hcleaned.unexp 0 req hreq hpartner hqueue).2

end Xen2mx.Request
