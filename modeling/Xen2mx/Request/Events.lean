/-
# `Xen2mx.Request.Events` — what `omx__progress` finds keeps the invariant

An event takes the request that it is for out of a phase.  What it does then is one of the ways to
settle a request, whichever phase that was.
-/
import Xen2mx.Request.Calls

namespace Xen2mx.Request

variable {ι : Type*}

section Events

open Phase Endpoint

variable {ep ep' : Endpoint ι} {id : ℕ} {req : Req ι}

/-- An event that settles a request that the library did not find in an unexpected message. -/
theorem Settles.inv (h : Inv ep) {ph : Phase} {rest : Rest ι} (rest' : Rest ι)
    (hreq : ep.req id = some (ph.req ep.hasCtxids rest)) (hself : ph ≠ .selfSend)
    (hunexp : ph.isUnexp = false) (hzombie : rest'.zombie = rest.zombie)
    (hinternal : rest'.internal = rest.internal)
    (hs : Settles ep ep' id rest' (ph.req ep.hasCtxids rest).handle) : Inv ep' := by
  refine (hs.lands ?_).inv h hreq (not_isSelfSend hself)
  rw [hzombie, hinternal]
  exact req_handle hunexp

/-- The bits of a request in a phase, and of what an event makes of it. -/
theorem zombieBit_settle (h : ep.req id = some req) (rest : Rest ι) (c b : Bool)
    (hzombie : rest.zombie = req.state.zombie) :
    zombieBit (ep.req id) = zombieBit (some (idle c rest b)) := by
  rw [h, zombieBit, zombieBit, Option.any_some, Option.any_some]
  exact congrArg (fun z : Bool => if z = true then 1 else 0) hzombie.symm

/-! ### Messages -/

theorem phase_of_recv {ph : Phase} {c : Bool} {rest : Rest ι}
    (hqueue : (ph.req c rest).queueElt = some .recv) : ph = .posted := by
  revert hqueue
  cases ph <;> simp [Phase.req, queueElt]

/-- A message for a receive that was posted. -/
theorem settles_processRecv (rest : Rest ι) (b : Bool)
    (hz : zombieBit (ep.req id) = zombieBit (some (idle ep.hasCtxids rest b)))
    (hpos : rest.zombie = true → 0 < ep.zombies) (htype : rest.type = .recv)
    (hinternal : rest.internal = false) (hbuffer : rest.unexpBuffer = false)
    (hdone : rest.done = false) (hpartner : rest.partner ≠ none) (msg : Msg) :
    Settles ep (ep.processRecv id (idle ep.hasCtxids rest b) msg) id rest b := by
  have hcomplete := Settles.complete ep id rest b hz hpos
    (fun hint => absurd hint (by simp [hinternal])) hbuffer false
  cases msg with
  | whole => exact hcomplete
  | mediumFrag last =>
      cases last with
      | true => exact hcomplete
      | false =>
          exact Settles.of_set hz (Settles.calm hinternal hbuffer hdone hpartner .partialRecv
            (by rw [htype]; rfl) rfl nofun) rfl
  | rndv pulling =>
      obtain ⟨new, hup, hnone, hnew⟩ := Settles.submitPull ep id
        { rest with type := .recvLarge } b hz hinternal hbuffer hdone hpartner rfl pulling
      refine ⟨new, hup, hnone, fun req hreq => ?_⟩
      obtain ⟨ph, rest', hcalm, heq⟩ := hnew req hreq
      exact ⟨ph, rest', ⟨hcalm.ok, hcalm.unexp, hcalm.zombie, hcalm.internal⟩, heq⟩

theorem inv_recvPosted (h : Inv ep) (hreq : ep.req id = some req) (hqueue : req.queueElt = some .recv)
    (i : ι) (msg : Msg) : Inv (ep.recvPosted i msg id req) := by
  obtain ⟨ph, rest, hok, rfl⟩ := h.coherent id req hreq
  obtain rfl := phase_of_recv hqueue
  have htypes := hok.types
  exact Settles.inv h { rest with partner := some i } hreq nofun rfl rfl rfl
    (settles_processRecv { rest with partner := some i } _ (zombieBit_settle hreq _ _ _ rfl)
      (h.zombies_pos hreq) (beq_iff_eq.1 htypes) (hok.internal_eq_false nofun nofun)
      (hok.buffer_of rfl) (hok.done_eq_false rfl nofun) (Option.some_ne_none i) msg)

/-- What an unexpected message becomes, -/
def Endpoint.Msg.unexpPhase : Msg → Phase
  | .whole | .mediumFrag true => .unexpected
  | .mediumFrag false => .unexpectedPartial
  | .rndv _ => .unexpectedRndv

/-- and its type. -/
def Endpoint.Msg.unexpType : Msg → ReqType
  | .whole | .mediumFrag _ => .recv
  | .rndv _ => .recvLarge

theorem unexpPhase_ok (i : ι) (msg : Msg) (buffer : Bool)
    (hbuffer : msg.unexpType = .recvLarge → buffer = false) :
    msg.unexpPhase.Ok ⟨msg.unexpType, some i, false, buffer, 0, false, false, false⟩ where
  types := by rcases msg with _ | (_ | _) | _ <;> rfl
  done := nofun
  finished := by rcases msg with _ | (_ | _) | _ <;> exact nofun
  internal := nofun
  unexp _ := ⟨rfl, rfl, rfl⟩
  buffer hbuf := by
    rcases msg with _ | (_ | _) | _
    · exact .inl rfl
    · exact .inr rfl
    · exact .inl rfl
    · cases (hbuffer rfl).symm.trans hbuf
  partner := nofun

theorem inv_recvUnexp (h : Inv ep) (i : ι) (msg : Msg) (buffer : Bool) :
    Inv (ep.recvUnexp i msg buffer) := by
  have hset : ∀ (b : Bool) (req : Req ι), (msg.unexpType = .recvLarge → b = false) →
      req.state.zombie = false → Inv ((ep.alloc req).set ep.next (msg.unexpPhase.req ep.hasCtxids
        ⟨msg.unexpType, some i, false, b, 0, false, false, false⟩)) := by
    intro b req hb hzombie
    have hbit : zombieBit (some req) = 0 := if_neg (by simp [hzombie])
    refine Lands.inv_alloc h hzombie ⟨_, .set ?_, ?_⟩
    · rw [zombieBit_alloc, hbit]
      exact (zombieBit_req rfl _).symm
    · rintro _ ⟨⟩
      refine ⟨⟨_, _, unexpPhase_ok i msg b hb, rfl⟩, fun hsu => ?_⟩
      have htype : msg.unexpType = .recvSelfUnexpected := hsu.1
      rcases msg with _ | (_ | _) | _ <;> exact nomatch htype
  cases msg with
  | whole => exact hset buffer _ nofun rfl
  | mediumFrag last =>
      cases last with
      | true => exact hset buffer _ nofun rfl
      | false => exact hset buffer _ nofun rfl
  | rndv pulling => exact hset false _ (fun _ => rfl) rfl

theorem inv_recvDiscarded (h : Inv ep) (i : ι) : Inv (ep.submitDiscardedNotify i) := by
  have hphase : Phase.delayed.Ok (ι := ι) ⟨.recvLarge, some i, false, false, 0, false, true, false⟩ :=
    ⟨rfl, nofun, nofun, nofun, nofun, nofun, nofun⟩
  have hup : Updates (ep.alloc { type := .recvLarge, partner := some i }) (ep.submitDiscardedNotify i)
      ep.next (some (Phase.delayed.req ep.hasCtxids
        ⟨.recvLarge, some i, false, false, 0, false, true, false⟩)) := by
    refine ⟨?_, rfl, rfl, rfl, rfl, rfl, ?_⟩
    · have hreq := req_new .delayed rfl ep.hasCtxids .recvLarge (some i) true false false
      exact (Function.update_idem ..).trans
        ((congrArg (fun new => Function.update ep.req ep.next (some new)) hreq.symm).trans
          (Function.update_idem ..).symm)
    · rw [zombieBit_alloc]
      rfl
  exact Lands.inv_alloc h rfl ⟨_, hup, by
    rintro _ ⟨⟩
    exact ⟨⟨.delayed, _, hphase, rfl⟩, fun hsu => nomatch hsu.1⟩⟩

theorem phase_of_partialMediumRecv {ph : Phase} {c : Bool} {rest : Rest ι}
    (hpartner : (ph.req c rest).partnerElt = some .partialMediumRecv) :
    ph = .partialRecv ∨ ph = .unexpectedPartial := by
  revert hpartner
  cases ph <;> simp [Phase.req, partnerElt]

theorem inv_recvMediumFrag (h : Inv ep) (hreq : ep.req id = some req)
    (hpartner : req.partnerElt = some .partialMediumRecv) (last : Bool) :
    Inv (ep.processRecvMediumFrag id req last) := by
  obtain ⟨ph, rest, hok, rfl⟩ := h.coherent id req hreq
  have hsame : Inv (ep.set id (ph.req ep.hasCtxids rest)) := by
    have heq : ep.set id (ph.req ep.hasCtxids rest) = ep := by
      rw [Endpoint.set, ← hreq, Function.update_eq_self]
    rw [heq]
    exact h
  rcases phase_of_partialMediumRecv hpartner with rfl | rfl
  · cases last with
    | true =>
        exact Settles.inv h rest hreq (by rintro ⟨⟩) rfl rfl rfl
          (Settles.complete ep id rest _ (zombieBit_settle hreq _ _ _ rfl) (h.zombies_pos hreq)
            hok.internal (hok.buffer_of rfl) false)
    | false => exact hsame
  · cases last with
    | true =>
        have hset : Updates ep (ep.set id (Phase.unexpected.req ep.hasCtxids rest)) id _ :=
          .set (by rw [hreq]; rfl)
        have htypes := hok.types
        have htype : rest.type = .recv := beq_iff_eq.1 htypes
        refine Lands.inv h hreq (not_isSelfSend (by rintro ⟨⟩)) ⟨_, hset, ?_⟩
        rintro _ ⟨⟩
        refine ⟨⟨.unexpected, rest,
          ⟨by rw [htype]; rfl, fun hdone => ?_, by rintro ⟨⟩, hok.internal,
          hok.unexp, fun _ => .inl rfl, fun hnone => ?_⟩, rfl⟩, fun hsu => ?_⟩
        · exact absurd hdone (by simp [(hok.unexp rfl).1])
        · exact absurd hnone (hok.partner_ne_none (by rintro ⟨⟩) (by rintro ⟨⟩))
        · exact absurd hsu.1 (by simp [Phase.req, htype])
    | false => exact hsame

/-! ### Acks and replies -/

theorem phase_of_nonAcked {ph : Phase} {c : Bool} {rest : Rest ι}
    (hpartner : (ph.req c rest).partnerElt = some .nonAcked) :
    ph = .sending ∨ ph = .nonAcked ∨ ph = .nonAckedReply := by
  revert hpartner
  cases ph <;> simp [Phase.req, partnerElt]

/-- A request whose ack came. -/
theorem settles_markRequestAcked (h : Inv ep) {ph : Phase} {rest : Rest ι} (hok : ph.Ok rest)
    (hreq : ep.req id = some (ph.req ep.hasCtxids rest))
    (hpartner : (ph.req ep.hasCtxids rest).partnerElt = some .nonAcked) (error : Bool) :
    Settles ep (ep.markRequestAcked id { ph.req ep.hasCtxids rest with partnerElt := none } error) id
      rest (ph.req ep.hasCtxids rest).handle := by
  have hph := phase_of_nonAcked hpartner
  have hunexp : ph.isUnexp = false := by rcases hph with rfl | rfl | rfl <;> rfl
  have hnotPosted : ph ≠ .posted := by rcases hph with rfl | rfl | rfl <;> rintro ⟨⟩
  have hnotFinished : ph ≠ .finished := by rcases hph with rfl | rfl | rfl <;> rintro ⟨⟩
  have hnotConnecting : ph ≠ .connecting := by rcases hph with rfl | rfl | rfl <;> rintro ⟨⟩
  have hbuffer := hok.buffer_of hunexp
  have hinternal := hok.internal_eq_false hnotConnecting hnotFinished
  have hpartner' := hok.partner_ne_none hnotPosted hnotFinished
  have hz : zombieBit (ep.req id) =
      zombieBit (some (idle ep.hasCtxids rest (ph.req ep.hasCtxids rest).handle)) :=
    zombieBit_settle hreq _ _ _ rfl
  have hcomplete := Settles.complete ep id rest _ hz (h.zombies_pos hreq) hok.internal hbuffer
  have htypes := hok.types
  have hearly := hok.done
  obtain ⟨type, partner, failed, buffer, sreq, done, zombie, internal⟩ := rest
  rcases hph with rfl | rfl | rfl
  · obtain rfl : type = .sendMediumsq := beq_iff_eq.1 htypes
    -- the driver has not given the request back yet
    have hcalm : sendingAcked.Calm
        ⟨.sendMediumsq, partner, failed, buffer, sreq, done, zombie, internal⟩
        ⟨.sendMediumsq, partner, failed || error, buffer, sreq, done, zombie, internal⟩ :=
      ⟨⟨rfl, fun _ => .inl rfl, by rintro ⟨⟩, hok.internal, by rintro ⟨⟩,
        fun hbuf => (by cases hbuffer.symm.trans hbuf),
        fun hnone => absurd hnone hpartner'⟩, rfl, rfl, rfl⟩
    exact Settles.of_set hz hcalm rfl
  · cases type with
    | sendTiny | sendSmall | sendMediumsq | sendMediumva | recvLarge => exact hcomplete error
    | sendLarge =>
        cases error with
        | true => exact hcomplete true
        | false => exact hcomplete false
    | connect | recv | sendSelf | recvSelfUnexpected => cases htypes
  · obtain rfl : type = .sendLarge := beq_iff_eq.1 htypes
    cases error with
    | true => exact hcomplete true
    | false =>
        exact Settles.of_set hz (Settles.calm hinternal hbuffer
          (hok.done_eq_false rfl (by rintro ⟨⟩)) hpartner' .needReply rfl rfl (by rintro ⟨⟩)) rfl

theorem inv_ack (h : Inv ep) (hreq : ep.req id = some req)
    (hpartner : req.partnerElt = some .nonAcked) (error : Bool) :
    Inv (ep.markRequestAcked id { req with partnerElt := none } error) := by
  obtain ⟨ph, rest, hok, rfl⟩ := h.coherent id req hreq
  have hph := phase_of_nonAcked hpartner
  refine Settles.inv h rest hreq ?_ ?_ rfl rfl (settles_markRequestAcked h hok hreq hpartner error)
  · rcases hph with rfl | rfl | rfl <;> exact nofun
  · rcases hph with rfl | rfl | rfl <;> rfl

theorem phase_of_needReply {ph : Phase} {c : Bool} {rest : Rest ι} (hok : ph.Ok rest)
    (htype : (ph.req c rest).type = .sendLarge) (hreply : (ph.req c rest).state.needReply = true) :
    ph = .nonAckedReply ∨ ph = .needReply := by
  have htypes := hok.types
  rw [show rest.type = _ from htype] at htypes
  have hbit : ph.state.needReply = true := hreply
  revert htypes hbit
  cases ph <;> decide

theorem inv_notify (h : Inv ep) (hreq : ep.req id = some req) (htype : req.type = .sendLarge)
    (hreply : req.state.needReply = true) : Inv (ep.processRecvNotify id req) := by
  obtain ⟨ph, rest, hok, rfl⟩ := h.coherent id req hreq
  have hz := zombieBit_settle hreq rest ep.hasCtxids (ph.req ep.hasCtxids rest).handle rfl
  rcases phase_of_needReply hok htype hreply with rfl | rfl
  · refine Settles.inv h rest hreq nofun rfl rfl rfl (Settles.of_set hz (Settles.calm
      (hok.internal_eq_false nofun nofun) (hok.buffer_of rfl) (hok.done_eq_false rfl nofun)
      (hok.partner_ne_none nofun nofun) .nonAcked ?_ rfl nofun) rfl)
    rw [show rest.type = _ from htype]
    rfl
  · exact Settles.inv h rest hreq nofun rfl rfl rfl
      (Settles.complete ep id rest _ hz (h.zombies_pos hreq) hok.internal (hok.buffer_of rfl) false)

theorem phase_of_connect {ph : Phase} {c : Bool} {rest : Rest ι}
    (hpartner : (ph.req c rest).partnerElt = some .connect) : ph = .connecting := by
  revert hpartner
  cases ph <;> simp [Phase.req, partnerElt]

theorem settles_connectComplete (h : Inv ep) {rest : Rest ι} (hok : connecting.Ok rest)
    (hreq : ep.req id = some (connecting.req ep.hasCtxids rest)) (error : Bool) :
    Settles ep (ep.connectComplete id (connecting.req ep.hasCtxids rest) error) id rest
      (connecting.req ep.hasCtxids rest).handle :=
  Settles.complete ep id rest _ (zombieBit_settle hreq _ _ _ rfl) (h.zombies_pos hreq) hok.internal
    (hok.buffer_of rfl) error

theorem inv_connectReply (h : Inv ep) (hreq : ep.req id = some req)
    (hpartner : req.partnerElt = some .connect) (error : Bool) :
    Inv (ep.connectComplete id req error) := by
  obtain ⟨ph, rest, hok, rfl⟩ := h.coherent id req hreq
  obtain rfl := phase_of_connect hpartner
  exact Settles.inv h rest hreq nofun rfl rfl rfl (settles_connectComplete h hok hreq error)

/-! ### What the driver is done with -/

theorem phase_of_driverMediumsqSending {ph : Phase} {c : Bool} {rest : Rest ι}
    (hqueue : (ph.req c rest).queueElt = some .driverMediumsqSending) :
    ph = .sending ∨ ph = .sendingAcked := by
  revert hqueue
  cases ph <;> simp [Phase.req, queueElt]

theorem inv_mediumsqDone (h : Inv ep) (hreq : ep.req id = some req)
    (hqueue : req.queueElt = some .driverMediumsqSending) : Inv (ep.mediumsqDone id req) := by
  obtain ⟨ph, rest, hok, rfl⟩ := h.coherent id req hreq
  have hz := zombieBit_settle hreq rest ep.hasCtxids (ph.req ep.hasCtxids rest).handle rfl
  rcases phase_of_driverMediumsqSending hqueue with rfl | rfl
  · have htype : rest.type = .sendMediumsq := beq_iff_eq.1 hok.types
    have hbuffer := hok.buffer_of rfl
    have hcalm : nonAcked.Calm rest rest :=
      ⟨⟨by rw [htype]; rfl, fun _ => .inl rfl, by rintro ⟨⟩, hok.internal, by rintro ⟨⟩,
        fun hbuf => (by cases hbuffer.symm.trans hbuf),
        fun hnone => absurd hnone (hok.partner_ne_none (by rintro ⟨⟩) (by rintro ⟨⟩))⟩,
        rfl, rfl, rfl⟩
    exact Settles.inv h rest hreq (by rintro ⟨⟩) rfl rfl rfl (Settles.of_set hz hcalm rfl)
  · exact Settles.inv h rest hreq (by rintro ⟨⟩) rfl rfl rfl
      (Settles.complete ep id rest _ hz (h.zombies_pos hreq) hok.internal (hok.buffer_of rfl) false)

theorem phase_of_driverPulling {ph : Phase} {c : Bool} {rest : Rest ι}
    (hqueue : (ph.req c rest).queueElt = some .driverPulling) : ph = .pulling := by
  revert hqueue
  cases ph <;> simp [Phase.req, queueElt]

theorem inv_pullDone (h : Inv ep) (hreq : ep.req id = some req)
    (hqueue : req.queueElt = some .driverPulling) (error : Bool) (posting : Posting) :
    Inv (ep.processPullDone id req error posting) := by
  obtain ⟨ph, rest, hok, rfl⟩ := h.coherent id req hreq
  obtain rfl := phase_of_driverPulling hqueue
  have htype : rest.type = .recvLarge := beq_iff_eq.1 hok.types
  exact Settles.inv h { rest with failed := rest.failed || error } hreq nofun rfl rfl rfl
    (Settles.submit ep id { rest with failed := rest.failed || error } _
      (zombieBit_settle hreq _ _ _ rfl) (hok.internal_eq_false nofun nofun) (hok.buffer_of rfl)
      (hok.done_eq_false rfl nofun) (hok.partner_ne_none nofun nofun)
      (Bool.or_eq_true_iff.2 (.inr (beq_iff_eq.2 htype))) posting)

/-! ### Requests that wait -/

theorem phase_of_needResources {ph : Phase} {c : Bool} {rest : Rest ι}
    (hqueue : (ph.req c rest).queueElt = some .needResources) : ph = .delayed ∨ ph = .delayedPull := by
  revert hqueue
  cases ph <;> simp [Phase.req, queueElt]

theorem inv_processDelayed (h : Inv ep) (hreq : ep.req id = some req)
    (hqueue : req.queueElt = some .needResources) (posting : Posting) :
    Inv (ep.processDelayed id req posting) := by
  obtain ⟨ph, rest, hok, rfl⟩ := h.coherent id req hreq
  have hz := zombieBit_settle hreq rest ep.hasCtxids (ph.req ep.hasCtxids rest).handle rfl
  unfold Endpoint.processDelayed
  rcases phase_of_needResources hqueue with rfl | rfl
  · rw [if_neg (fun hpull => nomatch hpull.2)]
    exact Settles.inv h rest hreq nofun rfl rfl rfl (Settles.submit ep id rest _ hz
      (hok.internal_eq_false nofun nofun) (hok.buffer_of rfl) (hok.done_eq_false rfl nofun)
      (hok.partner_ne_none nofun nofun) hok.types posting)
  · have htype : rest.type = .recvLarge := beq_iff_eq.1 hok.types
    rw [if_pos ⟨htype, rfl⟩]
    exact Settles.inv h rest hreq nofun rfl rfl rfl (Settles.submitPull ep id rest _ hz
      (hok.internal_eq_false nofun nofun) (hok.buffer_of rfl) (hok.done_eq_false rfl nofun)
      (hok.partner_ne_none nofun nofun) htype _)

theorem phase_of_needSeqnum {ph : Phase} {c : Bool} {rest : Rest ι}
    (hpartner : (ph.req c rest).partnerElt = some .needSeqnum) : ph = .throttled := by
  revert hpartner
  cases ph <;> simp [Phase.req, partnerElt]

theorem inv_processThrottling (h : Inv ep) (hreq : ep.req id = some req)
    (hpartner : req.partnerElt = some .needSeqnum) (sending : Bool) :
    Inv (ep.processThrottling id req sending) := by
  obtain ⟨ph, rest, hok, rfl⟩ := h.coherent id req hreq
  obtain rfl := phase_of_needSeqnum hpartner
  exact Settles.inv h rest hreq nofun rfl rfl rfl (Settles.setup (zombieBit_settle hreq _ _ _ rfl)
    (hok.internal_eq_false nofun nofun) (hok.buffer_of rfl) (hok.done_eq_false rfl nofun)
    (hok.partner_ne_none nofun nofun) hok.types sending)

theorem phase_of_nonAckedQueue {ph : Phase} {c : Bool} {rest : Rest ι}
    (hqueue : (ph.req c rest).queueElt = some .nonAcked) : ph = .nonAcked ∨ ph = .nonAckedReply := by
  revert hqueue
  cases ph <;> simp [Phase.req, queueElt]

theorem inv_resend (h : Inv ep) (hreq : ep.req id = some req) (hqueue : req.queueElt = some .nonAcked)
    (sending : Bool) : Inv (ep.resend id req sending) := by
  obtain ⟨ph, rest, hok, rfl⟩ := h.coherent id req hreq
  unfold Endpoint.resend
  split_ifs with hsending
  · have htype : rest.type = .sendMediumsq := hsending.1
    have hz := zombieBit_settle hreq rest ep.hasCtxids (ph.req ep.hasCtxids rest).handle rfl
    rcases phase_of_nonAckedQueue hqueue with rfl | rfl
    · have hbuffer := hok.buffer_of rfl
      have hcalm : Calm .sending rest rest :=
        ⟨⟨beq_iff_eq.2 htype, fun _ => .inl rfl, by rintro ⟨⟩, hok.internal, by rintro ⟨⟩,
          fun hbuf => (by cases hbuffer.symm.trans hbuf),
          fun hnone => absurd hnone (hok.partner_ne_none (by rintro ⟨⟩) (by rintro ⟨⟩))⟩,
          rfl, rfl, rfl⟩
      exact Settles.inv h rest hreq (by rintro ⟨⟩) rfl rfl rfl (Settles.of_set hz hcalm rfl)
    · cases htype.symm.trans (beq_iff_eq.1 hok.types)
  · exact h

/-! ### Done queues -/

theorem inv_testAny (h : Inv ep) (hreq : ep.req id = some req) (hdone : req.doneElt = true) :
    Inv (ep.testSuccess id req) := by
  obtain ⟨ph, rest, hok, rfl⟩ := h.coherent id req hreq
  simp only [Phase.req, Bool.and_eq_true, Bool.not_eq_true'] at hdone
  obtain ⟨⟨hdone, hzombie⟩, hinternal⟩ := hdone
  have hunexp : ph.isUnexp = false := by
    by_contra hne
    rw [Bool.not_eq_false] at hne
    cases (hok.unexp hne).1.symm.trans hdone
  exact inv_testSuccess h hok hreq hunexp hzombie hinternal hdone

theorem inv_test (h : Inv ep) (hreq : ep.req id = some req) (hhandle : req.handle = true)
    (hdone : req.state.done = true) : Inv (ep.testSuccess id req) := by
  obtain ⟨ph, rest, hok, rfl⟩ := h.coherent id req hreq
  obtain ⟨hunexp, hzombie, hinternal⟩ := phase_of_handle hhandle
  exact inv_testSuccess h hok hreq hunexp hzombie hinternal hdone

end Events

end Xen2mx.Request
