/-
# `Xen2mx.Request.Calls` — the calls of the application keep the invariant
-/
import Xen2mx.Request.Settles

namespace Xen2mx.Request

variable {ι : Type*}

section Calls

open Phase Endpoint

variable {ep ep' : Endpoint ι} {id : ℕ} {req : Req ι}

theorem inv_isend (h : Inv ep) {type : ReqType} (htype : type.isSend = true) (i : ι)
    (posting : Posting) (handle : Bool) : Inv (ep.isend i type posting handle) := by
  have hsubmit := Settles.submit (ep.alloc { type, partner := some i }) ep.next
    ⟨type, some i, false, false, 0, false, false, false⟩ false zombieBit_alloc rfl rfl rfl nofun (Bool.or_eq_true_iff.2 (.inl htype)) posting
  rw [idle_new] at hsubmit
  exact (hsubmit.give rfl rfl handle).inv_alloc h rfl

/-- Which calls run is not seen in the requests. -/
theorem Inv.running (h : Inv ep) (running : List ℕ) : Inv { ep with running } :=
  ⟨h.coherent, h.fresh, h.frees, h.zombies, h.dangling, h.sreq, h.sreqInj⟩

theorem inv_irecv (h : Inv ep) : Inv ep.irecv := by
  have hposted := Settles.alloc ep .posted
    ⟨.recv, none, false, false, 0, false, false, false⟩ false
    ⟨⟨rfl, nofun, nofun, nofun, nofun, nofun, fun _ => .inl rfl⟩, rfl, rfl, rfl⟩
    (req_new .posted rfl ep.hasCtxids .recv none false false false).symm
  exact ((hposted.give rfl rfl true).inv_alloc h rfl).running _

/-- A send of the endpoint to itself that completes, and the receive that was posted for it. -/
theorem inv_matched (h : Inv ep) {sreq : Req ι} (hsreq : sreq.state.zombie = false)
    {ep₂ : Endpoint ι} {rest₀ rest : Rest ι} (hzombie₀ : rest₀.zombie = false)
    (hinternal₀ : rest₀.internal = false)
    (hsend : Settles (ep.alloc sreq) ep₂ ep.next rest₀ false) (hok : posted.Ok rest)
    (hreq : ep.req id = some (posted.req ep.hasCtxids rest)) (handle : Bool) :
    Inv ((ep₂.recvComplete id
      { posted.req ep.hasCtxids rest with
        queueElt := none
        partner := some ep.myself
        state := { (posted.req ep.hasCtxids rest).state with recvNeedMatching := false } }
      false).giveOrForget ep.next handle) := by
  have hid : ep.next ≠ id := (h.lt_next hreq).ne'
  have hbit : zombieBit (some sreq) = 0 := if_neg (by simp [hsreq])
  obtain ⟨new₁, hup₁, hsome₁, hnew₁⟩ := hsend
  obtain _ | req₁ := new₁
  · rw [hsome₁ rfl] at hzombie₀
    exact nomatch hzombie₀
  obtain ⟨ph₁, rest₁, hcalm₁, rfl⟩ := hnew₁ req₁ rfl
  have hget := hup₁.req_of_ne hid.symm
  rw [alloc_req_of_ne hid.symm, hreq] at hget
  have hzombies : ep₂.zombies = ep.zombies := by
    have hz := hup₁.zombies
    rw [zombieBit_alloc, hbit, zombieBit_req (hcalm₁.zombie.trans hzombie₀)] at hz
    exact hz
  have hrecv := Settles.complete ep₂ id { rest with partner := some ep.myself }
    (posted.req ep.hasCtxids rest).handle (by rw [hget]; rfl)
    (fun hzombie => hzombies ▸ h.zombies_pos hreq hzombie)
    (fun hint => absurd hint (by simp [hok.internal_eq_false nofun nofun])) (hok.buffer_of rfl) false
  rw [hup₁.hasCtxids] at hrecv
  obtain ⟨new₂, hup₂, hnew₂⟩ := hrecv.lands (req_handle rfl)
  have hgive := Settles.give (@Settles.refl _ _ ep.next _ _ _ _ hcalm₁ (by
    rw [hup₂.req_of_ne hid, hup₁.req_self, hup₂.hasCtxids, hup₁.hasCtxids])) hzombie₀ hinternal₀
    handle
  -- the receive is done between two steps of the send: it could as well be after both
  obtain ⟨ep', hl, hl', hsame⟩ := Lands.swap hid hup₁ ⟨new₂, hup₂, hnew₂⟩ hgive (by
    rw [zombieBit_alloc, hbit]
    exact Nat.zero_le _)
  have hkeep : ep'.req id = some (posted.req ep.hasCtxids rest) := by
    rw [hsame id hid.symm, alloc_req_of_ne hid.symm, hreq]
  exact hl'.inv (hl.inv_alloc h hsreq) hkeep nofun

theorem giveOrForget_alloc (hid : id < ep.next) (req : Req ι) (give : Bool) :
    (ep.alloc req).giveOrForget id give = (ep.giveOrForget id give).alloc req := by
  unfold Endpoint.giveOrForget
  rw [alloc_req_of_ne hid.ne]
  cases ep.req id with
  | none => rfl
  | some req' =>
      have hcomm := fun new => Function.update_comm (f := ep.req) hid.ne' (some req) new
      cases give with
      | true => simp only [if_true, Endpoint.set, Endpoint.alloc, hcomm]
      | false =>
          simp only [Bool.false_eq_true, if_false, Endpoint.forget]
          split_ifs
          · simp only [Endpoint.free, Endpoint.alloc, hcomm]
            rfl
          · simp only [Endpoint.set, Endpoint.alloc, hcomm]
          · simp only [Endpoint.set, Endpoint.alloc, hcomm]

/-- A request that is not done stays where it is when it is forgotten. -/
theorem giveOrForget_of_not_done (hreq : ep.req id = some req) (hdone : req.state.done = false)
    (give : Bool) :
    ∃ req', (ep.giveOrForget id give).req id = some req' ∧ req'.type = req.type ∧
      req'.queueElt = req.queueElt := by
  unfold Endpoint.giveOrForget
  rw [hreq]
  cases give with
  | true => exact ⟨_, Function.update_self .., rfl, rfl⟩
  | false =>
      have hstate : req.state ≠ { done := true } := fun heq => by simp [heq] at hdone
      simp only [Bool.false_eq_true, if_false, Endpoint.forget, hstate, hdone]
      exact ⟨_, Function.update_self .., rfl, rfl⟩

/-- A send of the endpoint to itself, and its message, that no receive was posted for. -/
theorem inv_selfUnexp (h : Inv ep) {sreq : Req ι} (buffer handle : Bool) :
    Inv (((((ep.alloc sreq).alloc
      (Req.enqueueUnexp
        { type := .recvSelfUnexpected
          partner := some ep.myself
          state := { unexpectedRecv := true }
          unexpBuffer := buffer
          sreq := ep.next } ep.hasCtxids)).set ep.next
      { type := .sendSelf
        partner := some ep.myself
        state := { unexpectedSelfSend := true }
        queueElt := some .unexpSelfSend })).giveOrForget ep.next handle) := by
  -- the message is the last that is allocated, and its send is ready before
  rw [show ((ep.alloc sreq).alloc _).set ep.next _ = (ep.alloc
      { type := .sendSelf
        partner := some ep.myself
        state := { unexpectedSelfSend := true }
        queueElt := some .unexpSelfSend }).alloc
      (Req.enqueueUnexp
        { type := .recvSelfUnexpected
          partner := some ep.myself
          state := { unexpectedRecv := true }
          unexpBuffer := buffer
          sreq := ep.next } ep.hasCtxids) from by
    simp only [Endpoint.set, Endpoint.alloc,
      Function.update_comm (Nat.lt_succ_self ep.next).ne, Function.update_idem]]
  have hself := Settles.alloc ep .selfSend
    ⟨.sendSelf, some ep.myself, false, false, 0, false, false, false⟩ false
    ⟨⟨rfl, by rintro ⟨⟩, by rintro ⟨⟩, by rintro ⟨⟩, by rintro ⟨⟩, by rintro ⟨⟩, by rintro ⟨⟩⟩,
      rfl, rfl, rfl⟩
    (req_new .selfSend rfl ep.hasCtxids .sendSelf (some ep.myself) false false false).symm
  have hinv := (hself.give rfl rfl handle).inv_alloc h rfl
  obtain ⟨sreq', hs, htype, hqueue⟩ := giveOrForget_of_not_done
    (show (ep.alloc
      { type := .sendSelf
        partner := some ep.myself
        state := { unexpectedSelfSend := true }
        queueElt := some .unexpSelfSend }).req ep.next = _ from Function.update_self ..) rfl handle
  rw [giveOrForget_alloc (Nat.lt_succ_self _)]
  obtain ⟨new, hup, -⟩ := hself.give rfl rfl handle
  refine hinv.alloc rfl .alloc ?_ ?_
  · rintro _ ⟨⟩
    rw [hup.hasCtxids]
    refine ⟨.unexpected,
      ⟨.recvSelfUnexpected, some ep.myself, false, buffer, ep.next, false, false, false⟩,
      ⟨rfl, by rintro ⟨⟩, by rintro ⟨⟩, by rintro ⟨⟩, fun _ => ⟨rfl, rfl, rfl⟩, fun _ => .inl rfl,
        by rintro ⟨⟩⟩, ?_⟩
    cases hc : ep.hasCtxids <;> simp [Req.enqueueUnexp, Endpoint.alloc, hc] <;> rfl
  · rintro _ ⟨⟩ -
    refine ⟨⟨sreq', hs, hqueue⟩, fun id' req₁ hreq₁ hsu heq => ?_⟩
    have hne : id' ≠ ep.next := by
      rintro rfl
      cases hs.symm.trans hreq₁
      cases htype.symm.trans hsu.1
    rw [hup.req_of_ne hne, alloc_req_of_ne hne] at hreq₁
    obtain ⟨sreq₁, hs₁, -⟩ := h.sreq id' req₁ hreq₁ hsu
    exact (h.lt_next hs₁).ne heq

/-- Messages of the endpoint itself. -/
theorem inv_isendSelf (h : Inv ep) {how : SelfSend} {handle : Bool}
    (hstep : ep.isendSelf how handle = some ep') : Inv ep' := by
  have hcomplete := fun error : Bool =>
    Settles.complete (ep.alloc { type := .sendSelf, partner := some ep.myself }) ep.next
      ⟨.sendSelf, some ep.myself, false, false, 0, false, false, false⟩ false zombieBit_alloc nofun nofun rfl error
  simp only [idle_new] at hcomplete
  cases how with
  | finished =>
      cases hstep
      exact ((hcomplete false).give rfl rfl handle).inv_alloc h rfl
  | failed =>
      cases hstep
      exact ((hcomplete true).give rfl rfl handle).inv_alloc h rfl
  | matched id =>
      obtain ⟨rreq, hreq, hstep⟩ := Option.bind_eq_some_iff.1 hstep
      obtain ⟨hqueue, hep'⟩ := Option.ite_none_right_eq_some.1 hstep
      cases hep'
      obtain ⟨ph, rest, hok, rfl⟩ := h.coherent id rreq hreq
      obtain rfl : ph = .posted := by
        revert hqueue
        cases ph <;> simp [Phase.req, queueElt]
      exact inv_matched h rfl rfl rfl (hcomplete false) hok hreq handle
  | unexpected buffer =>
      cases hstep
      exact inv_selfUnexp h buffer handle

/-! ### Unexpected messages -/

/-- What is left when an unexpected message is taken from its lists. -/
theorem dequeueUnexp_req {ph : Phase} (ph' : Phase) {c : Bool} {rest : Rest ι} (hok : ph.Ok rest)
    (hunexp : ph.isUnexp = true) (hunexp' : ph'.isUnexp = false) (hqueue : ph'.queueElt = none)
    (hpartner : ph'.partnerElt = ph.partnerElt)
    (hstate : ph'.state = { ph.state with unexpectedRecv := false }) :
    (ph.req c rest).dequeueUnexp c =
      { ph'.req c { rest with unexpBuffer := false } with handle := false } := by
  obtain ⟨hdone, hzombie, hinternal⟩ := hok.unexp hunexp
  cases c <;>
    simp [Req.dequeueUnexp, Phase.req, hunexp, hunexp', hqueue, hpartner, hstate, hdone, hzombie,
      hinternal]

theorem phase_of_unexp {ph : Phase} {c : Bool} {rest : Rest ι}
    (hqueue : (ph.req c rest).queueElt = some .unexp) : ph.isUnexp = true := by
  revert hqueue
  cases ph <;> simp [Phase.req, queueElt, isUnexp]

theorem settles_completeUnexp {ph : Phase} {rest : Rest ι} (hok : ph.Ok rest)
    (hunexp : ph.isUnexp = true) (hreq : ep.req id = some (ph.req ep.hasCtxids rest))
    (htype : rest.type ≠ .recvSelfUnexpected) (pulling : Pulling) :
    Settles ep (ep.completeUnexpAsIrecv id (ph.req ep.hasCtxids rest) pulling) id
      { rest with unexpBuffer := false } false := by
  obtain ⟨hdone, hzombie, hinternal⟩ := hok.unexp hunexp
  have htypes := hok.types
  have hpartner : rest.partner ≠ none := by
    intro hnone
    rcases hok.partner hnone with rfl | rfl <;> exact nomatch hunexp
  have hz : ∀ rest' : Rest ι, rest'.zombie = false → ∀ b, zombieBit (ep.req id) =
      zombieBit (some (idle ep.hasCtxids rest' b)) := by
    intro rest' hrest' b
    rw [hreq]
    exact (@zombieBit_req _ ph _ _ hzombie _).trans (zombieBit_req hrest' b).symm
  obtain ⟨type, partner, failed, buffer, sreq, done, zombie, internal⟩ := rest
  cases hdone
  cases hzombie
  cases hinternal
  unfold Endpoint.completeUnexpAsIrecv
  cases ph with
  | unexpected =>
      rw [dequeueUnexp_req .finished hok rfl rfl rfl rfl rfl]
      cases type with
      | recv =>
          exact Settles.complete _ _ _ _
            (hz ⟨.recv, partner, failed, false, sreq, false, false, false⟩ rfl false) nofun nofun rfl false
      | recvSelfUnexpected => exact absurd rfl htype
      | connect | sendTiny | sendSmall | sendMediumsq | sendMediumva | sendLarge | recvLarge
      | sendSelf => exact nomatch htypes
  | unexpectedPartial =>
      rw [dequeueUnexp_req .partialRecv hok rfl rfl rfl rfl rfl]
      cases type with
      | recv =>
          exact Settles.of_set
            (hz ⟨.recv, partner, failed, false, sreq, false, false, false⟩ rfl false)
            (@Settles.calm _ ⟨.recv, partner, failed, false, sreq, false, false, false⟩ rfl rfl rfl
              hpartner .partialRecv rfl rfl nofun) rfl
      | connect | sendTiny | sendSmall | sendMediumsq | sendMediumva | sendLarge | recvLarge
      | sendSelf | recvSelfUnexpected => exact nomatch htypes
  | unexpectedRndv =>
      cases type with
      | recvLarge =>
          have hpull := Settles.submitPull _ _ _ _ (hz ⟨.recvLarge, partner, failed, false, sreq, false,
            false, false⟩ rfl false) rfl rfl rfl hpartner rfl pulling
          have hidle : (unexpectedRndv.req ep.hasCtxids
              ⟨.recvLarge, partner, failed, buffer, sreq, false, false, false⟩).dequeueUnexp
                ep.hasCtxids =
              { idle ep.hasCtxids ⟨.recvLarge, partner, failed, false, sreq, false, false, false⟩
                  false with
                state := { (idle ep.hasCtxids ⟨.recvLarge, partner, failed, false, sreq, false,
                  false, false⟩ false).state with recvPartial := true } } := by
            cases ep.hasCtxids <;> rfl
          rw [hidle]
          exact hpull
      | connect | sendTiny | sendSmall | sendMediumsq | sendMediumva | sendLarge | recv
      | sendSelf | recvSelfUnexpected => exact nomatch htypes
  | delayed | delayedPull | throttled | sending | sendingAcked | nonAcked | nonAckedReply
  | needReply | connecting | posted | partialRecv | pulling | selfSend | finished =>
      exact nomatch hunexp

/-- A receive of a message from the endpoint itself completes the send too. -/
theorem inv_selfUnexp_irecv (h : Inv ep) {rest : Rest ι} {sreq : Req ι}
    (hok : unexpected.Ok rest) (hreq : ep.req id = some (unexpected.req ep.hasCtxids rest))
    (htype : rest.type = .recvSelfUnexpected) (hs : ep.req rest.sreq = some sreq) (handle : Bool) :
    Inv ((ep.completeSelfUnexpAsIrecv id (unexpected.req ep.hasCtxids rest) sreq).giveOrForget id
      handle) := by
  obtain ⟨hdone, hzombie, hinternal⟩ := hok.unexp rfl
  have hsu : Req.IsSelfUnexp (unexpected.req ep.hasCtxids rest) := ⟨htype, rfl⟩
  have hself : sreq.IsSelfSend := by
    obtain ⟨sreq', hs', hself'⟩ := h.sreq id _ hreq hsu
    exact Option.some.inj (hs.symm.trans hs') ▸ hself'
  have hne : rest.sreq ≠ id := by
    intro heq
    rw [heq, hreq] at hs
    cases hs
    cases hself
  obtain ⟨ph, rest', hok', rfl⟩ := h.coherent _ sreq hs
  obtain rfl : ph = .selfSend := by
    revert hself
    cases ph <;> simp [Req.IsSelfSend, Phase.req, queueElt]
  have hz : zombieBit (ep.req id) = 0 := by
    rw [hreq]
    exact @zombieBit_req _ .unexpected _ _ hzombie _
  have hrecv := Settles.complete ep id { rest with unexpBuffer := false } false
    (hz.trans (zombieBit_idle (by exact hzombie) _ _).symm)
    (fun hz => absurd hz (by simp [hzombie])) (fun hi => absurd hi (by simp [hinternal])) rfl false
  have hidle : (unexpected.req ep.hasCtxids rest).dequeueUnexp ep.hasCtxids =
      idle ep.hasCtxids { rest with unexpBuffer := false } false :=
    dequeueUnexp_req .finished hok rfl rfl rfl rfl rfl
  rw [← hidle] at hrecv
  obtain ⟨new₁, hup₁, hsome₁, hnew₁⟩ := hrecv
  obtain _ | req₁ := new₁
  · exact absurd (hsome₁ rfl) (by simp [hzombie])
  obtain ⟨ph₁, rest₁, hcalm₁, rfl⟩ := hnew₁ req₁ rfl
  unfold Endpoint.completeSelfUnexpAsIrecv
  generalize hep₁ : ep.recvComplete id ((unexpected.req ep.hasCtxids rest).dequeueUnexp
    ep.hasCtxids) false = ep₁
  rw [show ep.complete id _ _ = ep₁ from hep₁] at hup₁
  have hget := hup₁.req_of_ne hne
  rw [hs] at hget
  have hzombies : ep₁.zombies = ep.zombies := by
    have hz₁ := hup₁.zombies
    rw [hz, zombieBit_req (hcalm₁.zombie.trans hzombie)] at hz₁
    exact hz₁
  have hsend := Settles.complete ep₁ rest.sreq rest'
    (selfSend.req ep.hasCtxids rest').handle (by rw [hget]; rfl)
    (fun hzombie => hzombies ▸ h.zombies_pos hs hzombie)
    (fun hint => absurd hint (by simp [hok'.internal_eq_false (by rintro ⟨⟩) (by rintro ⟨⟩)]))
    (hok'.buffer_of rfl) false
  rw [hup₁.hasCtxids] at hsend
  obtain ⟨new₂, hup₂, hnew₂⟩ := hsend.lands (req_handle rfl)
  have hgive := Settles.give (@Settles.refl _ _ id _ _ _ _ hcalm₁ (by
    rw [hup₂.req_of_ne hne.symm, hup₁.req_self, hup₂.hasCtxids, hup₁.hasCtxids])) hzombie hinternal
    handle
  -- the send is done between two steps of the receive: it could as well be after both
  obtain ⟨ep', hl, hl', hsame⟩ := Lands.swap hne.symm hup₁ ⟨new₂, hup₂, hnew₂⟩ hgive (by
    rw [hz]
    exact Nat.zero_le _)
  have hkeep : ep'.req rest.sreq = some (selfSend.req ep.hasCtxids rest') :=
    (hsame _ hne).trans hs
  refine hl'.inv' (hl.inv h hreq (by rintro ⟨⟩)) hkeep ?_
  rintro ⟨id', req', hreq', hsu', heq⟩
  by_cases hid : id' = id
  · obtain ⟨new, hup, hnew⟩ := hl
    rw [hid, hup.req_self] at hreq'
    exact (hnew req' hreq').2 hsu'
  · rw [hsame id' hid] at hreq'
    exact hid (h.sreqInj id' id req' _ hreq' hreq hsu' hsu heq)

theorem inv_irecvUnexp (h : Inv ep) {pulling : Pulling} {handle : Bool}
    (hstep : ep.irecvUnexp id pulling handle = some ep') : Inv ep' := by
  obtain ⟨req, hreq, hstep⟩ := Option.bind_eq_some_iff.1 hstep
  obtain ⟨hqueue, hstep⟩ := Option.ite_none_right_eq_some.1 hstep
  have hnotSelf : ¬ req.IsSelfSend := by
    rw [Req.IsSelfSend, hqueue]
    exact nofun
  obtain ⟨ph, rest, hok, rfl⟩ := h.coherent id req hreq
  have hunexp := phase_of_unexp hqueue
  obtain ⟨hdone, hzombie, hinternal⟩ := hok.unexp hunexp
  split_ifs at hstep with htype
  · obtain ⟨sreq, hs, rfl⟩ := Option.map_eq_some_iff.1 hstep
    obtain rfl : ph = .unexpected := by
      have htypes := hok.types
      rw [show rest.type = _ from htype] at htypes
      revert hunexp htypes
      cases ph <;> decide
    exact inv_selfUnexp_irecv h hok hreq htype hs handle
  · cases hstep
    exact ((settles_completeUnexp hok hunexp hreq htype pulling).give hzombie hinternal handle).inv h
      hreq hnotSelf

/-! ### Connects -/

section Connect

variable [DecidableEq ι]

/-- The request that `omx__connect_common` allocates. -/
def connectReq (i : ι) (internal : Bool) : Req ι :=
  { type := .connect
    partner := some i
    state := { needReply := true, internal }
    queueElt := some .connect
    partnerElt := some .connect }

theorem settles_connectCommon (ep : Endpoint ι) (i : ι) (internal : Bool) :
    Settles (ep.alloc (connectReq i internal)) (ep.connectCommon i internal) ep.next
      ⟨.connect, some i, false, false, 0, false, false, internal⟩ false := by
  unfold Endpoint.connectCommon
  split_ifs with hself
  · have hcomplete := Settles.complete (ep.alloc (connectReq i internal)) ep.next
      ⟨.connect, some i, false, false, 0, false, false, internal⟩ false zombieBit_alloc nofun
      (fun _ => ⟨rfl, rfl⟩) rfl false
    have hidle := req_new .finished rfl ep.hasCtxids .connect (some i) false internal false
    rw [show idle (ep.alloc _).hasCtxids _ false = _ from hidle] at hcomplete
    exact hcomplete
  · exact Settles.alloc ep .connecting _ false ⟨⟨rfl, nofun, nofun, fun _ => ⟨rfl, rfl⟩, nofun,
      nofun, nofun⟩, rfl, rfl, rfl⟩
      (req_new .connecting rfl ep.hasCtxids .connect (some i) false internal false).symm

theorem inv_connect (h : Inv ep) (i : ι) : Inv (ep.connectCommon i true) := by
  exact ((settles_connectCommon ep i true).lands rfl).inv_alloc h rfl

theorem inv_iconnect (h : Inv ep) (i : ι) : Inv (ep.iconnect i) :=
  (((settles_connectCommon ep i false).give rfl rfl true).inv_alloc h rfl).running _

end Connect

theorem inv_allocFails (h : Inv ep) : Inv ((ep.alloc { type := .recv, partner := none }).free ep.next
    { type := .recv, partner := none }) :=
  Lands.inv_alloc h rfl (.of_free (.free zombieBit_alloc rfl))

theorem inv_connectReturns (h : Inv ep) (hreq : ep.req id = some req)
    (hinternal : req.state.internal = true) : Inv (ep.connectReturns id req) := by
  obtain ⟨ph, rest, hok, rfl⟩ := h.coherent id req hreq
  replace hinternal : rest.internal = true := hinternal
  have hph : ph = .connecting ∨ ph = .finished := by
    by_contra hne
    rw [not_or] at hne
    rw [hok.internal_eq_false hne.1 hne.2] at hinternal
    cases hinternal
  obtain ⟨-, hzombie⟩ := hok.internal hinternal
  have hunexp : ph.isUnexp = false := by rcases hph with rfl | rfl <;> rfl
  have hbuffer := hok.buffer_of hunexp
  have hz : zombieBit (ep.req id) = 0 := by
    rw [hreq]
    exact zombieBit_req hzombie _
  have htied : ∀ c, Req.tied (finished.req c rest) = false := by
    intro c
    cases c <;>
      simp [Req.tied, Phase.req, queueElt, partnerElt, isUnexp, hbuffer, hinternal]
  have hself : ¬ Req.IsSelfSend (ph.req ep.hasCtxids rest) := by
    refine not_isSelfSend ?_
    rcases hph with rfl | rfl <;> rintro ⟨⟩
  refine Lands.inv h hreq hself (.of_free ?_)
  unfold Endpoint.connectReturns
  rcases hph with rfl | rfl
  · have hdone : rest.done = false := hok.done_eq_false rfl (by rintro ⟨⟩)
    rw [if_neg (by simp [Phase.req, hdone])]
    exact .free hz (htied _)
  · have hdone : (finished.req ep.hasCtxids rest).state.done = true := (hok.finished rfl).1
    rw [if_pos hdone]
    exact .free hz (htied _)

/-! ### The end of a request -/

theorem phase_of_handle {ph : Phase} {c : Bool} {rest : Rest ι}
    (hhandle : (ph.req c rest).handle = true) :
    ph.isUnexp = false ∧ rest.zombie = false ∧ rest.internal = false := by
  simp only [Phase.req, Bool.and_eq_true, Bool.not_eq_true'] at hhandle
  exact ⟨hhandle.2, hhandle.1.1, hhandle.1.2⟩

theorem inv_testSuccess (h : Inv ep) {ph : Phase} {rest : Rest ι} (hok : ph.Ok rest)
    (hreq : ep.req id = some (ph.req ep.hasCtxids rest)) (hunexp : ph.isUnexp = false)
    (hzombie : rest.zombie = false) (hinternal : rest.internal = false) (hdone : rest.done = true) :
    Inv (ep.testSuccess id (ph.req ep.hasCtxids rest)) := by
  have hz : zombieBit (ep.req id) = 0 := by
    rw [hreq]
    exact zombieBit_req hzombie _
  have hself : ¬ Req.IsSelfSend (ph.req ep.hasCtxids rest) := by
    refine not_isSelfSend ?_
    rintro rfl
    rcases hok.done hdone with hearly | hfinished
    · exact nomatch hearly
    · exact nomatch hfinished
  exact Lands.inv h hreq hself ⟨_, .testSuccess hz hok hunexp hzombie hinternal hdone,
    fun _ hr => hok.forgotten hunexp hinternal hr⟩

theorem inv_forget (h : Inv ep) (hreq : ep.req id = some req) (hhandle : req.handle = true) :
    Inv (ep.forget id { req with handle := false }) := by
  obtain ⟨ph, rest, hok, rfl⟩ := h.coherent id req hreq
  obtain ⟨hunexp, hzombie, hinternal⟩ := phase_of_handle hhandle
  have hz : zombieBit (ep.req id) = 0 := by
    rw [hreq]
    exact zombieBit_req hzombie _
  refine h.update hreq (.forget hz hok hunexp hzombie hinternal)
    (fun _ hr => (hok.forgotten hunexp hinternal hr).1) (fun hpointer => ?_)
    fun _ hr hs => absurd hs (hok.forgotten hunexp hinternal hr).2
  -- a send of the endpoint to itself stays one
  have hself : Req.IsSelfSend (ph.req ep.hasCtxids rest) := by
    by_contra hnot
    exact h.no_pointer hreq hnot hpointer
  have hfinished : ph ≠ .finished := by
    rintro rfl
    exact nomatch hself
  refine ⟨ph.req ep.hasCtxids { rest with done := false, zombie := true }, ?_, hself⟩
  rw [forgotten, if_neg hfinished]
  exact Option.mem_some_self _

/-- A call gives its request up.  `omx_iconnect` does what `omx__forget` does, if the request is not
done yet. -/
theorem inv_returns (h : Inv ep) (hreq : ep.req id = some req) (hhandle : req.handle = true)
    {handle : Bool} (hproper : handle = false → req.type = .connect → req.state.done = false) :
    Inv (ep.returns id req handle) := by
  have hrunning := h.running (ep.running.erase id)
  have hforget := inv_forget hrunning hreq hhandle
  unfold Endpoint.returns
  cases handle with
  | true => exact hrunning
  | false =>
      rw [if_neg Bool.false_ne_true]
      split_ifs with htype
      · have hdone := hproper rfl htype
        have hstate : req.state ≠ { done := true } := by
          intro heq
          rw [heq] at hdone
          cases hdone
        rw [Endpoint.forget, if_neg hstate] at hforget
        simpa only [hdone, Bool.false_eq_true, if_false] using hforget
      · exact hforget

theorem cancelCommon_req {ph : Phase} {c : Bool} {rest : Rest ι} (hok : ph.Ok rest) {req' : Req ι}
    (hcancel : (ph.req c rest).cancelCommon = some req') :
    (ph = .posted ∨ ph = .connecting) ∧ req' = idle c rest (ph.req c rest).handle := by
  unfold Req.cancelCommon at hcancel
  split at hcancel
  · next htype =>
      obtain ⟨hbit, hreq'⟩ := Option.ite_none_right_eq_some.1 hcancel
      cases hreq'
      have htypes := hok.types
      rw [show rest.type = _ from htype] at htypes
      cases ph with
      | posted => exact ⟨.inl rfl, rfl⟩
      | delayed | delayedPull | throttled | sending | sendingAcked | nonAcked | nonAckedReply
      | needReply | connecting | partialRecv | pulling | unexpected | unexpectedPartial
      | unexpectedRndv | selfSend | finished => exact nomatch hbit
  · next htype =>
      obtain ⟨hbit, hreq'⟩ := Option.ite_none_right_eq_some.1 hcancel
      cases hreq'
      have htypes := hok.types
      rw [show rest.type = _ from htype] at htypes
      cases ph with
      | connecting => exact ⟨.inr rfl, rfl⟩
      | nonAckedReply | needReply => exact nomatch htypes
      | delayed | delayedPull | throttled | sending | sendingAcked | nonAcked | posted
      | partialRecv | pulling | unexpected | unexpectedPartial | unexpectedRndv | selfSend
      | finished => exact nomatch hbit
  · exact nomatch hcancel

theorem inv_cancel (h : Inv ep) (hreq : ep.req id = some req) (hhandle : req.handle = true)
    {req' : Req ι} (hcancel : req.cancelCommon = some req') : Inv (ep.free id req') := by
  obtain ⟨ph, rest, hok, rfl⟩ := h.coherent id req hreq
  obtain ⟨hunexp, hzombie, hinternal⟩ := phase_of_handle hhandle
  obtain ⟨hph, rfl⟩ := cancelCommon_req hok hcancel
  have hself : ¬ Req.IsSelfSend (ph.req ep.hasCtxids rest) := by
    refine not_isSelfSend ?_
    rcases hph with rfl | rfl <;> exact nofun
  have hdone : rest.done = false := by
    rcases hph with rfl | rfl <;> exact hok.done_eq_false rfl nofun
  have hz : zombieBit (ep.req id) = 0 := by
    rw [hreq]
    exact zombieBit_req hzombie _
  have htied : (idle ep.hasCtxids rest (ph.req ep.hasCtxids rest).handle).tied = false := by
    cases ep.hasCtxids <;>
      simp [Req.tied, idle, Phase.req, queueElt, partnerElt, isUnexp, hok.buffer_of hunexp, hdone]
  exact Lands.inv h hreq hself (.of_free (.free hz htied))

theorem inv_cancelNotest (h : Inv ep) (hreq : ep.req id = some req) (hhandle : req.handle = true)
    {req' : Req ι} (hcancel : req.cancelCommon = some req') :
    Inv (ep.notifyRequestDone id { req' with failed := true }) := by
  obtain ⟨ph, rest, hok, rfl⟩ := h.coherent id req hreq
  obtain ⟨hunexp, hzombie, hinternal⟩ := phase_of_handle hhandle
  obtain ⟨hph, rfl⟩ := cancelCommon_req hok hcancel
  have hself : ¬ Req.IsSelfSend (ph.req ep.hasCtxids rest) := by
    refine not_isSelfSend ?_
    rcases hph with rfl | rfl <;> exact nofun
  have hcomplete := Settles.complete ep id { rest with failed := true }
    (ph.req ep.hasCtxids rest).handle (by rw [hreq]; rfl)
    (fun hz => absurd hz (by simp [hzombie])) (fun hi => absurd hi (by simp [hinternal]))
    (hok.buffer_of hunexp) false
  exact (hcomplete.lands (req_handle hunexp)).inv h hreq hself

end Calls

end Xen2mx.Request
