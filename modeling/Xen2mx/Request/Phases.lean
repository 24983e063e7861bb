/-
# `Xen2mx.Request.Phases` — the bits of a request and its lists agree

The bits of a request, `DONE`, `ZOMBIE` and `INTERNAL` apart, and the lists that hold it, go
together: they say in which phase of its life it is.  `DONE` then tells whether it is in the
done queues, unless the application is through with it.

    phase               bits                                queue_elt              partner_elt
    delayed             NEED_RESOURCES                      need_resources
    delayedPull         NEED_RESOURCES | RECV_PARTIAL       need_resources
    throttled           NEED_SEQNUM                                                need_seqnum
    sending             NEED_ACK | DRIVER_MEDIUMSQ_SENDING  driver_mediumsq        non_acked
    sendingAcked        DRIVER_MEDIUMSQ_SENDING             driver_mediumsq
    nonAcked            NEED_ACK                            non_acked              non_acked
    nonAckedReply       NEED_ACK | NEED_REPLY               non_acked              non_acked
    needReply           NEED_REPLY                          large_send_need_reply
    connecting          NEED_REPLY                          connect                connect
    posted              RECV_NEED_MATCHING                  recv
    partialRecv         RECV_PARTIAL                                               partial_medium
    pulling             RECV_PARTIAL | DRIVER_PULLING       driver_pulling
    unexpected          UNEXPECTED_RECV                     unexp
    unexpectedPartial   UNEXPECTED_RECV | RECV_PARTIAL      unexp                  partial_medium
    unexpectedRndv      UNEXPECTED_RECV | RECV_PARTIAL      unexp
    selfSend            UNEXPECTED_SELF_SEND                unexp_self_send
    finished

`Inv` is what holds of all the requests of an endpoint: each is coherent in some phase, and the
counts of the endpoint are right.  `Updates` is what a function did that changed one request.
-/
import Mathlib.Algebra.BigOperators.Group.Finset.Basic
import Xen2mx.Request.Machine

namespace Xen2mx.Request

variable {ι : Type*}

/-! ## Phases -/

inductive Phase where
  | delayed
  | delayedPull
  | throttled
  | sending
  | sendingAcked
  | nonAcked
  | nonAckedReply
  | needReply
  | connecting
  | posted
  | partialRecv
  | pulling
  | unexpected
  | unexpectedPartial
  | unexpectedRndv
  | selfSend
  | finished
  deriving DecidableEq

namespace Phase

def state : Phase → ReqState
  | .delayed => { needResources := true }
  | .delayedPull => { needResources := true, recvPartial := true }
  | .throttled => { needSeqnum := true }
  | .sending => { needAck := true, driverMediumsqSending := true }
  | .sendingAcked => { driverMediumsqSending := true }
  | .nonAcked => { needAck := true }
  | .nonAckedReply => { needAck := true, needReply := true }
  | .needReply | .connecting => { needReply := true }
  | .posted => { recvNeedMatching := true }
  | .partialRecv => { recvPartial := true }
  | .pulling => { recvPartial := true, driverPulling := true }
  | .unexpected => { unexpectedRecv := true }
  | .unexpectedPartial | .unexpectedRndv => { unexpectedRecv := true, recvPartial := true }
  | .selfSend => { unexpectedSelfSend := true }
  | .finished => {}

def queueElt : Phase → Option Queue
  | .delayed | .delayedPull => some .needResources
  | .sending | .sendingAcked => some .driverMediumsqSending
  | .nonAcked | .nonAckedReply => some .nonAcked
  | .needReply => some .largeSendNeedReply
  | .connecting => some .connect
  | .posted => some .recv
  | .pulling => some .driverPulling
  | .unexpected | .unexpectedPartial | .unexpectedRndv => some .unexp
  | .selfSend => some .unexpSelfSend
  | .throttled | .partialRecv | .finished => none

def partnerElt : Phase → Option PartnerQueue
  | .throttled => some .needSeqnum
  | .sending | .nonAcked | .nonAckedReply => some .nonAcked
  | .connecting => some .connect
  | .partialRecv | .unexpectedPartial => some .partialMediumRecv
  | _ => none

/-- The types of requests that come to the phase. -/
def types : Phase → ReqType → Bool
  | .delayed, type | .throttled, type | .nonAcked, type => type.isSend || type == .recvLarge
  | .delayedPull, type | .pulling, type | .unexpectedRndv, type => type == .recvLarge
  | .sending, type | .sendingAcked, type => type == .sendMediumsq
  | .nonAckedReply, type | .needReply, type => type == .sendLarge
  | .connecting, type => type == .connect
  | .posted, type | .partialRecv, type | .unexpectedPartial, type => type == .recv
  | .unexpected, type => type == .recv || type == .recvSelfUnexpected
  | .selfSend, type => type == .sendSelf
  | .finished, _ => true

/-- The request may be `DONE` already, "it will be resent/zombified later if necessary". -/
def early : Phase → Bool
  | .sending | .sendingAcked | .nonAcked => true
  | _ => false

/-- A message that no receive was posted for. -/
def isUnexp : Phase → Bool
  | .unexpected | .unexpectedPartial | .unexpectedRndv => true
  | _ => false

/-- What a request has besides its phase. -/
structure Rest (ι : Type*) where
  type : ReqType
  partner : Option ι
  failed : Bool
  unexpBuffer : Bool
  sreq : ℕ
  done : Bool
  zombie : Bool
  internal : Bool

/-- The request of a phase; `hasCtxids` is that of the endpoint. -/
def req (ph : Phase) (hasCtxids : Bool) (rest : Rest ι) : Req ι :=
  { type := rest.type
    partner := rest.partner
    state :=
      { ph.state with done := rest.done, zombie := rest.zombie, internal := rest.internal }
    queueElt := ph.queueElt
    partnerElt := ph.partnerElt
    ctxidElt :=
      if hasCtxids then
        if rest.done && !rest.zombie && !rest.internal then some .done
        else if ph.isUnexp then some .unexp else none
      else none
    doneElt := rest.done && !rest.zombie && !rest.internal
    failed := rest.failed
    unexpBuffer := rest.unexpBuffer
    sreq := rest.sreq
    handle := !rest.zombie && !rest.internal && !ph.isUnexp }

/-- What a request may have in a phase. -/
structure Ok (ph : Phase) (rest : Rest ι) : Prop where
  types : ph.types rest.type = true
  done : rest.done = true → ph.early = true ∨ ph = .finished
  /-- A request that is finished is `DONE`, and freed if the application is through with it. -/
  finished : ph = .finished → rest.done = true ∧ rest.zombie = false
  internal : rest.internal = true → rest.type = .connect ∧ rest.zombie = false
  unexp : ph.isUnexp = true → rest.done = false ∧ rest.zombie = false ∧ rest.internal = false
  buffer : rest.unexpBuffer = true → ph = .unexpected ∨ ph = .unexpectedPartial
  partner : rest.partner = none → ph = .posted ∨ ph = .finished

end Phase

/-- The bits and the lists of a request agree. -/
def Coherent (hasCtxids : Bool) (req : Req ι) : Prop :=
  ∃ (ph : Phase) (rest : Phase.Rest ι), ph.Ok rest ∧ req = ph.req hasCtxids rest

/-! ## Zombies -/

/-- A request that is allocated and a zombie. -/
def zombieBit (req : Option (Req ι)) : ℕ := if req.any fun req => req.state.zombie then 1 else 0

@[simp] theorem zombieBit_none : zombieBit (none : Option (Req ι)) = 0 := rfl

namespace Endpoint

/-- The live requests with the `ZOMBIE` bit. -/
def zombieCount (ep : Endpoint ι) : ℕ := ∑ id ∈ Finset.range ep.next, zombieBit (ep.req id)

end Endpoint

/-! ## The invariant -/

/-- A send of the endpoint to itself that nobody has received yet. -/
def Req.IsSelfSend (req : Req ι) : Prop := req.queueElt = some .unexpSelfSend

/-- The message of such a send. -/
def Req.IsSelfUnexp (req : Req ι) : Prop :=
  req.type = .recvSelfUnexpected ∧ req.queueElt = some .unexp

structure Inv (ep : Endpoint ι) : Prop where
  coherent : ∀ id req, ep.req id = some req → Coherent ep.hasCtxids req
  fresh : ∀ id, ep.next ≤ id → ep.req id = none
  /-- Each request was freed once if it is gone. -/
  frees : ∀ id, ep.frees id = if id < ep.next ∧ ep.req id = none then 1 else 0
  zombies : ep.zombies = ep.zombieCount
  dangling : ep.dangling = []
  /-- The send of a message from the endpoint itself is there, -/
  sreq : ∀ id req, ep.req id = some req → req.IsSelfUnexp →
    ∃ sreq, ep.req req.sreq = some sreq ∧ sreq.IsSelfSend
  /-- and its own. -/
  sreqInj : ∀ id id' req req', ep.req id = some req → ep.req id' = some req' →
    req.IsSelfUnexp → req'.IsSelfUnexp → req.sreq = req'.sreq → id = id'

/-- `ep'` is `ep` with the request `id` changed to `req`, or freed. -/
structure Updates (ep ep' : Endpoint ι) (id : ℕ) (new : Option (Req ι)) : Prop where
  req : ep'.req = Function.update ep.req id new
  hasCtxids : ep'.hasCtxids = ep.hasCtxids
  myself : ep'.myself = ep.myself
  next : ep'.next = ep.next
  dangling : ep'.dangling = ep.dangling
  frees : ep'.frees =
    if new.isNone then Function.update ep.frees id (ep.frees id + 1) else ep.frees
  zombies : ep'.zombies + zombieBit (ep.req id) = ep.zombies + zombieBit new

namespace Inv

variable {ep ep' : Endpoint ι} {id : ℕ} {req : Req ι} {req' : Option (Req ι)}

theorem lt_next (h : Inv ep) (hreq : ep.req id = some req) : id < ep.next := by
  by_contra hle
  rw [h.fresh id (Nat.le_of_not_lt hle)] at hreq
  exact nomatch hreq

theorem zombieCount_update (hid : id < ep.next) (hnext : ep'.next = ep.next)
    (hreq : ep'.req = Function.update ep.req id req') :
    ep'.zombieCount + zombieBit (ep.req id) = ep.zombieCount + zombieBit req' := by
  have hmem : id ∈ Finset.range ep.next := Finset.mem_range.2 hid
  have hnew := Finset.add_sum_erase _ (fun id' => zombieBit (ep'.req id')) hmem
  have hold := Finset.add_sum_erase _ (fun id' => zombieBit (ep.req id')) hmem
  have hrest : ∑ id' ∈ (Finset.range ep.next).erase id, zombieBit (ep'.req id') =
      ∑ id' ∈ (Finset.range ep.next).erase id, zombieBit (ep.req id') := by
    refine Finset.sum_congr rfl fun id' hid' => ?_
    rw [hreq, Function.update_of_ne (Finset.ne_of_mem_erase hid')]
  have hself : ep'.req id = req' := by rw [hreq, Function.update_self]
  rw [Endpoint.zombieCount, Endpoint.zombieCount, hnext]
  simp only [hself] at hnew
  omega

/-- Messages point to sends of the endpoint to itself only. -/
theorem no_pointer (h : Inv ep) (hreq : ep.req id = some req) (hself : ¬ req.IsSelfSend) :
    ¬ ∃ id' req₁, ep.req id' = some req₁ ∧ req₁.IsSelfUnexp ∧ req₁.sreq = id := by
  rintro ⟨id', req₁, hreq₁, hsu, rfl⟩
  obtain ⟨sreq, hs, hself'⟩ := h.sreq id' req₁ hreq₁ hsu
  exact hself (Option.some.inj (hreq.symm.trans hs) ▸ hself')

/-- A function that changes one request, and leaves it coherent, keeps the invariant. -/
theorem update (h : Inv ep) (hreq : ep.req id = some req) (hup : Updates ep ep' id req')
    (hcoh : ∀ new ∈ req', Coherent ep.hasCtxids new)
    (hself : (∃ id' req₁, ep.req id' = some req₁ ∧ req₁.IsSelfUnexp ∧ req₁.sreq = id) →
      ∃ new ∈ req', new.IsSelfSend)
    (hunexp : ∀ new ∈ req', new.IsSelfUnexp → req.IsSelfUnexp ∧ new.sreq = req.sreq) :
    Inv ep' := by
  have hid := h.lt_next hreq
  have hold : ∀ id' new, ep'.req id' = some new → new.IsSelfUnexp →
      ∃ old, ep.req id' = some old ∧ old.IsSelfUnexp ∧ new.sreq = old.sreq := by
    intro id' new hnew hsu
    rw [hup.req] at hnew
    by_cases heq : id' = id
    · subst heq
      rw [Function.update_self] at hnew
      obtain ⟨hsu', hsreq⟩ := hunexp new hnew hsu
      exact ⟨req, hreq, hsu', hsreq⟩
    · rw [Function.update_of_ne heq] at hnew
      exact ⟨new, hnew, hsu, rfl⟩
  refine ⟨fun id' new hnew => ?_, fun id' hle => ?_, fun id' => ?_, ?_, ?_, fun id' new hnew hsu => ?_,
    fun id₁ id₂ new₁ new₂ hnew₁ hnew₂ hsu₁ hsu₂ hsreq => ?_⟩
  · rw [hup.hasCtxids]
    rw [hup.req] at hnew
    by_cases heq : id' = id
    · subst heq
      rw [Function.update_self] at hnew
      exact hcoh new hnew
    · rw [Function.update_of_ne heq] at hnew
      exact h.coherent id' new hnew
  · rw [hup.next] at hle
    rw [hup.req, Function.update_of_ne (by omega)]
    exact h.fresh id' hle
  · rw [hup.req, hup.next, hup.frees]
    by_cases heq : id' = id
    · subst heq
      have hone := h.frees id'
      rw [hreq, if_neg (by simp)] at hone
      rw [Function.update_self]
      cases req' with
      | none => simp [hone, hid]
      | some new => simp [hone]
    · rw [Function.update_of_ne heq]
      cases req' with
      | none =>
          rw [Option.isNone_none, if_pos rfl, Function.update_of_ne heq]
          exact h.frees id'
      | some new => exact h.frees id'
  · have hcount := zombieCount_update hid hup.next hup.req
    have hzombies := hup.zombies
    rw [h.zombies] at hzombies
    omega
  · rw [hup.dangling]
    exact h.dangling
  · obtain ⟨old, hreq', hsu', hsreq⟩ := hold id' new hnew hsu
    obtain ⟨sreq, hs, hself'⟩ := h.sreq id' old hreq' hsu'
    rw [hsreq, hup.req]
    by_cases heq : old.sreq = id
    · rw [heq] at hs
      obtain ⟨new', hmem, hnew'⟩ := hself ⟨id', old, hreq', hsu', heq⟩
      rw [heq, Function.update_self]
      exact ⟨new', hmem, hnew'⟩
    · rw [Function.update_of_ne heq]
      exact ⟨sreq, hs, hself'⟩
  · obtain ⟨old₁, hreq₁, hsu₁', hsreq₁⟩ := hold id₁ new₁ hnew₁ hsu₁
    obtain ⟨old₂, hreq₂, hsu₂', hsreq₂⟩ := hold id₂ new₂ hnew₂ hsu₂
    exact h.sreqInj id₁ id₂ old₁ old₂ hreq₁ hreq₂ hsu₁' hsu₂' (hsreq₁ ▸ hsreq₂ ▸ hsreq)

/-- So does one that allocates a request first. -/
theorem alloc (h : Inv ep) (hzombie : req.state.zombie = false)
    (hup : Updates (ep.alloc req) ep' ep.next req')
    (hcoh : ∀ new ∈ req', Coherent ep.hasCtxids new)
    (hunexp : ∀ new ∈ req', new.IsSelfUnexp →
      (∃ sreq, ep.req new.sreq = some sreq ∧ sreq.IsSelfSend) ∧
        ∀ id' req₁, ep.req id' = some req₁ → req₁.IsSelfUnexp → req₁.sreq ≠ new.sreq) :
    Inv ep' := by
  have hfresh : ep.req ep.next = none := h.fresh _ (Nat.le_refl _)
  have hreq : ep'.req = Function.update ep.req ep.next req' := by
    rw [hup.req]
    exact Function.update_idem ..
  have hget : ∀ id' new, ep'.req id' = some new →
      (id' = ep.next ∧ new ∈ req') ∨ (id' ≠ ep.next ∧ ep.req id' = some new) := by
    intro id' new hnew
    rw [hreq] at hnew
    by_cases heq : id' = ep.next
    · rw [heq, Function.update_self] at hnew
      exact .inl ⟨heq, hnew⟩
    · rw [Function.update_of_ne heq] at hnew
      exact .inr ⟨heq, hnew⟩
  have hkeep : ∀ id' req₁, ep.req id' = some req₁ → ep'.req id' = some req₁ := by
    intro id' req₁ hreq₁
    have hne : id' ≠ ep.next := (h.lt_next hreq₁).ne
    rw [hreq, Function.update_of_ne hne, hreq₁]
  refine ⟨fun id' new hnew => ?_, fun id' hle => ?_, fun id' => ?_, ?_, ?_, fun id' new hnew hsu => ?_,
    fun id₁ id₂ new₁ new₂ hnew₁ hnew₂ hsu₁ hsu₂ hsreq => ?_⟩
  · rw [hup.hasCtxids]
    rcases hget id' new hnew with ⟨-, hmem⟩ | ⟨-, hold⟩
    · exact hcoh new hmem
    · exact h.coherent id' new hold
  · rw [hup.next] at hle
    have hlt : ep.next < id' := hle
    rw [hreq, Function.update_of_ne hlt.ne']
    exact h.fresh id' hlt.le
  · rw [hup.next, hup.frees, hreq]
    by_cases heq : id' = ep.next
    · subst heq
      have hnone := h.frees ep.next
      rw [if_neg (by simp)] at hnone
      rw [Function.update_self]
      cases req' with
      | none => simp [Endpoint.alloc, hnone]
      | some new => simp [Endpoint.alloc, hnone]
    · have hiff : id' < (ep.alloc req).next ↔ id' < ep.next := by
        show id' < ep.next + 1 ↔ _
        omega
      have hold := h.frees id'
      simp only [Function.update_of_ne heq, hiff]
      rw [← hold]
      cases req' with
      | none =>
          rw [Option.isNone_none, if_pos rfl, Function.update_of_ne heq]
          rfl
      | some new => rfl
  · have hcount := zombieCount_update (Nat.lt_succ_self ep.next : _ < (ep.alloc req).next) hup.next
      hup.req
    have halloc : (ep.alloc req).zombieCount = ep.zombieCount := by
      rw [Endpoint.zombieCount, Endpoint.zombieCount, Endpoint.alloc, Finset.sum_range_succ]
      have hlast : zombieBit (Function.update ep.req ep.next (some req) ep.next) = 0 := by
        rw [Function.update_self, zombieBit, Option.any_some, hzombie]
        rfl
      rw [hlast, Nat.add_zero]
      refine Finset.sum_congr rfl fun id' hid' => ?_
      exact congrArg zombieBit (Function.update_of_ne (Finset.mem_range.1 hid').ne ..)
    have hzombies := hup.zombies
    have hsame : (ep.alloc req).zombies = ep.zombieCount := h.zombies
    omega
  · rw [hup.dangling]
    exact h.dangling
  · rcases hget id' new hnew with ⟨-, hmem⟩ | ⟨-, hold⟩
    · obtain ⟨⟨sreq, hs, hself⟩, -⟩ := hunexp new hmem hsu
      exact ⟨sreq, hkeep _ _ hs, hself⟩
    · obtain ⟨sreq, hs, hself⟩ := h.sreq id' new hold hsu
      exact ⟨sreq, hkeep _ _ hs, hself⟩
  · rcases hget id₁ new₁ hnew₁ with ⟨rfl, hmem₁⟩ | ⟨-, hold₁⟩ <;>
      rcases hget id₂ new₂ hnew₂ with ⟨rfl, hmem₂⟩ | ⟨-, hold₂⟩
    · rfl
    · exact absurd hsreq.symm ((hunexp new₁ hmem₁ hsu₁).2 id₂ new₂ hold₂ hsu₂)
    · exact absurd hsreq ((hunexp new₂ hmem₂ hsu₂).2 id₁ new₁ hold₁ hsu₁)
    · exact h.sreqInj id₁ id₂ new₁ new₂ hold₁ hold₂ hsu₁ hsu₂ hsreq

end Inv

/-! ## What the functions change -/

/-- What `omx__notify_request_done` makes of a request: nothing, when it frees it. -/
def Req.notified (hasCtxids : Bool) (req : Req ι) : Option (Req ι) :=
  if req.state.internal then some { req with state := { req.state with done := true } }
  else if req.state.zombie then none
  else if req.state.done then some req
  else some (Req.enqueueDone { req with state := { req.state with done := true } } hasCtxids)

/-- What `omx__notify_request_done_early` makes of it. -/
def Req.notifiedEarly (hasCtxids full : Bool) (req : Req ι) : Req ι :=
  if full then req
  else if req.state.zombie then { req with state := { req.state with done := true } }
  else Req.enqueueDone { req with state := { req.state with done := true } } hasCtxids

namespace Updates

variable {ep ep' ep'' : Endpoint ι} {id : ℕ} {req : Req ι} {new new' : Option (Req ι)}

theorem trans (h : Updates ep ep' id (some req)) (h' : Updates ep' ep'' id new') :
    Updates ep ep'' id new' where
  req := by
    rw [h'.req, h.req]
    exact Function.update_idem ..
  hasCtxids := h'.hasCtxids.trans h.hasCtxids
  myself := h'.myself.trans h.myself
  next := h'.next.trans h.next
  dangling := h'.dangling.trans h.dangling
  frees := by
    have hfrees : ep'.frees = ep.frees := h.frees
    rw [h'.frees, hfrees]
  zombies := by
    have hmid : ep'.req id = some req := by rw [h.req, Function.update_self]
    have hz := h.zombies
    have hz' := h'.zombies
    rw [hmid] at hz'
    omega

theorem set (hz : zombieBit (ep.req id) = zombieBit (some req)) :
    Updates ep (ep.set id req) id (some req) :=
  ⟨rfl, rfl, rfl, rfl, rfl, rfl, congrArg (ep.zombies + ·) hz⟩

theorem free (hz : zombieBit (ep.req id) = 0) (htied : req.tied = false) :
    Updates ep (ep.free id req) id none where
  req := rfl
  hasCtxids := rfl
  myself := rfl
  next := rfl
  dangling := by rw [Endpoint.free, htied, if_neg Bool.false_ne_true]
  frees := rfl
  zombies := congrArg (ep.zombies + ·) hz

theorem notifyRequestDone (hz : zombieBit (ep.req id) = zombieBit (some req))
    (hpos : req.state.zombie = true → 0 < ep.zombies)
    (htied : req.state.zombie = true → req.tied = false) :
    Updates ep (ep.notifyRequestDone id req) id (req.notified ep.hasCtxids) := by
  unfold Endpoint.notifyRequestDone Req.notified
  split_ifs with hinternal hzombie hdone
  · exact ⟨rfl, rfl, rfl, rfl, rfl, rfl, congrArg (ep.zombies + ·) hz⟩
  · refine ⟨rfl, rfl, rfl, rfl, ?_, rfl, ?_⟩
    · simp only [Endpoint.free, htied hzombie, Bool.false_eq_true, if_false]
    · have hone : zombieBit (some req) = 1 := by rw [zombieBit, Option.any_some, hzombie, if_pos rfl]
      have hlt := hpos hzombie
      show ep.zombies - 1 + _ = _ + 0
      omega
  · exact ⟨rfl, rfl, rfl, rfl, rfl, rfl, congrArg (ep.zombies + ·) hz⟩
  · exact ⟨rfl, rfl, rfl, rfl, rfl, rfl, congrArg (ep.zombies + ·) hz⟩

theorem notifyRequestDoneEarly (hz : zombieBit (ep.req id) = zombieBit (some req)) :
    Updates ep (ep.notifyRequestDoneEarly id req) id
      (some (req.notifiedEarly ep.hasCtxids (decide (ep.zombieMax ≤ ep.zombies)))) := by
  unfold Endpoint.notifyRequestDoneEarly Req.notifiedEarly
  simp only [decide_eq_true_eq]
  split_ifs with hfull hzombie
  · exact set hz
  · exact set hz
  · exact set hz

end Updates

end Xen2mx.Request
