/-
# `Xen2mx.Connect.Keys` — connect requests with another key

The application key of an endpoint is there to filter connect requests.  The handler looks at
it first, but only to choose the status of the reply.  What the request says of the session is
believed under any key:

    session id of the request        key        partner            reply
    both of the partner              the same   as it was          success
                                     another    as it was          bad key
    another                          the same   cleaned up, reset  success
                                     another    cleaned up, reset  bad key

**Proved here.**  A request with another key leaves everything as it was exactly when it
carries the session id that the partner has (`processRecvConnectRequest_badKey_iff`).
-/
import Xen2mx.Connect.Sessions
import Xen2mx.Request.CleanedUp

namespace Xen2mx.Connect

/-- `struct omx_endpoint` with its partners; the requests hold the lists of the partners. -/
structure Library (ι : Type*) where
  sessionId : BitVec 32
  appKey : BitVec 32
  requests : Request.Endpoint ι
  partners : ι → Option Partner

namespace Library

variable {ι : Type*} [DecidableEq ι]

/-- `omx__partner_lookup`, which creates the partner. -/
def partnerLookup (lib : Library ι) (i : ι) : Partner := (lib.partners i).getD .create

/-- `omx__process_recv_connect_request`. -/
def processRecvConnectRequest (lib : Library ι) (i : ι) (event : EvtRecvConnectRequest) :
    Library ι × EvtRecvConnectReply :=
  let partner := lib.partnerLookup i
  let partner' := partner.processRecvConnectRequest event
  let requests :=
    if partner.Changed event.srcSessionId then lib.requests.partnerCleanup i else lib.requests
  ({ lib with requests := requests, partners := Function.update lib.partners i (some partner') },
    partner'.connectReply lib.sessionId lib.appKey event)

end Library

/-- A request of the session that is known as both ids changes nothing. -/
theorem Partner.processRecvConnectRequest_same {partner : Partner} {event : EvtRecvConnectRequest}
    (htrue : event.srcSessionId = partner.trueSessionId)
    (hback : event.srcSessionId = partner.backSessionId) :
    partner.processRecvConnectRequest event = partner := by
  unfold Partner.processRecvConnectRequest
  dsimp only
  rw [if_neg (not_not.2 hback.symm), Partner.resetSendSeq, if_neg (not_not.2 htrue.symm)]
  obtain ⟨trueSessionId, backSessionId, _⟩ := partner
  cases htrue
  cases hback
  rfl

section
variable {ι : Type*} [DecidableEq ι] {lib : Library ι} {i : ι} {partner : Partner}
  {event : EvtRecvConnectRequest}

theorem processRecvConnectRequest_eq_self (hpartner : lib.partners i = some partner)
    (htrue : event.srcSessionId = partner.trueSessionId)
    (hback : event.srcSessionId = partner.backSessionId) :
    (lib.processRecvConnectRequest i event).1 = lib := by
  have hlookup : lib.partnerLookup i = partner := by rw [Library.partnerLookup, hpartner]; rfl
  have hchanged : ¬ partner.Changed event.srcSessionId := fun h => h.1 hback.symm
  rw [Library.processRecvConnectRequest, hlookup,
    Partner.processRecvConnectRequest_same htrue hback, if_neg hchanged, ← hpartner,
    Function.update_eq_self]

/-- A connect request with another key is refused, and leaves the endpoint, the partner and its
requests as they were exactly when it carries the session id that the partner has as both
its ids. -/
theorem processRecvConnectRequest_badKey_iff (hpartner : lib.partners i = some partner)
    (hkey : event.appKey ≠ lib.appKey) :
    (lib.processRecvConnectRequest i event).2.connectStatusCode = .badKey ∧
      ((lib.processRecvConnectRequest i event).1 = lib ↔
        event.srcSessionId = partner.trueSessionId ∧
          event.srcSessionId = partner.backSessionId) := by
  refine ⟨if_neg hkey, fun hsame => ?_, fun h =>
    processRecvConnectRequest_eq_self hpartner h.1 h.2⟩
  have hpartner' : (lib.processRecvConnectRequest i event).1.partners i =
      some ((lib.partnerLookup i).processRecvConnectRequest event) :=
    Function.update_self _ _ _
  rw [hsame, hpartner] at hpartner'
  obtain ⟨htrue, hback⟩ := (lib.partnerLookup i).processRecvConnectRequest_sessionId event
  rw [← Option.some.inj hpartner'] at htrue hback
  exact ⟨htrue.symm, hback.symm⟩

end

/-- An endpoint that is connected to the endpoint `false` and has sent a message to it. -/
def Library.sending : Library Bool :=
  { sessionId := 7
    appKey := 42
    requests :=
      (Request.Endpoint.init false 8 true).alloc
        { type := .sendMediumva
          partner := some false
          state := { needAck := true }
          queueElt := some .nonAcked
          partnerElt := some .nonAcked
          handle := true }
    partners := fun _ =>
      some { Partner.create with
        trueSessionId := 1000, backSessionId := 1000, nextSendSeq := 2, nextAckedSendSeq := 1 } }

theorem processRecvConnectRequest_badKey_same :
    (Library.sending.processRecvConnectRequest false ⟨1000, 13, 1, 0⟩).1 = .sending :=
  (processRecvConnectRequest_badKey_iff rfl (by decide)).2.2 ⟨rfl, rfl⟩

/-- A request with another key and another session fails the message. -/
theorem processRecvConnectRequest_badKey_drops :
    ¬ ∀ (lib : Library Bool) (i : Bool) (partner : Partner) (event : EvtRecvConnectRequest),
      lib.partners i = some partner → partner.trueSessionId ≠ unknownSession →
        event.appKey ≠ lib.appKey →
          (∀ id, (lib.processRecvConnectRequest i event).1.requests.req id = lib.requests.req id) ∧
            (lib.processRecvConnectRequest i event).1.partners i = some partner := by
  intro h
  have hfailed : ((Library.sending.processRecvConnectRequest false
      ⟨13, 13, 1, 0⟩).1.requests.req 0).map (·.failed) = some true := by
    decide
  rw [(h .sending false _ ⟨13, 13, 1, 0⟩ rfl (by decide) (by decide)).1 0] at hfailed
  exact nomatch hfailed

end Xen2mx.Connect
