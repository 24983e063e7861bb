/-
# `Xen2mx.Connect.Partner` — what a partner knows of the other side

The part of `struct omx__partner` that the connect handshake writes: two session ids, the
sequence numbers of both directions with the session bits above them, and the counters.

    handler                    session ids               sequence numbers
    connect request, new       back, or else cleanup     both receive ones start over
                     at all    true and back             the send ones as the request says, if
                                                         the true one changes
    connect reply              true only                 the send ones as the reply says, if the
                                                         true one changes
    cleanup, to disconnect     none                      the receive ones jump to the next session

The lists of the partner are in `Request`; whether it is shared, and when it was last heard
of, are left out.
-/
import Mathlib.Tactic.IntervalCases
import Xen2mx.Isend.Throttling

namespace Xen2mx.Connect

open Isend (Seqnum)

/-! ## Sequence numbers -/

/-- `OMX__SEQNUM_RESET`. -/
def seqnumReset (x : Seqnum) : Seqnum := x.sesnum ||| 1

/-- `OMX__SESNUM_ONE`. -/
def sesnumOne : Seqnum := 0x4000

/-- `OMX__EARLY_PACKET_OFFSET_MAX`. -/
def earlyPacketOffsetMax : ℕ := 0xff

theorem sesnum_seqnumReset (x : Seqnum) : (seqnumReset x).sesnum = x.sesnum := by
  have hand : x &&& 0xc000#16 &&& 0xc000#16 = x &&& 0xc000#16 := by
    rw [BitVec.and_assoc, BitVec.and_self]
  have hone : (1 : Seqnum) &&& 0xc000#16 = 0#16 := rfl
  rw [seqnumReset, Seqnum.sesnum, Seqnum.sesnum, BitVec.and_or_distrib_right, hand, hone,
    BitVec.or_zero]

theorem sesnum_eq_shiftLeft (x : Seqnum) :
    x.sesnum = (x.extractLsb' 14 2).setWidth 16 <<< 14 := by
  ext i hi
  rw [Seqnum.sesnum]
  interval_cases i <;> simp

/-- The two constants of a disconnect only differ below the session bits. -/
theorem sesnum_disconnect (x : Seqnum) :
    ((seqnumReset x ^^^ (0xb0f0 &&& 0x3fff)) + sesnumOne).sesnum =
      ((seqnumReset x ^^^ (0xcf0f &&& 0x3fff)) + sesnumOne).sesnum := by
  have hall : ∀ y : BitVec 2,
      Seqnum.sesnum ((((y.setWidth 16 <<< 14) ||| 1) ^^^ (0xb0f0 &&& 0x3fff)) + sesnumOne) =
        Seqnum.sesnum ((((y.setWidth 16 <<< 14) ||| 1) ^^^ (0xcf0f &&& 0x3fff)) + sesnumOne) := by
    decide
  rw [seqnumReset, sesnum_eq_shiftLeft x]
  exact hall _

/-! ## The partner -/

/-- `struct omx__partner`. -/
structure Partner where
  trueSessionId : BitVec 32
  backSessionId : BitVec 32
  nextSendSeq : Seqnum
  nextAckedSendSeq : Seqnum
  nextMatchRecvSeq : Seqnum
  nextFragRecvSeq : Seqnum
  lastAckedRecvSeq : Seqnum
  connectSeqnum : BitVec 8
  lastSendAcknum : BitVec 32
  lastRecvAcknum : BitVec 32
  throttlingSendsNr : BitVec 32
  deriving DecidableEq

/-- `(uint32_t) -1`: the session id is not known. -/
def unknownSession : BitVec 32 := -1

namespace Partner

/-- `omx__partner_reset`, which only keeps the session bits of the receive sequence number. -/
def reset (partner : Partner) : Partner :=
  { trueSessionId := unknownSession
    backSessionId := unknownSession
    nextSendSeq := -1
    nextAckedSendSeq := -1
    nextMatchRecvSeq := seqnumReset partner.nextMatchRecvSeq
    nextFragRecvSeq := seqnumReset partner.nextMatchRecvSeq
    lastAckedRecvSeq := seqnumReset partner.nextMatchRecvSeq
    connectSeqnum := 0
    lastSendAcknum := 0
    lastRecvAcknum := 0
    throttlingSendsNr := 0 }

/-- `omx__partner_create`. -/
def create : Partner :=
  reset
    { trueSessionId := 0, backSessionId := 0, nextSendSeq := 0, nextAckedSendSeq := 0
      -- "first session"
      nextMatchRecvSeq := 0
      nextFragRecvSeq := 0, lastAckedRecvSeq := 0, connectSeqnum := 0, lastSendAcknum := 0
      lastRecvAcknum := 0, throttlingSendsNr := 0 }

/-- What `omx__partner_cleanup` does to the partner when it disconnects: "change recv_seq to
something very different for safety". -/
def disconnect (partner : Partner) : Partner :=
  { partner.reset with
    nextMatchRecvSeq := (partner.reset.nextMatchRecvSeq ^^^ (0xb0f0 &&& 0x3fff)) + sesnumOne
    nextFragRecvSeq := (partner.reset.nextFragRecvSeq ^^^ (0xcf0f &&& 0x3fff)) + sesnumOne }

end Partner

/-! ## The handlers -/

/-- `struct omx_evt_recv_connect_request`. -/
structure EvtRecvConnectRequest where
  srcSessionId : BitVec 32
  appKey : BitVec 32
  targetRecvSeqnumStart : Seqnum
  connectSeqnum : BitVec 8
  deriving DecidableEq

/-- `OMX_CONNECT_STATUS_*`. -/
inductive ConnectStatus where
  | success
  | badKey
  /-- any other code: "invalid connect_reply, just ignore it" -/
  | invalid
  deriving DecidableEq

/-- `struct omx_evt_recv_connect_reply`. -/
structure EvtRecvConnectReply where
  srcSessionId : BitVec 32
  targetSessionId : BitVec 32
  targetRecvSeqnumStart : Seqnum
  connectSeqnum : BitVec 8
  connectStatusCode : ConnectStatus
  deriving DecidableEq

namespace Partner

/-- "this partner changed since last time it talked to us" -/
def Changed (partner : Partner) (sessionId : BitVec 32) : Prop :=
  partner.backSessionId ≠ sessionId ∧ partner.backSessionId ≠ unknownSession

instance (partner : Partner) (sessionId : BitVec 32) : Decidable (partner.Changed sessionId) :=
  inferInstanceAs (Decidable (_ ∧ _))

/-- The partner, "cleaning old partner status" if it has `Changed`. -/
def cleaned (partner : Partner) (sessionId : BitVec 32) : Partner :=
  if partner.Changed sessionId then partner.reset else partner

/-- The send sequence numbers, if the true session id is not `sessionId` yet. -/
def resetSendSeq (partner : Partner) (sessionId : BitVec 32) (start : Seqnum) : Partner :=
  if partner.trueSessionId ≠ sessionId then
    { partner with nextSendSeq := start, nextAckedSendSeq := start }
  else partner

/-- What `omx__process_recv_connect_request` makes of the partner, before the reply.  If it has
`Changed`, the rest of the partner is cleaned up as well. -/
def processRecvConnectRequest (partner : Partner) (event : EvtRecvConnectRequest) : Partner :=
  let partner :=
    if partner.backSessionId ≠ event.srcSessionId then
      let partner := partner.cleaned event.srcSessionId
      { partner with
        nextMatchRecvSeq := seqnumReset partner.nextMatchRecvSeq
        nextFragRecvSeq := seqnumReset partner.nextFragRecvSeq }
    else partner
  { partner.resetSendSeq event.srcSessionId event.targetRecvSeqnumStart with
    trueSessionId := event.srcSessionId
    backSessionId := event.srcSessionId }

/-- The reply to the request: only its status depends on the key. -/
def connectReply (partner : Partner) (sessionId appKey : BitVec 32)
    (event : EvtRecvConnectRequest) : EvtRecvConnectReply :=
  { srcSessionId := event.srcSessionId
    targetSessionId := sessionId
    targetRecvSeqnumStart := partner.nextMatchRecvSeq
    connectSeqnum := event.connectSeqnum
    connectStatusCode := if event.appKey = appKey then .success else .badKey }

/-- What `omx__handle_connect_reply` makes of the partner, for a success.  If it has `Changed`,
the rest of the partner is cleaned up as well. -/
def handleConnectReply (partner : Partner) (event : EvtRecvConnectReply) : Partner :=
  { (partner.cleaned event.targetSessionId).resetSendSeq event.targetSessionId
      event.targetRecvSeqnumStart with
    trueSessionId := event.targetSessionId }

/-! ## The next message -/

/-- What `omx__process_recv` makes of a message. -/
inductive Arrival where
  /-- "Obsolete session message received" -/
  | obsoleteSession
  /-- "Obsolete session piggyack received" -/
  | obsoletePiggyack
  /-- "expected seqnum" -/
  | expected
  /-- a fragment of a message that is matched, or a duplicate -/
  | ordered
  | early
  | obsolete
  deriving DecidableEq, Repr

/-- The checks of `omx__process_recv` and `omx__process_partner_ordered_recv`. -/
def processRecv (partner : Partner) (seqnum piggyack : Seqnum) : Arrival :=
  let fragIndex := (seqnum - partner.nextFragRecvSeq).num
  let fragIndexMax := (partner.nextMatchRecvSeq - partner.nextFragRecvSeq).num
  if (seqnum ^^^ partner.nextFragRecvSeq).sesnum ≠ 0 then .obsoleteSession
  else if (piggyack ^^^ partner.nextSendSeq).sesnum ≠ 0 then .obsoletePiggyack
  else if fragIndex ≤ fragIndexMax then
    if (seqnum - partner.nextMatchRecvSeq).num = 0 then .expected else .ordered
  else if fragIndex ≤ fragIndexMax + earlyPacketOffsetMax then .early
  else .obsolete

/-- `omx__get_partner_needed_ack`, the piggyack of a message. -/
def neededAck (partner : Partner) : Seqnum := partner.nextFragRecvSeq

end Partner

end Xen2mx.Connect
