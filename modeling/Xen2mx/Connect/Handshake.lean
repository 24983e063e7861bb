/-
# `Xen2mx.Connect.Handshake` — two endpoints that connect to each other

Each side has a partner for the other one and the connect requests that wait for a reply.
A request says what the requester wants to receive next, and so does its reply:

    connect, resend     my next_match_recv_seq  →  request
    request received    the partner is updated, then my next_match_recv_seq  →  reply
    reply received      if a connect request waits for it, the partner is updated

A side cleans its partner up after a timeout, drops it when the application disconnects, and
loses everything when its endpoint is closed and opened again, for a new session id.  The
network may lose or reorder what is in flight.  Any order of all this is a run.  Nothing else
is sent: the sequence numbers of the partners only change as above.

`epoch` counts how often a side rewrote its `nextMatchRecvSeq`, and `since` is the epoch that
its session bits are from.  Every packet keeps the epoch it was sent in, and `heard` is the
epoch that `nextSendSeq` was issued in.  The code has none of them.
-/
import Xen2mx.Connect.Partner
import Xen2mx.Lib.Runs

namespace Xen2mx.Connect

open Isend (Seqnum)

/-! ## One side -/

/-- The part of a connect request that its reply is matched with, and its key. -/
structure ConnectReq where
  connectSeqnum : BitVec 8
  appKey : BitVec 32
  deriving DecidableEq

/-- An endpoint, as far as it is about the other one.  `opened` says which of the endpoints
that were opened there, one after the other, it is. -/
structure Side where
  opened : ℕ
  partner : Partner
  connectReqQ : List ConnectReq
  epoch : ℕ
  since : ℕ
  heard : Option ℕ
  deriving DecidableEq

namespace Side

def init : Side :=
  { opened := 0, partner := .create, connectReqQ := [], epoch := 0, since := 0, heard := none }

/-- Another partner in its place.  A new epoch begins if it expects another number next. -/
def write (side : Side) (partner : Partner) : Side :=
  { side with
    partner := partner
    epoch :=
      if partner.nextMatchRecvSeq = side.partner.nextMatchRecvSeq then side.epoch
      else side.epoch + 1
    since :=
      if partner.nextMatchRecvSeq.sesnum = side.partner.nextMatchRecvSeq.sesnum then side.since
      else side.epoch + 1 }

/-- The epoch that `nextSendSeq` is from, once `resetSendSeq` was offered a number of `epoch`
for the session. -/
def hear (side : Side) (sessionId : BitVec 32) (epoch : ℕ) : Option ℕ :=
  if (side.partner.cleaned sessionId).trueSessionId ≠ sessionId then some epoch
  else if side.partner.Changed sessionId then none
  else side.heard

/-- What is left of the connect requests once the partner is cleaned up. -/
def keptReqQ (side : Side) (sessionId : BitVec 32) : List ConnectReq :=
  if side.partner.Changed sessionId then [] else side.connectReqQ

/-- `omx__post_connect_request`. -/
def postConnectRequest (side : Side) (sessionId : BitVec 32) (req : ConnectReq) :
    EvtRecvConnectRequest :=
  { srcSessionId := sessionId
    appKey := req.appKey
    targetRecvSeqnumStart := side.partner.nextMatchRecvSeq
    connectSeqnum := req.connectSeqnum }

/-- `omx__connect_common`, before the request is posted. -/
def connect (side : Side) (appKey : BitVec 32) : Side :=
  { side with
    partner := { side.partner with connectSeqnum := side.partner.connectSeqnum + 1 }
    connectReqQ := side.connectReqQ ++ [⟨side.partner.connectSeqnum, appKey⟩] }

/-- `omx__process_recv_connect_request`, but the reply. -/
def processRecvConnectRequest (side : Side) (event : EvtRecvConnectRequest) (epoch : ℕ) : Side :=
  { side.write (side.partner.processRecvConnectRequest event) with
    connectReqQ := side.keptReqQ event.srcSessionId
    heard := side.hear event.srcSessionId epoch }

/-- The reply is to a connect request that waits, of this session. -/
def Awaits (side : Side) (sessionId : BitVec 32) (event : EvtRecvConnectReply) : Prop :=
  event.srcSessionId = sessionId ∧ ∃ req ∈ side.connectReqQ, req.connectSeqnum = event.connectSeqnum

instance (side : Side) (sessionId : BitVec 32) (event : EvtRecvConnectReply) :
    Decidable (side.Awaits sessionId event) :=
  inferInstanceAs (Decidable (_ ∧ _))

/-- `omx__connect_complete` for the first request with this number. -/
def connectComplete (side : Side) (connectSeqnum : BitVec 8) : Side :=
  { side with connectReqQ := side.connectReqQ.eraseP (·.connectSeqnum = connectSeqnum) }

/-- `omx__handle_connect_reply`. -/
def handleConnectReply (side : Side) (event : EvtRecvConnectReply) (epoch : ℕ) : Side :=
  match event.connectStatusCode with
  | .success =>
      let side := side.connectComplete event.connectSeqnum
      { side.write (side.partner.handleConnectReply event) with
        connectReqQ := side.keptReqQ event.targetSessionId
        heard := side.hear event.targetSessionId epoch }
  | .badKey => side.connectComplete event.connectSeqnum
  | .invalid => side

/-- `omx__process_recv_connect_reply`. -/
def processRecvConnectReply (side : Side) (sessionId : BitVec 32) (event : EvtRecvConnectReply)
    (epoch : ℕ) : Side :=
  if side.Awaits sessionId event then side.handleConnectReply event epoch else side

/-- The partner and all about it are replaced: by a cleanup, by a new one once it is dropped,
or by that of another endpoint. -/
def renew (side : Side) (partner : Partner) : Side :=
  { side.write partner with connectReqQ := [], heard := none }

end Side

/-! ## Both sides -/

inductive Packet where
  | connectRequest (event : EvtRecvConnectRequest)
  | connectReply (event : EvtRecvConnectReply)
  deriving DecidableEq

/-- What the sender of the packet wants to receive next. -/
def Packet.targetRecvSeqnumStart : Packet → Seqnum
  | .connectRequest event => event.targetRecvSeqnumStart
  | .connectReply event => event.targetRecvSeqnumStart

structure Msg where
  dst : Bool
  packet : Packet
  epoch : ℕ
  deriving DecidableEq

/-- The session id that the driver gives to each endpoint opened on a side, and the
application key of the side. -/
structure Peers where
  sessionId : Bool → ℕ → BitVec 32
  appKey : Bool → BitVec 32

structure State where
  side : Bool → Side
  net : List Msg

namespace State

def init : State := { side := fun _ => .init, net := [] }

def set (s : State) (x : Bool) (side : Side) : State :=
  { s with side := Function.update s.side x side }

def send (s : State) (msg : Msg) : State := { s with net := s.net ++ [msg] }

def drop (s : State) (i : ℕ) : State := { s with net := s.net.eraseIdx i }

@[simp] theorem set_net (s : State) (x : Bool) (side : Side) : (s.set x side).net = s.net := rfl

@[simp] theorem set_side_self (s : State) (x : Bool) (side : Side) :
    (s.set x side).side x = side := Function.update_self _ _ _

@[simp] theorem set_side_not (s : State) (x : Bool) (side : Side) :
    (s.set x side).side (!x) = s.side (!x) :=
  Function.update_of_ne (Bool.not_ne_self x) _ _

@[simp] theorem send_side (s : State) (msg : Msg) : (s.send msg).side = s.side := rfl

@[simp] theorem drop_side (s : State) (i : ℕ) : (s.drop i).side = s.side := rfl

/-- The session id of a side now. -/
def sessionId (p : Peers) (s : State) (x : Bool) : BitVec 32 := p.sessionId x (s.side x).opened

end State

inductive Action where
  /-- `omx_connect`, `omx_iconnect` -/
  | connect (x : Bool) (appKey : BitVec 32)
  /-- a connect request is resent, the `i`th that waits -/
  | resend (x : Bool) (i : ℕ)
  /-- a connect request is given up or nacked, the `i`th that waits -/
  | giveUp (x : Bool) (i : ℕ)
  /-- after a timeout, `omx__partner_cleanup` with disconnect = 1 -/
  | cleanup (x : Bool)
  /-- `omx_disconnect`, `omx__partner_cleanup` with disconnect = 2 -/
  | disconnect (x : Bool)
  /-- the endpoint is closed and opened again -/
  | reopen (x : Bool)
  /-- the `i`th packet in flight is lost -/
  | lose (i : ℕ)
  /-- the `i`th packet in flight is received -/
  | recv (i : ℕ)
  deriving DecidableEq

/-- The side that a packet is for receives it. -/
def State.recv (p : Peers) (s : State) (msg : Msg) : State :=
  let side := s.side msg.dst
  match msg.packet with
  | .connectRequest event =>
      let side := side.processRecvConnectRequest event msg.epoch
      (s.set msg.dst side).send
        { dst := !msg.dst
          packet := .connectReply
            (side.partner.connectReply (s.sessionId p msg.dst) (p.appKey msg.dst) event)
          epoch := side.epoch }
  | .connectReply event =>
      s.set msg.dst (side.processRecvConnectReply (s.sessionId p msg.dst) event msg.epoch)

/-- One side posts the connect request. -/
def State.post (p : Peers) (s : State) (x : Bool) (req : ConnectReq) : State :=
  s.send
    { dst := !x
      packet := .connectRequest ((s.side x).postConnectRequest (s.sessionId p x) req)
      epoch := (s.side x).epoch }

def State.step (p : Peers) (s : State) : Action → Option State
  | .connect x appKey =>
      some ((s.set x ((s.side x).connect appKey)).post p x
        ⟨(s.side x).partner.connectSeqnum, appKey⟩)
  | .resend x i => (s.side x).connectReqQ[i]?.map (s.post p x)
  | .giveUp x i =>
      some (s.set x { s.side x with connectReqQ := (s.side x).connectReqQ.eraseIdx i })
  | .cleanup x => some (s.set x ((s.side x).renew (s.side x).partner.disconnect))
  | .disconnect x => some (s.set x ((s.side x).renew .create))
  | .reopen x =>
      some (s.set x { (s.side x).renew .create with opened := (s.side x).opened + 1 })
  | .lose i => some (s.drop i)
  | .recv i => s.net[i]?.map ((s.drop i).recv p)

def machine (p : Peers) : Machine State Action := ⟨.init, State.step p⟩

end Xen2mx.Connect
