/-
# `Xen2mx.Session.Link` — two endpoints and the network between them

One session from an endpoint to a partner.  The sender is that of `Xen2mx.Isend`, with all its
partners, and the receiver the partner of `Xen2mx.Early` on the other side.  A request that is not
acknowledged can be posted at any time, and again, each time as a packet.  An ack is
`next_frag_recv_seq`, in a packet of its own or in one that goes there anyway.

The network keeps all packets and acks.  Each may come at any time, in any order, any number of times
or never, as long as it is not too old:

    packet     so many were handed on less than `delayMax` more than had a number when it was posted
    ack        less than `delayMax` more than it says are acknowledged

The messages of the session have places, from 0 on, in the order in which they got their numbers.
The network knows of which place a packet is, the receiver does not.

Packets of other sessions are dropped at once, and have no part in this.  Neither have the sends of
the receiver, whose acks are part of the action (`staleAck`).
-/
import Xen2mx.Early.Handed
import Xen2mx.Isend.Order
import Xen2mx.Isend.Window

namespace Xen2mx.Session

open Isend (Seqnum SendAction)
open Early (Msg Match)

/-- Half of the numbers, less those that may come early. -/
def delayMax : ℕ := 2 ^ 14 / 2 - Early.earlyPacketOffsetMax

/-- `OMX_EVT_RECV_*` of what is sent for a request. -/
def msgType : Isend.ReqType → Early.MsgType
  | .sendTiny => .tiny
  | .sendSmall => .small
  | .sendMediumsq | .sendMediumva => .mediumFrag
  | .sendLarge => .rndv
  | .recvLarge => .notify

/-- A packet that is on its way. -/
structure Flying where
  /-- The place of its message. -/
  place : ℕ
  /-- How many messages had a number when it was posted. -/
  sentAt : ℕ
  msg : Msg
  data : List UInt8
  deriving DecidableEq

/-- An ack for the messages up to a place. -/
structure Ack where
  place : ℕ
  seqnum : Seqnum
  deriving DecidableEq

variable {ι : Type*}

structure State (ι : Type*) where
  sender : Isend.Endpoint ι
  receiver : Early.State
  packets : List Flying
  acks : List Ack

namespace State

variable (b : ι) (s : State ι)

/-- How many messages to the partner have a number. -/
def sent : ℕ := (s.sender.partner b).submitted.length

/-- How many of them are acknowledged. -/
def acked : ℕ := s.sent b - (s.sender.partner b).missingAcks

/-- How many messages the receiver has handed on. -/
def handed : ℕ := s.receiver.partner.handedOn.length

/-- The ack that the receiver would send. -/
def neededAck : Ack :=
  ⟨s.handed - s.receiver.partner.fragIndexMax, s.receiver.partner.nextFragRecvSeq⟩

end State

inductive Action (ι : Type*) where
  /-- What the sender does by itself, and with its other partners. -/
  | send (a : SendAction ι)
  /-- The driver gets a packet of the message in this place. -/
  | post (place : ℕ) (msg : Msg) (data : List UInt8)
  /-- A packet comes. -/
  | recv (packet : Flying) (staleAck allocated : Bool) (outcome : Msg → Option Match)
  /-- The handler of a call of the receiver returns. -/
  | handlerReturn (k : ℕ) (ret : Match) (outcome : Msg → Option Match)
  /-- The handler of the receiver is called for another message, or returns. -/
  | otherHandler (called : Bool)
  /-- The receiver sends an ack. -/
  | sendAck
  /-- An ack comes. -/
  | recvAck (ack : Ack)

/-- It is an ack of the partner. -/
def IsAck (b : ι) : SendAction ι → Prop
  | .handleAck i _ => i = b
  | _ => False

instance [DecidableEq ι] (b : ι) : DecidablePred (IsAck b) := fun a => by
  unfold IsAck
  split <;> infer_instance

/-- No packet of the expected number is processed while a message of the partner is with the handler
of the receiver. -/
def State.Alone (s : State ι) : Action ι → Prop
  | .recv packet staleAck allocated outcome =>
      s.receiver.Alone (.recv packet.msg packet.data staleAck allocated outcome)
  | _ => True

instance (s : State ι) : DecidablePred s.Alone := fun a => by
  unfold State.Alone
  split <;> infer_instance

def State.receiverStep (s : State ι) (a : Early.Action) : Option (State ι) :=
  (Early.step s.receiver a).map fun receiver => { s with receiver }

variable [DecidableEq ι]

def State.senderStep (s : State ι) (a : SendAction ι) : Option (State ι) :=
  (Isend.sendStep s.sender a).map fun sender => { s with sender }

def step (b : ι) (s : State ι) : Action ι → Option (State ι)
  | .send a =>
      if IsAck b a then none else s.senderStep a
  | .post place msg data =>
      (s.sender.partner b).submitted.reverse[place]?.bind fun req =>
        if s.acked b ≤ place ∧ msg.seqnum = req.sendSeqnum ∧ msg.type = msgType req.type then
          some { s with packets := ⟨place, s.sent b, msg, data⟩ :: s.packets }
        else none
  | .recv packet staleAck allocated outcome =>
      if packet ∈ s.packets ∧ s.handed < packet.sentAt + delayMax then
        s.receiverStep (.recv packet.msg packet.data staleAck allocated outcome)
      else none
  | .handlerReturn k ret outcome => s.receiverStep (.handlerReturn k ret outcome)
  | .otherHandler called => s.receiverStep (.otherHandler called)
  | .sendAck => some { s with acks := s.neededAck :: s.acks }
  | .recvAck ack =>
      if ack ∈ s.acks ∧ s.acked b < ack.place + delayMax then
        s.senderStep (.handleAck b ack.seqnum)
      else none

/-- The session starts with the number that the partner wants first. -/
def machine (start : ι → Seqnum) (b : ι) : Machine (State ι) (Action ι) where
  init :=
    { sender := .connected start
      receiver := Early.init (start b) (start b)
      packets := []
      acks := [] }
  step := step b

end Xen2mx.Session
