/-
# `Xen2mx.Reassembly.Partner` — the medium messages of a partner, fragment by fragment

The first packet of a message that is processed is matched: with a posted receive, or with a
request for an unexpected message, or the unexpected handler takes it.  If it is a fragment, the
request waits in `partial_medium_recv_req_q` for the others, which are found by their number.

    number      next_frag_recv_seq          next_match_recv_seq
    messages    partial    done    partial       expected
                                            |
                 continued             to match, if it is a fragment or not

A posted receive can match an unexpected message at any time, before or after its last fragment.

The packets are those of the messages in `messages`, which the network drops, repeats and reorders;
each call of `omx__process_partner_ordered_recv` is an action, be it for a packet that comes or for
an early packet of the loop in `omx__process_recv`.  A message that is shown to the handler leaves
that call where it is, with the lock of the endpoint released, as in `Xen2mx.Early.Queue`.  What is
not a medium is matched, too, but leaves no request here.

`place` is where a message is in `messages`, `posted` the segments as they were given, `completed`
counts the calls of `omx__recv_complete`, `handedOn` the messages for which `next_match_recv_seq`
was increased, and `arrived` keeps the fragments of these that were processed.  The code has none
of them.
-/
import Xen2mx.Reassembly.Fragments
import Xen2mx.Session.Delivery

namespace Xen2mx.Reassembly

open Isend (Seqnum)
open Segments

variable {β : Type*}

/-! ## Requests and packets -/

/-- A receive request that was matched with a medium message. -/
structure Req (β : Type*) where
  seqnum : Seqnum
  medium : MediumReq β
  /-- `OMX_REQUEST_STATE_RECV_PARTIAL`. -/
  recvPartial : Bool
  completed : ℕ
  place : ℕ
  posted : ReqSegs β

namespace Req

/-- `new`: no fragment was received. -/
def IsNew (req : Req β) : Prop := req.medium.fragsReceivedMask = 0

instance (req : Req β) : Decidable req.IsNew := inferInstanceAs (Decidable (_ = _))

/-- What `omx__process_recv_medium_frag` makes of it once the data is copied. -/
def receive (req : Req β) (medium : MediumReq β) (msgLength : ℕ) : Req β :=
  if medium.accumulatedLength = msgLength then
    -- the last fragment
    { req with
      medium
      recvPartial := false
      completed := if medium.unexpected then req.completed else req.completed + 1 }
  else { req with medium, recvPartial := if req.IsNew then true else req.recvPartial }

end Req

/-- A packet, with its data. -/
structure Msg (β : Type*) where
  seqnum : Seqnum
  /-- `none` if it is no `OMX_EVT_RECV_MEDIUM_FRAG`. -/
  frag : Option (Frag β)
  msgLength : ℕ
  place : ℕ

/-- The fragment that comes with a packet. -/
def Msg.came (msg : Msg β) : List (ℕ × ℕ) :=
  msg.frag.toList.map fun f => (msg.place, f.fragSeqnum)

/-- What comes of `omx__try_match_next_recv`. -/
inductive Match (β : Type*) where
  /-- `OMX_NO_RESOURCES`. -/
  | failed
  /-- The unexpected handler took care of the message. -/
  | finished
  | posted (segs : ReqSegs β)
  /-- `unexp_buffer`, of which `msg_length` bytes are there. -/
  | unexpected (buffer : ℕ → β)

/-- A partner, as far as mediums go. -/
structure State (β : Type*) where
  nextMatchRecvSeq : Seqnum
  nextFragRecvSeq : Seqnum
  reqs : List (Req β)
  /-- By their places in `reqs`. -/
  partialMediumRecvReqQ : List ℕ
  /-- Messages that are with the unexpected handler. -/
  calls : List (Msg β)
  /-- `OMX_PROGRESSION_DISABLED_IN_HANDLER`. -/
  progressionDisabled : Bool
  /-- A copy went out of its segments or of their array. -/
  fault : Bool
  handedOn : ℕ
  arrived : List (ℕ × ℕ)

namespace State

variable (fragLengthMax : ℕ) (s : State β)

/-- `omx__update_partner_next_frag_recv_seq`. -/
def updateNextFragRecvSeq : State β :=
  { s with
    nextFragRecvSeq :=
      match s.partialMediumRecvReqQ with
      | [] => s.nextMatchRecvSeq
      | i :: _ => (s.reqs[i]?).elim s.nextMatchRecvSeq Req.seqnum }

/-- `match_index`. -/
def matchIndex (seqnum : Seqnum) : ℕ := (seqnum - s.nextMatchRecvSeq).num

/-- `frag_index`, also `new_index` and `req_index`. -/
def fragIndex (seqnum : Seqnum) : ℕ := (seqnum - s.nextFragRecvSeq).num

/-- `frag_index_max`. -/
def fragIndexMax : ℕ := (s.nextMatchRecvSeq - s.nextFragRecvSeq).num

/-! ## Fragments -/

/-- `omx__process_recv_medium_frag`, for a request. -/
def processRecvMediumFrag (i : ℕ) (msgLength : ℕ) (f : Frag β) : State β :=
  match s.reqs[i]? with
  | none => s
  | some req =>
      if req.medium.Received f then s
      else
        match req.medium.processRecvMediumFrag fragLengthMax f with
        | .error _ => { s with fault := true }
        | .ok medium =>
            let queue :=
              if req.IsNew then s.partialMediumRecvReqQ ++ [i] else s.partialMediumRecvReqQ
            { s with
              reqs := s.reqs.set i (req.receive medium msgLength)
              partialMediumRecvReqQ :=
                if medium.accumulatedLength = msgLength then queue.erase i else queue }

/-- The search of `omx__continue_partial_request`. -/
def continueLoop (seqnum : Seqnum) : List ℕ → Option ℕ
  | [] => none
  | i :: queue =>
      (s.reqs[i]?).bind fun req =>
        if s.fragIndex req.seqnum = s.fragIndex seqnum then some i
        else if s.fragIndex seqnum < s.fragIndex req.seqnum then none
        else continueLoop seqnum queue

/-- `omx__continue_partial_request`. -/
def continuePartialRequest (msg : Msg β) (f : Frag β) : State β :=
  match s.continueLoop msg.seqnum s.partialMediumRecvReqQ with
  | some i => (s.processRecvMediumFrag fragLengthMax i msg.msgLength f).updateNextFragRecvSeq
  | none => s

/-! ## Matching -/

/-- A request that was matched with the first fragment that is processed. -/
def addReq (msg : Msg β) (medium : MediumReq β) : State β :=
  { s with
    reqs := s.reqs ++ [{
      seqnum := msg.seqnum
      medium
      recvPartial := false
      completed := 0
      place := msg.place
      posted := medium.segs }] }

/-- What `omx__try_match_next_recv` does with a message that it has a request for. -/
def tryMatchNextRecv (msg : Msg β) (f : Frag β) : Match β → State β
  | .posted segs =>
      (s.addReq msg (.expected segs msg.msgLength)).processRecvMediumFrag fragLengthMax
        s.reqs.length msg.msgLength f
  | .unexpected buffer =>
      (s.addReq msg (.unexpectedIn ((List.range msg.msgLength).map buffer))).processRecvMediumFrag
        fragLengthMax s.reqs.length msg.msgLength f
  | .failed | .finished => s

/-- `omx__process_partner_ordered_recv` once the match is done. -/
def matchNext (msg : Msg β) : Match β → State β
  | .failed => s
  | outcome =>
      let s' := msg.frag.elim s fun f => s.tryMatchNextRecv fragLengthMax msg f outcome
      { s' with
        nextMatchRecvSeq := s'.nextMatchRecvSeq.increase
        handedOn := s'.handedOn + 1 }.updateNextFragRecvSeq

/-- `omx__process_partner_ordered_recv`; without an outcome the handler is called. -/
def processOrderedRecv (msg : Msg β) (outcome : Option (Match β)) : State β :=
  if s.matchIndex msg.seqnum = 0 then
    outcome.elim { s with calls := msg :: s.calls, progressionDisabled := true }
      (s.matchNext fragLengthMax msg)
  else if s.fragIndex msg.seqnum < s.fragIndexMax then
    msg.frag.elim s (s.continuePartialRequest fragLengthMax msg)
  else s

/-- `omx__complete_unexp_req_as_irecv`. -/
def completeUnexpAsIrecv (i : ℕ) (segs : ReqSegs β) : State β :=
  match s.reqs[i]? with
  | none => s
  | some req =>
      match req.medium.completeUnexpAsIrecv segs with
      | .error _ => { s with fault := true }
      | .ok medium =>
          { s with
            reqs := s.reqs.set i
              { req with
                medium
                posted := segs
                completed := if req.recvPartial then req.completed else req.completed + 1 } }

/-- A packet of a message that was handed on came. -/
def arrive (msg : Msg β) : State β :=
  if msg.place < s.handedOn then { s with arrived := msg.came ++ s.arrived } else s

end State

/-! ## The machine -/

section Machine

variable {fragLengthMax : ℕ} (messages : ℕ → Option (Message β fragLengthMax)) (start : Seqnum)

/-- The packets of a message; `none` is one that is no medium. -/
def packet (place j : ℕ) : Option (Msg β) :=
  match messages place with
  | none => some ⟨Seqnum.increase^[place] start, none, 0, place⟩
  | some m =>
      if j < m.frags then
        some ⟨Seqnum.increase^[place] start, some (m.frag j), m.bytes.length, place⟩
      else none

inductive Action (β : Type*) where
  /-- A packet is processed. -/
  | recv (place j : ℕ) (outcome : Option (Match β))
  /-- The handler of the call `k` returns. -/
  | handlerReturn (k : ℕ) (outcome : Match β)
  /-- The handler is called for a message of the endpoint itself or of another partner, or
  returns. -/
  | otherHandler (called : Bool)
  /-- A receive matches an unexpected message. -/
  | irecv (i : ℕ) (segs : ReqSegs β)

/-- One section under the lock of the endpoint, or one packet of such a section. -/
def step (s : State β) : Action β → Option (State β)
  | .recv place j outcome =>
      if s.progressionDisabled then none
      else
        (packet messages start place j).map fun msg =>
          (s.processOrderedRecv fragLengthMax msg outcome).arrive msg
  | .handlerReturn k outcome =>
      (s.calls[k]?).map fun msg =>
        ({ s with calls := s.calls.eraseIdx k, progressionDisabled := false }.matchNext fragLengthMax
          msg outcome).arrive msg
  | .otherHandler called => some { s with progressionDisabled := called }
  | .irecv i segs =>
      if (s.reqs[i]?).any fun req => req.medium.unexpected then some (s.completeUnexpAsIrecv i segs)
      else none

/-- A partner of which no message came. -/
def init : State β where
  nextMatchRecvSeq := start
  nextFragRecvSeq := start
  reqs := []
  partialMediumRecvReqQ := []
  calls := []
  progressionDisabled := false
  fault := false
  handedOn := 0
  arrived := []

def machine : Machine (State β) (Action β) where
  init := init start
  step := step messages start

end Machine

end Xen2mx.Reassembly
