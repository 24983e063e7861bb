/-
# `Xen2mx.Early.Queue` — packets that come before their turn

A partner expects the message `next_match_recv_seq`, and fragments of the mediums from
`next_frag_recv_seq` on that it has matched.  What comes up to `OMX__EARLY_PACKET_OFFSET_MAX`
later waits in `early_recv_q`, with a copy of its data, until the message before it came.

    offset from next_frag_recv_seq             the packet is
    up to next_match_recv_seq                  processed
    up to 255 more                             postponed
    beyond                                     obsolete

When a message is matched, the queue is gone through once, for the packets up to the next one.

A message that is shown to the unexpected handler leaves the call of `omx__process_recv` where it
is, be it the message that came or an early packet of the loop, with the lock of the endpoint
released.  Progression is disabled until the next handler returns, which may be that of a message
that the endpoint sent to itself; from then on packets are processed under the first handler.

The ack that a packet carries, and those that it causes, have no part in this.  What a match
comes to (`Match`), whether the handler is asked first, and whether memory for a copy is there, is
part of the action.  Matching has no part in it either: a medium that is matched is in
`partial_medium_recv_req_q` until its last fragment came.

`arrived` is the data that a packet came with, `id` tells the packets from each other for as long as
a call may point at them, and `handedOn` keeps the packets for which `next_match_recv_seq` was
increased.  The code has none of them.
-/
import Xen2mx.Isend.Window

namespace Xen2mx.Early

open Isend (Seqnum)

/-! ## Packets -/

/-- `OMX__EARLY_PACKET_OFFSET_MAX`. -/
def earlyPacketOffsetMax : ℕ := 0xff

/-- `OMX_EVT_RECV_*`, which each has its `recv_func`. -/
inductive MsgType where
  | tiny
  | small
  | mediumFrag
  | rndv
  | notify
  deriving DecidableEq, Repr

/-- `struct omx_evt_recv_msg`. -/
structure Msg where
  type : MsgType
  seqnum : Seqnum
  /-- `specific.medium_frag.frag_seqnum`; only of a fragment does that byte mean something. -/
  fragSeqnum : ℕ
  /-- The length that the event has, of a fragment that of the fragment. -/
  length : ℕ
  /-- `specific.medium_frag.msg_length`. -/
  msgLength : ℕ
  /-- `specific.tiny.data`. -/
  tinyData : List UInt8
  deriving DecidableEq

/-- `struct omx__early_packet`; `data` is where the copy is. -/
structure Packet where
  id : ℕ
  msg : Msg
  data : Option ℕ
  msgLength : ℕ
  arrived : List UInt8
  deriving DecidableEq

/-! ## The partner -/

/-- A request of `partial_medium_recv_req_q`. -/
structure Partial where
  seqnum : Seqnum
  /-- `frags_received_mask`. -/
  fragsReceived : List ℕ
  accumulatedLength : ℕ
  deriving DecidableEq

/-- `struct omx__partner`, as far as receives go. -/
structure Partner where
  nextMatchRecvSeq : Seqnum
  nextFragRecvSeq : Seqnum
  partialMediumRecvReqQ : List Partial
  earlyRecvQ : List Packet
  /-- What was handed to matching since the last cleanup, the latest first. -/
  handedOn : List Msg

/-- What comes of `omx__try_match_next_recv`. -/
inductive Match where
  /-- `OMX_NO_RESOURCES`. -/
  | failed
  /-- The unexpected handler took care of the message. -/
  | discarded
  | matched
  deriving DecidableEq, Repr

namespace Partner

variable (partner : Partner)

/-- `match_index`, also `new_index` and `current_index`. -/
def matchIndex (seqnum : Seqnum) : ℕ := (seqnum - partner.nextMatchRecvSeq).num

/-- `frag_index`. -/
def fragIndex (seqnum : Seqnum) : ℕ := (seqnum - partner.nextFragRecvSeq).num

/-- `frag_index_max`. -/
def fragIndexMax : ℕ := (partner.nextMatchRecvSeq - partner.nextFragRecvSeq).num

/-- `omx__update_partner_next_frag_recv_seq`. -/
def updateNextFragRecvSeq : Partner :=
  { partner with
    nextFragRecvSeq :=
      match partner.partialMediumRecvReqQ with
      | [] => partner.nextMatchRecvSeq
      | req :: _ => req.seqnum }

end Partner

/-- `omx__process_recv_medium_frag`, for a request of the queue; `none` is complete. -/
def Partial.processRecvMediumFrag (req : Partial) (msg : Msg) : Option Partial :=
  if msg.fragSeqnum ∈ req.fragsReceived then some req
  else
    let req' : Partial :=
      { req with
        fragsReceived := msg.fragSeqnum :: req.fragsReceived
        accumulatedLength := req.accumulatedLength + msg.length }
    if req'.accumulatedLength = msg.msgLength then none else some req'

namespace Partner

/-- The search of `omx__continue_partial_request`; `none` if it finds no request. -/
def continueLoop (partner : Partner) (msg : Msg) : List Partial → Option (List Partial)
  | [] => none
  | req :: reqs =>
      if partner.fragIndex req.seqnum = partner.fragIndex msg.seqnum then
        some ((req.processRecvMediumFrag msg).toList ++ reqs)
      else if partner.fragIndex msg.seqnum < partner.fragIndex req.seqnum then none
      else (continueLoop partner msg reqs).map (req :: ·)

variable (partner : Partner)

/-- `omx__continue_partial_request`. -/
def continuePartialRequest (msg : Msg) : Partner :=
  match partner.continueLoop msg partner.partialMediumRecvReqQ with
  | some reqs => { partner with partialMediumRecvReqQ := reqs }.updateNextFragRecvSeq
  | none => partner

/-- What a message that is matched adds to the queue: a medium with more fragments to come. -/
def matchedPartial (msg : Msg) : Match → List Partial
  | .matched =>
      if msg.type = .mediumFrag then
        (Partial.processRecvMediumFrag ⟨msg.seqnum, [], 0⟩ msg).toList
      else []
  | _ => []

/-- `omx__process_partner_ordered_recv` once the match is done: "we matched this seqnum, we now
expect the next one", whichever it is by then. -/
def matchNext (msg : Msg) (outcome : Match) : Partner :=
  if outcome = .failed then partner
  else
    { partner with
      partialMediumRecvReqQ := partner.partialMediumRecvReqQ ++ matchedPartial msg outcome
      nextMatchRecvSeq := partner.nextMatchRecvSeq.increase
      handedOn := msg :: partner.handedOn }.updateNextFragRecvSeq

/-- `omx__process_partner_ordered_recv`, and `none` if the handler is asked.  A notify needs no
match. -/
def processOrderedRecv (msg : Msg) (outcome : Option Match) : Option Partner :=
  if partner.matchIndex msg.seqnum = 0 then
    if msg.type = .notify then some (partner.matchNext msg .matched)
    else outcome.map (partner.matchNext msg)
  else if msg.type = .mediumFrag ∧ partner.fragIndex msg.seqnum < partner.fragIndexMax then
    some (partner.continuePartialRequest msg)
  else some partner

/-- The scan of `omx__find_previous_early_packet`, from the tail: how many packets stay before the
new one, or `none` for a duplicate. -/
def findPrevious (msg : Msg) : List Packet → Option ℕ
  | [] => some 0
  | current :: rest =>
      if partner.matchIndex current.msg.seqnum < partner.matchIndex msg.seqnum then
        some (rest.length + 1)
      else if partner.matchIndex msg.seqnum < partner.matchIndex current.msg.seqnum then
        findPrevious msg rest
      else if msg.type = .mediumFrag then
        if current.msg.fragSeqnum < msg.fragSeqnum then some (rest.length + 1)
        else if msg.fragSeqnum < current.msg.fragSeqnum then findPrevious msg rest
        else none
      else none

end Partner

/-! ## Calls -/

/-- A call of `omx__process_recv` that waits for the handler, with its locals. -/
inductive Call where
  /-- The message that came is with the handler. -/
  | msg (oldNextMatchRecvSeq : Seqnum) (msg : Msg)
  /-- An early packet is, which the loop took out of the queue; `next` is the one behind it. -/
  | early (oldNextMatchRecvSeq : Seqnum) (earlyIndexMax : ℕ) (early : Packet) (next : Option ℕ)
  deriving DecidableEq

/-- A partner, the memory of the copies and the calls that are not finished. -/
structure State where
  partner : Partner
  heap : ℕ → Option (List UInt8)
  next : ℕ
  calls : List Call
  /-- `OMX_PROGRESSION_DISABLED_IN_HANDLER`. -/
  progressionDisabled : Bool

namespace State

variable (s : State)

/-! ## The memory -/

/-- `omx_malloc_ep`, and the copy. -/
def malloc (data : List UInt8) : State :=
  { s with heap := Function.update s.heap s.next (some data) }

/-- `omx_free_ep` of the data of a packet. -/
def free (early : Packet) : State :=
  { s with heap := early.data.elim s.heap fun p => Function.update s.heap p none }

/-- `list_add_after`, with `prev` packets before. -/
def addAfter (prev : ℕ) (early : Packet) : State :=
  { s with
    next := s.next + 1
    partner :=
      { s.partner with
        earlyRecvQ :=
          s.partner.earlyRecvQ.take prev ++ early :: s.partner.earlyRecvQ.drop prev } }

/-- `omx___dequeue_partner_early_packet`. -/
def dequeue (early : Packet) : State :=
  { s with
    partner :=
      { s.partner with
        earlyRecvQ := s.partner.earlyRecvQ.eraseP fun early' => early'.id = early.id } }

/-- `omx__postpone_early_packet`; `allocated` is false if there is no memory. -/
def postpone (msg : Msg) (data : List UInt8) (allocated : Bool) : State :=
  match s.partner.findPrevious msg s.partner.earlyRecvQ.reverse with
  | none => s
  | some prev =>
      if allocated then
        match msg.type with
        | .small =>
            (s.malloc (data.take msg.length)).addAfter prev
              ⟨s.next, msg, some s.next, msg.length, data⟩
        | .mediumFrag =>
            (s.malloc (data.take msg.length)).addAfter prev
              ⟨s.next, msg, some s.next, msg.msgLength, data⟩
        -- the data of a tiny is in the event; `msg_length` of a notify is not set
        | .tiny | .rndv | .notify => s.addAfter prev ⟨s.next, msg, none, msg.length, data⟩
      else s

/-! ## Processing -/

/-- The handler is called, with the lock released. -/
def callHandler (call : Call) : State :=
  { s with calls := call :: s.calls, progressionDisabled := true }

/-- The loop of `omx__process_recv` over the early packets, from those of the queue that are still
to come, up to the first that goes to the handler. -/
def drain (oldNextMatchRecvSeq : Seqnum) (earlyIndexMax : ℕ) (outcome : Msg → Option Match) :
    List Packet → State → State
  | [], s => s
  | early :: rest, s =>
      if (early.msg.seqnum - oldNextMatchRecvSeq).num ≤ earlyIndexMax then
        match (s.dequeue early).partner.processOrderedRecv early.msg (outcome early.msg) with
        | some partner =>
            drain oldNextMatchRecvSeq earlyIndexMax outcome rest
              ({ s.dequeue early with partner }.free early)
        | none =>
            (s.dequeue early).callHandler
              (.early oldNextMatchRecvSeq earlyIndexMax early (rest.head?.map Packet.id))
      else drain oldNextMatchRecvSeq earlyIndexMax outcome rest s

/-- "process early packets in case they match the new expected seqnum". -/
def processEarly (oldNextMatchRecvSeq : Seqnum) (outcome : Msg → Option Match) : State :=
  if s.partner.nextMatchRecvSeq ≠ oldNextMatchRecvSeq then
    s.drain oldNextMatchRecvSeq (s.partner.nextMatchRecvSeq - oldNextMatchRecvSeq).num outcome
      s.partner.earlyRecvQ
  else s

/-- `omx__process_recv`, once the packet is known to be of this session. -/
def processRecv (msg : Msg) (data : List UInt8) (allocated : Bool)
    (outcome : Msg → Option Match) : State :=
  let old := s.partner.nextMatchRecvSeq
  if s.partner.fragIndex msg.seqnum ≤ s.partner.fragIndexMax then
    match s.partner.processOrderedRecv msg (outcome msg) with
    | some partner => { s with partner }.processEarly old outcome
    | none => s.callHandler (.msg old msg)
  else if s.partner.fragIndex msg.seqnum ≤ s.partner.fragIndexMax + earlyPacketOffsetMax then
    s.postpone msg data allocated
  else s

/-- The early packets from `next` on.  A call whose `next` has left the queue reads freed memory. -/
def earlyFrom (next : Option ℕ) : Option (List Packet) :=
  match next with
  | none => some []
  | some id =>
      if ∃ early ∈ s.partner.earlyRecvQ, early.id = id then
        some (s.partner.earlyRecvQ.dropWhile fun early => early.id ≠ id)
      else none

/-- The rest of a call when its handler has returned, and what the match came to then. -/
def resume (outcome : Msg → Option Match) (ret : Match) : Call → Option State
  | .msg old msg => some ({ s with partner := s.partner.matchNext msg ret }.processEarly old outcome)
  | .early old earlyIndexMax early next =>
      let s' := { s with partner := s.partner.matchNext early.msg ret }.free early
      (s.earlyFrom next).map fun rest => s'.drain old earlyIndexMax outcome rest

/-- `omx__partner_cleanup` and `omx__partner_reset`, which drop all early packets. -/
def partnerCleanup (nextMatch nextFrag : Seqnum) : State :=
  { s.partner.earlyRecvQ.foldl free s with
    partner :=
      { nextMatchRecvSeq := nextMatch
        nextFragRecvSeq := nextFrag
        partialMediumRecvReqQ := []
        earlyRecvQ := []
        handedOn := [] } }

/-- The packet, or the ack that it carries, is of another session. -/
def Stale (msg : Msg) (staleAck : Bool) : Prop :=
  (msg.seqnum ^^^ s.partner.nextFragRecvSeq).sesnum ≠ 0 ∨ staleAck

instance (msg : Msg) (staleAck : Bool) : Decidable (s.Stale msg staleAck) :=
  inferInstanceAs (Decidable (_ ∨ _))

end State

/-! ## The machine -/

inductive Action where
  /-- A packet comes. -/
  | recv (msg : Msg) (data : List UInt8) (staleAck allocated : Bool) (outcome : Msg → Option Match)
  /-- The handler of the call `k` returns. -/
  | handlerReturn (k : ℕ) (ret : Match) (outcome : Msg → Option Match)
  /-- The handler is called for a message of the endpoint itself or of another partner, or
  returns. -/
  | otherHandler (called : Bool)
  | partnerCleanup (nextMatch nextFrag : Seqnum)

/-- One section under the lock of the endpoint. -/
def step (s : State) : Action → Option State
  | .recv msg data staleAck allocated outcome =>
      if s.progressionDisabled then none
      else if s.Stale msg staleAck then some s
      else some (s.processRecv msg data allocated outcome)
  | .handlerReturn k ret outcome =>
      s.calls[k]?.bind
        ({ s with calls := s.calls.eraseIdx k, progressionDisabled := false }.resume outcome ret)
  | .otherHandler called => some { s with progressionDisabled := called }
  | .partnerCleanup nextMatch nextFrag => some (s.partnerCleanup nextMatch nextFrag)

/-- A partner that expects `nextMatch`, and fragments from `nextFrag` on. -/
def init (nextMatch nextFrag : Seqnum) : State :=
  { partner :=
      { nextMatchRecvSeq := nextMatch
        nextFragRecvSeq := nextFrag
        partialMediumRecvReqQ := []
        earlyRecvQ := []
        handedOn := [] }
    heap := fun _ => none
    next := 0
    calls := []
    progressionDisabled := false }

def machine (nextMatch nextFrag : Seqnum) : Machine State Action :=
  { init := init nextMatch nextFrag, step }

end Xen2mx.Early
