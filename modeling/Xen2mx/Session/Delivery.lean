/-
# `Xen2mx.Session.Delivery` — each message is handed to matching once, in the order of the sends

The receiver tells packets by the 14 bits of their number.  A packet that it takes for the expected
message, or for one of the next 255, is of that place, because it cannot be of one a whole turn of
the numbers before or behind:

    behind     its message was in the window of 8191 when it was posted, and the receiver is less
               than 8192 - 255 further than what was sent then
    ahead      its message is in the window of those that are not acknowledged, and no ack is for a
               message that was not handed on

The sender tells acks in the same way: one that it has passed seems to be for more than it has sent.

**Proved here.**

    the expected message is not processed while a message of the partner is with the handler
        ⟹  the messages handed on are the first ones of the sends, in their order
                                                                       (`handedOn_inTurn`)
    a packet that comes again while its message is with the handler is handed on twice
                                                                       (`handedOn_not_inTurn`)
-/
import Xen2mx.Session.Link

namespace Xen2mx.Session

open Isend (Seqnum throttlingOffsetMax)
open Early (Msg earlyPacketOffsetMax)

variable {ι : Type*}

/-! ## Numbers and places -/

/-- A number is of a place. -/
def At (start : Seqnum) (place : ℕ) (x : Seqnum) : Prop := x.num = (start.num + place) % 2 ^ 14

namespace At

variable {start x y : Seqnum} {k n : ℕ}

/-- The offset of two numbers is that of their places, up to turns. -/
theorem num_sub (hx : At start k x) (hy : At start n y) :
    ((x - y).num + n) % 2 ^ 14 = k % 2 ^ 14 := by
  unfold At at hx hy
  rw [Seqnum.num_eq] at hx hy
  rw [Seqnum.num_sub]
  omega

theorem increase (hx : At start k x) : At start (k + 1) x.increase := by
  unfold At at hx ⊢
  have hincrease := x.toNat_increase
  rw [Seqnum.num_eq] at hx ⊢
  omega

/-- The number that is so far behind. -/
theorem of_num_sub (hx : At start k x) (hle : (x - y).num ≤ k) : At start (k - (x - y).num) y := by
  unfold At at hx ⊢
  rw [Seqnum.num_eq] at hx ⊢
  rw [Seqnum.num_sub] at hle ⊢
  omega

end At

/-! ## The invariant -/

namespace State

variable (start : Seqnum) (b : ι) (s : State ι)

/-- A packet of the message in this place was posted. -/
def Posted (place : ℕ) (msg : Msg) : Prop :=
  ∃ packet ∈ s.packets, packet.place = place ∧ packet.msg = msg

/-- The messages handed on are the first ones of the sends, each once and in their order. -/
structure Delivered : Prop where
  sent : s.handed ≤ s.sent b
  inTurn : Early.InTurn s.Posted s.receiver.partner.handedOn

/-- A packet has the number of its place, which was in the window when it was posted. -/
structure Good (packet : Flying) : Prop where
  number : At start packet.place packet.msg.seqnum
  before : packet.place < packet.sentAt
  window : packet.sentAt ≤ packet.place + throttlingOffsetMax
  sent : packet.sentAt ≤ s.sent b

/-- The sender: its window, its queue and its numbers. -/
structure SenderInv : Prop where
  throttling : s.sender.Throttling
  ordered : (s.sender.partner b).Ordered
  consecutive : (s.sender.partner b).Consecutive start
  counted : (s.sender.partner b).Counted (s.acked b)
  acked : s.acked b ≤ s.handed

/-- The receiver: its queue, its places and its numbers. -/
structure ReceiverInv : Prop where
  inOrder : s.receiver.InOrder
  placed : s.receiver.Placed s.Posted
  behind : s.receiver.partner.BehindStart
  expected : At start s.handed s.receiver.partner.nextMatchRecvSeq

structure Inv : Prop where
  sender : s.SenderInv start b
  receiver : s.ReceiverInv start
  packets : ∀ packet ∈ s.packets, s.Good start b packet
  acks : ∀ ack ∈ s.acks, ack.place ≤ s.handed ∧ At start ack.place ack.seqnum

variable {start b s}

namespace SenderInv

/-- The window is from what is acknowledged to what is sent. -/
theorem sent_eq (h : s.SenderInv start b) :
    s.sent b = s.acked b + (s.sender.partner b).missingAcks := h.counted

theorem sent_le (h : s.SenderInv start b) : s.sent b ≤ s.acked b + throttlingOffsetMax := by
  have hwindow := (h.throttling.within b).window
  have hsent := h.sent_eq
  omega

theorem next (h : s.SenderInv start b) :
    At start (s.acked b) (s.sender.partner b).nextAckedSendSeq := by
  have hsent := h.sent_eq
  have hnext : At start (s.sent b) (s.sender.partner b).nextSendSeq := h.consecutive.next
  have hacked := hnext.of_num_sub (y := (s.sender.partner b).nextAckedSendSeq)
    (show (s.sender.partner b).missingAcks ≤ _ by omega)
  change At start (s.sent b - (s.sender.partner b).missingAcks) _ at hacked
  rwa [hsent, Nat.add_sub_cancel_right] at hacked

variable {s' : State ι}

section
variable [DecidableEq ι]

/-- So many are acknowledged after a step. -/
theorem step (h : s.SenderInv start b) {a : Isend.SendAction ι}
    (hstep : Isend.sendStep s.sender a = some s'.sender) {k : ℕ}
    (hcounted : (s'.sender.partner b).Counted k) (hle : k ≤ s'.handed) : s'.SenderInv start b := by
  have hacked : s'.acked b = k := by
    unfold Isend.Partner.Counted at hcounted
    show (s'.sender.partner b).submitted.length - _ = k
    omega
  exact ⟨h.throttling.sendStep hstep, h.ordered.sendStep hstep,
    (Isend.Partner.Consecutive.kept start).sendStep h.consecutive hstep, hacked.symm ▸ hcounted,
    hacked.trans_le hle⟩

/-- What the sender does by itself leaves that as it is. -/
theorem send (h : s.SenderInv start b) {a : Isend.SendAction ι} (hack : ¬ IsAck b a)
    (hstep : Isend.sendStep s.sender a = some s'.sender) (hhanded : s'.handed = s.handed) :
    s'.SenderInv start b := by
  have hnot : ∀ ackBefore, a ≠ .handleAck b ackBefore := by
    rintro ackBefore rfl
    exact hack rfl
  exact h.step hstep ((Isend.Partner.Counted.kept _).sendStep hnot h.counted hstep)
    (h.acked.trans_eq hhanded.symm)

/-- An ack that comes is for what was handed on, or seems to be for more than was sent. -/
theorem recvAck (h : s.SenderInv start b) {ack : Ack} (hle : ack.place ≤ s.handed)
    (hnumber : At start ack.place ack.seqnum) (hsent : s.handed ≤ s.sent b)
    (hdelay : s.acked b < ack.place + delayMax)
    (hstep : Isend.sendStep s.sender (.handleAck b ack.seqnum) = some s'.sender)
    (hhanded : s'.handed = s.handed) : s'.SenderInv start b := by
  have hpartner : s'.sender.partner b = (s.sender.partner b).handleAck ack.seqnum := by
    have hsender : s.sender.handleAck b ack.seqnum = s'.sender := Option.some.inj hstep
    rw [← hsender, Isend.Endpoint.partner_handleAck, Isend.Endpoint.setPartner_self]
  have hnew := hnumber.num_sub h.next
  change ((s.sender.partner b).newAcks ack.seqnum + _) % _ = _ at hnew
  have hwide := h.sent_le
  have hcount := h.sent_eq
  have hdelayMax : delayMax = 7937 := rfl
  have hwindowMax : throttlingOffsetMax = 8191 := rfl
  by_cases hwindow : (s.sender.partner b).InWindow ack.seqnum
  · have hcounted := h.counted.handleAck h.ordered hwindow
    have hplace : s.acked b + (s.sender.partner b).newAcks ack.seqnum = ack.place := by
      have hmissing := hwindow.2
      omega
    rw [← hpartner, hplace] at hcounted
    exact h.step hstep hcounted (hle.trans_eq hhanded.symm)
  · rw [Isend.Partner.handleAck_of_not hwindow] at hpartner
    exact h.step hstep (hpartner ▸ h.counted) (h.acked.trans_eq hhanded.symm)

end

end SenderInv

namespace ReceiverInv

/-- The number that the receiver expects, and how many it has handed on. -/
theorem expected_kept (start : Seqnum) : Early.State.KeptByPackets fun partner =>
    At start partner.handedOn.length partner.nextMatchRecvSeq where
  matched := by
    intro partner msg ret _ h
    rw [Early.Partner.handedOn_matchNext, (partner.nextMatchRecvSeq_matchNext msg ret).1]
    split
    · exact h
    · exact h.increase
  continued := by
    intro partner msg h
    unfold Early.Partner.continuePartialRequest
    split
    · exact h
    · exact h
  queue := fun _ _ h => h

theorem handed_kept (n : ℕ) : Early.State.KeptByPackets fun partner =>
    n ≤ partner.handedOn.length where
  matched := by
    intro partner msg ret _ h
    rw [Early.Partner.handedOn_matchNext]
    split
    · exact h
    · exact h.trans (Nat.le_succ _)
  continued := by
    intro partner msg h
    unfold Early.Partner.continuePartialRequest
    split
    · exact h
    · exact h
  queue := fun _ _ h => h

variable {s' : State ι}

/-- A step of the receiver, and what it hands on. -/
theorem step (h : s.ReceiverInv start) {a : Early.Action} (hok : s.receiver.Alone a)
    (hsession : ∀ nextMatch nextFrag, a ≠ .partnerCleanup nextMatch nextFrag)
    (hfits : ∀ msg data staleAck allocated outcome,
      a = .recv msg data staleAck allocated outcome → s.receiver.Fits s.Posted msg)
    (hstep : Early.step s.receiver a = some s'.receiver) (hpackets : s'.packets = s.packets) :
    s'.ReceiverInv start ∧ s.handed ≤ s'.handed := by
  have hposted : s'.Posted = s.Posted := by
    unfold Posted
    rw [hpackets]
  refine ⟨⟨h.inOrder.step hok hstep, ?_, ?_, ?_⟩, ?_⟩
  · rw [hposted]
    exact h.placed.step h.inOrder hok hfits hstep
  · exact Early.Partner.behindStart_kept.step h.inOrder hsession h.behind hstep
  · exact (expected_kept start).step h.inOrder hsession h.expected hstep
  · exact (handed_kept s.handed).step h.inOrder hsession le_rfl hstep

/-- The ack that is needed is for messages that were handed on. -/
theorem neededAck (h : s.ReceiverInv start) :
    s.neededAck.place ≤ s.handed ∧ At start s.neededAck.place s.neededAck.seqnum :=
  ⟨Nat.sub_le _ _, h.expected.of_num_sub h.behind.frag⟩

end ReceiverInv

namespace Inv

/-- What was handed on was sent. -/
theorem delivered (h : s.Inv start b) : s.Delivered b := by
  refine ⟨?_, h.receiver.placed.handed⟩
  rcases Nat.eq_zero_or_pos s.handed with hzero | hpos
  · exact hzero.trans_le (Nat.zero_le _)
  · have hlast : s.handed - 1 < s.receiver.partner.handedOn.reverse.length := by
      rw [List.length_reverse]
      exact Nat.sub_lt hpos Nat.one_pos
    obtain ⟨packet, hpacket, hplace, -⟩ :=
      h.receiver.placed.handed _ _ (List.getElem?_eq_getElem hlast)
    have hgood := h.packets packet hpacket
    have hbefore := hgood.before
    have hsent := hgood.sent
    omega

/-- A packet that the receiver takes for one of the next messages is of that place. -/
theorem fits (h : s.Inv start b) {packet : Flying} (hpacket : packet ∈ s.packets)
    (hdelay : s.handed < packet.sentAt + delayMax) : s.receiver.Fits s.Posted packet.msg := by
  intro hnear
  have hgood := h.packets packet hpacket
  have hnumber := hgood.number.num_sub h.receiver.expected
  change (s.receiver.partner.matchIndex packet.msg.seqnum + _) % _ = _ at hnumber
  have hbefore := hgood.before
  have hwindow := hgood.window
  have hsent := hgood.sent
  have hwide := h.sender.sent_le
  have hacked := h.sender.acked
  have hdelayMax : delayMax = 7937 := rfl
  have hwindowMax : throttlingOffsetMax = 8191 := rfl
  have hearlyMax : earlyPacketOffsetMax = 255 := rfl
  refine ⟨packet, hpacket, ?_, rfl⟩
  show packet.place = s.handed + s.receiver.partner.matchIndex packet.msg.seqnum
  omega

variable {s' : State ι}

/-- The network has more than before, and the rest is as it was. -/
theorem network (h : s.Inv start b) (hsender : s'.sender = s.sender)
    (hreceiver : s'.receiver = s.receiver)
    (hpackets : ∀ packet ∈ s'.packets, packet ∈ s.packets ∨ s.Good start b packet)
    (hkept : ∀ packet ∈ s.packets, packet ∈ s'.packets)
    (hacks : ∀ ack ∈ s'.acks, ack ∈ s.acks ∨
      ack.place ≤ s.handed ∧ At start ack.place ack.seqnum) : s'.Inv start b := by
  obtain ⟨sender, receiver, packets, acks⟩ := s
  obtain ⟨sender', receiver', packets', acks'⟩ := s'
  obtain rfl : sender' = sender := hsender
  obtain rfl : receiver' = receiver := hreceiver
  refine ⟨⟨h.sender.throttling, h.sender.ordered, h.sender.consecutive, h.sender.counted,
    h.sender.acked⟩, ⟨h.receiver.inOrder, h.receiver.placed.mono ?_, h.receiver.behind,
      h.receiver.expected⟩, fun packet hpacket => ?_, fun ack hack => ?_⟩
  · rintro k msg ⟨packet, hpacket, hplace⟩
    exact ⟨packet, hkept packet hpacket, hplace⟩
  · have hgood := (hpackets packet hpacket).elim (h.packets packet) id
    exact ⟨hgood.number, hgood.before, hgood.window, hgood.sent⟩
  · exact (hacks ack hack).elim (h.acks ack) id

theorem receiverStep (h : s.Inv start b) {a : Early.Action} (hok : s.receiver.Alone a)
    (hsession : ∀ nextMatch nextFrag, a ≠ .partnerCleanup nextMatch nextFrag)
    (hfits : ∀ msg data staleAck allocated outcome,
      a = .recv msg data staleAck allocated outcome → s.receiver.Fits s.Posted msg)
    (hstep : s.receiverStep a = some s') : s'.Inv start b := by
  obtain ⟨receiver, hreceiver, rfl⟩ := Option.map_eq_some_iff.1 hstep
  obtain ⟨hreceiver, hle⟩ : ReceiverInv start { s with receiver } ∧
      s.handed ≤ ({ s with receiver } : State ι).handed :=
    h.receiver.step hok hsession hfits hreceiver rfl
  refine ⟨⟨h.sender.throttling, h.sender.ordered, h.sender.consecutive, h.sender.counted,
    h.sender.acked.trans hle⟩, hreceiver, fun packet hpacket => ?_, fun ack hack => ?_⟩
  · have hgood := h.packets packet hpacket
    exact ⟨hgood.number, hgood.before, hgood.window, hgood.sent⟩
  · exact ⟨(h.acks ack hack).1.trans hle, (h.acks ack hack).2⟩

variable [DecidableEq ι]

theorem senderStep (h : s.Inv start b) {a : Isend.SendAction ι}
    (hsender : ∀ sender, Isend.sendStep s.sender a = some sender →
      SenderInv start b { s with sender }) (hstep : s.senderStep a = some s') :
    s'.Inv start b := by
  obtain ⟨sender, hsend, rfl⟩ := Option.map_eq_some_iff.1 hstep
  have hgrows : s.sent b ≤ (sender.partner b).submitted.length :=
    (Isend.Partner.submitted_kept _).sendStep le_rfl hsend
  refine ⟨hsender sender hsend, ⟨h.receiver.inOrder, h.receiver.placed, h.receiver.behind,
    h.receiver.expected⟩, fun packet hpacket => ?_, h.acks⟩
  have hgood := h.packets packet hpacket
  exact ⟨hgood.number, hgood.before, hgood.window, hgood.sent.trans hgrows⟩

theorem step (h : s.Inv start b) {a : Action ι} (hok : s.Alone a)
    (hstep : Session.step b s a = some s') : s'.Inv start b := by
  cases a with
  | send a =>
      obtain ⟨hack, hstep⟩ := Option.ite_none_left_eq_some.1 hstep
      exact h.senderStep (fun sender hsender => h.sender.send hack hsender rfl) hstep
  | post place msg data =>
      obtain ⟨req, hreq, hstep⟩ := Option.bind_eq_some_iff.1 hstep
      obtain ⟨⟨hunacked, hnumber, -⟩, hstep⟩ := Option.ite_none_right_eq_some.1 hstep
      cases hstep
      have hlt : place < s.sent b := by
        obtain ⟨hlt, -⟩ := List.getElem?_eq_some_iff.1 hreq
        rwa [List.length_reverse] at hlt
      have hgood : s.Good start b ⟨place, s.sent b, msg, data⟩ := by
        refine ⟨?_, hlt, h.sender.sent_le.trans (Nat.add_le_add_right hunacked _), le_rfl⟩
        show At start place msg.seqnum
        rw [hnumber]
        exact h.sender.consecutive.seqnum place req hreq
      refine h.network rfl rfl (fun packet hpacket => ?_)
        (fun packet hpacket => List.mem_cons_of_mem _ hpacket) fun _ hack => .inl hack
      rcases List.mem_cons.1 hpacket with rfl | hpacket
      · exact .inr hgood
      · exact .inl hpacket
  | recv packet staleAck allocated outcome =>
      obtain ⟨⟨hpacket, hdelay⟩, hstep⟩ := Option.ite_none_right_eq_some.1 hstep
      refine h.receiverStep (a := .recv packet.msg packet.data staleAck allocated outcome) hok
        (by rintro _ _ ⟨⟩) (fun msg data _ _ _ heq => ?_) hstep
      cases heq
      exact h.fits hpacket hdelay
  | handlerReturn k ret outcome =>
      exact h.receiverStep (a := .handlerReturn k ret outcome) trivial (by rintro _ _ ⟨⟩)
        (by rintro _ _ _ _ _ ⟨⟩) hstep
  | otherHandler called =>
      exact h.receiverStep (a := .otherHandler called) trivial (by rintro _ _ ⟨⟩)
        (by rintro _ _ _ _ _ ⟨⟩) hstep
  | sendAck =>
      cases hstep
      refine h.network rfl rfl (fun _ hpacket => .inl hpacket) (fun _ hpacket => hpacket)
        fun ack hack => ?_
      rcases List.mem_cons.1 hack with rfl | hack
      · exact .inr h.receiver.neededAck
      · exact .inl hack
  | recvAck ack =>
      obtain ⟨⟨hack, hdelay⟩, hstep⟩ := Option.ite_none_right_eq_some.1 hstep
      obtain ⟨hle, hnumber⟩ := h.acks ack hack
      exact h.senderStep (fun sender hsender =>
        h.sender.recvAck hle hnumber h.delivered.sent hdelay hsender rfl) hstep

end Inv

end State

theorem inv_init [DecidableEq ι] (start : ι → Seqnum) (b : ι) :
    (machine start b).init.Inv (start b) b := by
  have hlined := Isend.Endpoint.Lined.connected start
  have hzero : ((start b) - (start b)).num = 0 := Seqnum.num_sub_self _
  have hacked : (machine start b).init.acked b = 0 := Nat.zero_sub _
  refine ⟨⟨hlined.throttling, ⟨.nil, nofun⟩, hlined.consecutive b, ?_, hacked.le⟩,
    ⟨Early.State.inOrder_init .., ⟨.nil, nofun, nofun⟩, ⟨nofun, hzero.le⟩, ?_⟩, nofun, nofun⟩
  · show 0 = _ + (start b - start b).num
    rw [hacked, hzero]
  · exact (Nat.mod_eq_of_lt (Seqnum.num_lt _)).symm

/-- In every run in which no packet of the expected number is processed while a message of the
partner is with the handler, whatever the network drops, repeats and reorders: the messages handed
to matching are the first ones of the sends, each once and in their order. -/
theorem handedOn_inTurn [DecidableEq ι] (start : ι → Seqnum) (b : ι) {s : State ι}
    (h : (machine start b).Reaches State.Alone s) : s.Delivered b := by
  have hinv : s.Inv (start b) b :=
    h.invariant (inv_init start b) fun _ _ _ hinv hok hstep => hinv.step hok hstep
  exact hinv.delivered

/-! ## Runs -/

/-- A tiny to the partner, and its packet, which is the message of this place. -/
def sendTiny (place : ℕ) (seqnum : Seqnum) : List (Action Unit) :=
  [.send (.isend () .sendTiny true), .post place (Early.tiny seqnum) []]

/-- Its packet comes. -/
def recvTiny (place sentAt : ℕ) (seqnum : Seqnum) (outcome : Option Early.Match) : Action Unit :=
  .recv ⟨place, sentAt, Early.tiny seqnum, []⟩ false true fun _ => outcome

/-- The second of two messages comes first, the first one twice, and the ack for both. -/
def reordered : List (Action Unit) :=
  sendTiny 0 0x3fff ++ sendTiny 1 0 ++
    [recvTiny 1 2 0 (some .matched), recvTiny 0 1 0x3fff (some .matched),
      recvTiny 0 1 0x3fff (some .matched), .sendAck, .recvAck ⟨2, 1⟩]

theorem handedOn_inTurn_reordered :
    ∃ s, (machine (fun _ => 0x3fff) ()).exec (machine (fun _ => 0x3fff) ()).init reordered = some s ∧
      s.handed = 2 ∧ s.acked () = 2 ∧ s.Delivered () := by
  obtain ⟨s, hs, hhanded, hacked⟩ : ∃ s,
      (machine (fun _ => 0x3fff) ()).exec (machine (fun _ => 0x3fff) ()).init reordered = some s ∧
        s.handed = 2 ∧ s.acked () = 2 := ⟨_, rfl, by decide, by decide⟩
  exact ⟨s, hs, hhanded, hacked, handedOn_inTurn _ () ⟨reordered, by decide, hs⟩⟩

/-- A message goes to the handler.  Under it the receiver sends to itself, and that message's
handler returns.  The packet comes again, and then the first handler returns. -/
def repeated : List (Action Unit) :=
  sendTiny 0 1 ++ [recvTiny 0 1 1 none, .otherHandler true, .otherHandler false,
    recvTiny 0 1 1 (some .matched), .handlerReturn 0 .matched fun _ => none]

/-- Two messages are handed on then, of one that was sent. -/
theorem handedOn_not_inTurn :
    ∃ s, (machine (fun _ => 1) ()).exec (machine (fun _ => 1) ()).init repeated = some s ∧
      s.sent () = 1 ∧ s.handed = 2 ∧ ¬ s.Delivered () := by
  refine ⟨_, rfl, by decide, by decide, fun h => ?_⟩
  exact absurd h.sent (by decide)

end Xen2mx.Session
