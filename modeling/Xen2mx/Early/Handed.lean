/-
# `Xen2mx.Early.Handed` — messages are handed to matching in the order of their places

The messages of a session have places, from 0 on in the order of the sends.  So many as were
handed on are behind `next_match_recv_seq`, and a packet of the queue has its place as far ahead as
its offset from there.

    packet                  its place
    of the queue            so many as were handed on, and its offset
    with the handler        so many as were handed on
    handed on               where it stands among them

`IsPacket k msg` says that a packet is of the message in the place `k`.  If that is so for each
packet that comes, as far as its offset tells, it stays so in the queue and beyond.

**Proved here.**

    what comes has the place that its offset says, and the expected message is not processed
        while a message of the partner is with the handler
            ⟹  the messages handed on are those of the first places, in their order
                                                                       (`Placed.step`)
    no partial medium is further behind than the first message         (`behindStart_kept`)
-/
import Xen2mx.Early.Drain

namespace Xen2mx.Early

open Isend (Seqnum)

/-! ## What is handed on -/

namespace Partner

variable {partner partner' : Partner} {msg : Msg}

theorem handedOn_matchNext (partner : Partner) (msg : Msg) (ret : Match) :
    (partner.matchNext msg ret).handedOn =
      if ret = .failed then partner.handedOn else msg :: partner.handedOn := by
  unfold matchNext
  split
  · rfl
  · rfl

theorem handedOn_processOrderedRecv {outcome : Option Match}
    (h : partner.processOrderedRecv msg outcome = some partner') :
    partner'.handedOn =
      if partner.Advances msg outcome then msg :: partner.handedOn else partner.handedOn := by
  unfold processOrderedRecv at h
  split_ifs at h with hindex hnotify hfragment
  · obtain rfl := Option.some.inj h
    rw [if_pos ⟨hindex, .inl hnotify⟩]
    exact partner.handedOn_matchNext msg .matched
  · obtain ⟨ret, rfl, rfl⟩ := Option.map_eq_some_iff.1 h
    rw [handedOn_matchNext]
    by_cases hfailed : ret = .failed
    · rw [if_pos hfailed, if_neg]
      rintro ⟨-, htype | hne⟩
      · exact hnotify htype
      · exact hne (congrArg some hfailed)
    · rw [if_neg hfailed, if_pos ⟨hindex, .inr fun hsome => hfailed (Option.some.inj hsome)⟩]
  · obtain rfl := Option.some.inj h
    rw [if_neg fun hadvances => hindex hadvances.1]
    unfold continuePartialRequest
    split
    · rfl
    · rfl
  · obtain rfl := Option.some.inj h
    rw [if_neg fun hadvances => hindex hadvances.1]

end Partner

/-- Each message handed on, the latest first, is of its place. -/
def InTurn (IsPacket : ℕ → Msg → Prop) (handedOn : List Msg) : Prop :=
  ∀ k msg, handedOn.reverse[k]? = some msg → IsPacket k msg

variable {IsPacket : ℕ → Msg → Prop} {handedOn : List Msg}

theorem InTurn.nil : InTurn IsPacket [] := nofun

theorem InTurn.cons (h : InTurn IsPacket handedOn) {msg : Msg}
    (hmsg : IsPacket handedOn.length msg) : InTurn IsPacket (msg :: handedOn) := by
  intro k msg' hk
  rw [List.reverse_cons] at hk
  rcases Nat.lt_or_ge k handedOn.reverse.length with hlt | hge
  · rw [List.getElem?_append_left hlt] at hk
    exact h k msg' hk
  · rw [List.getElem?_append_right hge, List.getElem?_singleton] at hk
    obtain ⟨hzero, hsome⟩ := Option.ite_none_right_eq_some.1 hk
    obtain rfl := Option.some.inj hsome
    obtain rfl : k = handedOn.length := by
      rw [List.length_reverse] at hzero hge
      omega
    exact hmsg

/-! ## Places -/

/-- What the handler of a call looks at. -/
def Call.looksAt : Call → Msg
  | .msg _ message => message
  | .early _ _ packet _ => packet.msg

/-- How many messages the call has handed on. -/
def Call.handed : Call → ℕ
  | .msg .. => 0
  | .early .. => 1

namespace State

/-- The place that the offset of a packet says. -/
def place (s : State) (msg : Msg) : ℕ :=
  s.partner.handedOn.length + s.partner.matchIndex msg.seqnum

/-- The offset of a packet within reach of the queue says its place. -/
def Fits (IsPacket : ℕ → Msg → Prop) (s : State) (msg : Msg) : Prop :=
  s.partner.matchIndex msg.seqnum ≤ earlyPacketOffsetMax → IsPacket (s.place msg) msg

/-- What was handed on, what the handler looks at and what is in the queue is of its place. -/
structure Placed (IsPacket : ℕ → Msg → Prop) (s : State) : Prop where
  handed : InTurn IsPacket s.partner.handedOn
  queue : ∀ early ∈ s.partner.earlyRecvQ, IsPacket (s.place early.msg) early.msg
  calls : ∀ call ∈ s.calls,
    IsPacket s.partner.handedOn.length call.looksAt ∧ call.handed ≤ s.partner.handedOn.length

/-- The same in the loop, with the places counted from `old`, which was expected when `n` messages
were handed on. -/
structure PlacedFrom (IsPacket : ℕ → Msg → Prop) (n : ℕ) (old : Seqnum) (s : State) : Prop where
  handed : InTurn IsPacket s.partner.handedOn
  length : s.partner.handedOn.length = n + (s.partner.nextMatchRecvSeq - old).num
  queue : ∀ early ∈ s.partner.earlyRecvQ, IsPacket (n + (early.msg.seqnum - old).num) early.msg

namespace PlacedFrom

variable {n : ℕ} {old : Seqnum} {early : Packet} {rest : List Packet} {s : State}

/-- The expected packet, which the loop takes out of the queue, is of the next place. -/
theorem expected (h : PlacedFrom IsPacket n old s) (hloop : Looping old (early :: rest) s)
    (htaken : (early.msg.seqnum - old).num ≤ 1)
    (hindex : s.partner.matchIndex early.msg.seqnum = 0) :
    IsPacket s.partner.handedOn.length early.msg ∧ s.partner.handedOn.length = n + 1 := by
  obtain ⟨hone, hearly⟩ := (hloop.expects_iff htaken).1 hindex
  obtain ⟨passed, -, hqueue, -⟩ := hloop.dequeue
  have hlength : s.partner.handedOn.length = n + 1 := h.length.trans (congrArg (n + ·) hone)
  have hpacket := h.queue early (hqueue ▸ List.mem_append_right _ (List.mem_cons_self ..))
  rw [hearly] at hpacket
  exact ⟨hlength ▸ hpacket, hlength⟩

/-- The packets that stay are of their places. -/
theorem staying (h : PlacedFrom IsPacket n old s) (hloop : Looping old (early :: rest) s) :
    ∀ early' ∈ (s.dequeue early).partner.earlyRecvQ,
      IsPacket (n + (early'.msg.seqnum - old).num) early'.msg := by
  obtain ⟨passed, hqueue, hbefore, -⟩ := hloop.dequeue
  intro early' hearly'
  refine h.queue early' ?_
  rw [hqueue] at hearly'
  rw [hbefore]
  exact ((List.sublist_cons_self ..).append_left _).subset hearly'

theorem take (h : PlacedFrom IsPacket n old s) (hloop : Looping old (early :: rest) s)
    (htaken : (early.msg.seqnum - old).num ≤ 1) {outcome : Option Match} {partner : Partner}
    (hpartner : (s.dequeue early).partner.processOrderedRecv early.msg outcome = some partner) :
    PlacedFrom IsPacket n old ({ s.dequeue early with partner }.free early) := by
  have hhanded := Partner.handedOn_processOrderedRecv hpartner
  obtain ⟨hnext, hsame⟩ := Partner.nextMatchRecvSeq_processOrderedRecv hpartner
  refine ⟨?_, ?_, fun early' hearly' => h.staying hloop early' (hsame ▸ hearly')⟩
  · show InTurn IsPacket partner.handedOn
    rw [hhanded]
    split
    · rename_i hadvances
      exact h.handed.cons (h.expected hloop htaken hadvances.1).1
    · exact h.handed
  · show partner.handedOn.length = n + (partner.nextMatchRecvSeq - old).num
    rw [hhanded, hnext]
    split
    · rename_i hadvances
      have hone := ((hloop.expects_iff htaken).1 hadvances.1).1
      have hlength := (h.expected hloop htaken hadvances.1).2
      show s.partner.handedOn.length + 1 = n + (s.partner.nextMatchRecvSeq.increase - old).num
      rw [Seqnum.num_increase_sub (by omega), hone, hlength]
    · exact h.length

/-- Seen from the message that is expected, where the loop has passed what is behind it. -/
theorem placed_queue (h : PlacedFrom IsPacket n old s) {s' : State}
    (hnext : s'.partner.nextMatchRecvSeq = s.partner.nextMatchRecvSeq)
    (hhanded : s'.partner.handedOn = s.partner.handedOn)
    (hqueue : ∀ early ∈ s'.partner.earlyRecvQ,
      IsPacket (n + (early.msg.seqnum - old).num) early.msg)
    (hahead : ∀ early ∈ s'.partner.earlyRecvQ,
      (s.partner.nextMatchRecvSeq - old).num ≤ (early.msg.seqnum - old).num) :
    ∀ early ∈ s'.partner.earlyRecvQ, IsPacket (s'.place early.msg) early.msg := by
  intro early hearly
  have hsub := Seqnum.num_sub_sub early.msg.seqnum s.partner.nextMatchRecvSeq old
  have hle := hahead early hearly
  rw [if_pos hle] at hsub
  have hplace : s'.place early.msg = n + (early.msg.seqnum - old).num := by
    unfold place Partner.matchIndex
    rw [hnext, hhanded, h.length]
    omega
  rw [hplace]
  exact hqueue early hearly

theorem callHandler (h : PlacedFrom IsPacket n old s) (hloop : Looping old (early :: rest) s)
    (htaken : (early.msg.seqnum - old).num ≤ 1) {outcome : Option Match} {next : Option ℕ}
    (hnone : (s.dequeue early).partner.processOrderedRecv early.msg outcome = none) :
    Placed IsPacket ((s.dequeue early).callHandler (.early old 1 early next)) := by
  have hindex := (Partner.processOrderedRecv_eq_none.1 hnone).1
  obtain ⟨hone, hearly⟩ := (hloop.expects_iff htaken).1 hindex
  refine ⟨h.handed, h.placed_queue rfl rfl (h.staying hloop) fun early' hearly' => ?_, ?_⟩
  · obtain ⟨passed, hqueue, hbefore, hpassed⟩ := hloop.dequeue
    rw [hone]
    change early' ∈ (s.dequeue early).partner.earlyRecvQ at hearly'
    rw [hqueue] at hearly'
    rcases List.mem_append.1 hearly' with hmem | hmem
    · exact Nat.le_of_succ_le (hpassed early' hmem)
    · have hsorted := hloop.sorted.sorted
      rw [hbefore] at hsorted
      have hlt := (List.pairwise_cons.1 (List.pairwise_append.1 hsorted).2.1).1 early' hmem
      exact hearly.symm.le.trans hlt.le
  · intro call hcall
    rcases List.mem_cons.1 hcall with rfl | hcall
    · obtain ⟨hpacket, hlength⟩ := h.expected hloop htaken hindex
      exact ⟨hpacket, hlength.symm ▸ Nat.le_add_left 1 n⟩
    · exact absurd (hloop.alone ▸ hcall) (List.not_mem_nil)

theorem done (h : PlacedFrom IsPacket n old s) (hloop : Looping old [] s) : Placed IsPacket s := by
  refine ⟨h.handed, h.placed_queue rfl rfl h.queue fun early hearly => ?_, ?_⟩
  · obtain ⟨passed, hqueue, hpassed⟩ := hloop.passed
    rw [List.append_nil] at hqueue
    have hfar := hpassed early (hqueue ▸ hearly)
    rcases hloop.moved with hone | htwo <;> omega
  · rw [hloop.alone]
    nofun

theorem drain (h : PlacedFrom IsPacket n old s) (hloop : Looping old rest s)
    (outcome : Msg → Option Match) : Placed IsPacket (s.drain old 1 outcome rest) := by
  induction rest generalizing s with
  | nil => exact h.done hloop
  | cons early rest ih =>
      unfold State.drain
      split
      · rename_i htaken
        split
        · rename_i partner hpartner
          exact ih (h.take hloop htaken hpartner) (hloop.take htaken hpartner)
        · rename_i hnone
          exact h.callHandler hloop htaken hnone
      · rename_i hahead
        exact ih h (hloop.pass hahead)

end PlacedFrom

/-! ## Steps -/

namespace Placed

variable {s s' : State}

theorem congr (h : s.Placed IsPacket) (hpartner : s'.partner = s.partner)
    (hcalls : ∀ call ∈ s'.calls, call ∈ s.calls) : s'.Placed IsPacket := by
  refine ⟨hpartner ▸ h.handed, fun early hearly => ?_, fun call hcall => ?_⟩
  · unfold place
    rw [hpartner] at hearly ⊢
    exact h.queue early hearly
  · rw [hpartner]
    exact h.calls call (hcalls call hcall)

theorem mono (h : s.Placed IsPacket) {IsPacket' : ℕ → Msg → Prop}
    (himp : ∀ k msg, IsPacket k msg → IsPacket' k msg) : s.Placed IsPacket' :=
  ⟨fun k msg hk => himp k msg (h.handed k msg hk),
    fun early hearly => himp _ _ (h.queue early hearly),
    fun call hcall => (h.calls call hcall).imp_left (himp _ _)⟩

/-- A message is matched, or not, and the queue gone through. -/
theorem processEarly (h : s.Placed IsPacket) (hinOrder : s.InOrder) {partner : Partner} (msg : Msg)
    (hqueue : partner.earlyRecvQ = s.partner.earlyRecvQ)
    (hnext : partner.nextMatchRecvSeq = s.partner.nextMatchRecvSeq ∧
        partner.handedOn = s.partner.handedOn ∨
      partner.nextMatchRecvSeq = s.partner.nextMatchRecvSeq.increase ∧
        partner.handedOn = msg :: s.partner.handedOn ∧ s.calls = [] ∧
          IsPacket s.partner.handedOn.length msg)
    (outcome : Msg → Option Match) :
    ({ s with partner }.processEarly s.partner.nextMatchRecvSeq outcome).Placed IsPacket := by
  rcases hnext with ⟨hsame, hhanded⟩ | ⟨hnext, hhanded, halone, hmsg⟩
  · unfold State.processEarly
    rw [if_neg (not_not.2 hsame)]
    refine ⟨hhanded ▸ h.handed, fun early hearly => ?_, fun call hcall => ?_⟩
    · change early ∈ partner.earlyRecvQ at hearly
      show IsPacket (partner.handedOn.length + (_ - partner.nextMatchRecvSeq).num) _
      rw [hhanded, hsame]
      exact h.queue early (hqueue ▸ hearly)
    · show IsPacket partner.handedOn.length _ ∧ _ ≤ partner.handedOn.length
      rw [hhanded]
      exact h.calls call hcall
  · rw [InOrder.processEarly_eq hqueue hnext]
    refine PlacedFrom.drain (n := s.partner.handedOn.length) ⟨?_, ?_, ?_⟩
      (hinOrder.looping_start hqueue hnext halone) outcome
    · show InTurn IsPacket partner.handedOn
      rw [hhanded]
      exact h.handed.cons hmsg
    · show partner.handedOn.length = _ + (partner.nextMatchRecvSeq - _).num
      rw [hhanded, hnext, Seqnum.num_increase_sub_self]
      rfl
    · intro early hearly
      exact h.queue early (hqueue ▸ hearly)

theorem addAfter (h : s.Placed IsPacket) {early : Packet} (prev : ℕ)
    (hearly : IsPacket (s.place early.msg) early.msg) (hpartner : s'.partner = s.partner)
    (hcalls : s'.calls = s.calls) : (s'.addAfter prev early).Placed IsPacket := by
  refine ⟨?_, fun early' hearly' => ?_, fun call hcall => ?_⟩
  · show InTurn IsPacket s'.partner.handedOn
    rw [hpartner]
    exact h.handed
  · change early' ∈ s'.partner.earlyRecvQ.take prev ++ early :: s'.partner.earlyRecvQ.drop prev
      at hearly'
    show IsPacket (s'.place early'.msg) early'.msg
    unfold place
    rw [hpartner] at hearly' ⊢
    rcases List.mem_append.1 hearly' with hmem | hmem
    · exact h.queue early' (List.mem_of_mem_take hmem)
    · rcases List.mem_cons.1 hmem with rfl | hmem
      · exact hearly
      · exact h.queue early' (List.mem_of_mem_drop hmem)
  · change call ∈ s'.calls at hcall
    show IsPacket s'.partner.handedOn.length _ ∧ _ ≤ s'.partner.handedOn.length
    rw [hpartner]
    exact h.calls call (hcalls ▸ hcall)

theorem postpone (h : s.Placed IsPacket) {msg : Msg} (hmsg : IsPacket (s.place msg) msg)
    (data : List UInt8) (allocated : Bool) : (s.postpone msg data allocated).Placed IsPacket := by
  unfold State.postpone
  split
  · exact h
  · split
    · split <;> exact h.addAfter _ hmsg rfl rfl
    · exact h

theorem processRecv (h : s.Placed IsPacket) (hinOrder : s.InOrder) {msg : Msg}
    (hfits : s.Fits IsPacket msg) (halone : s.calls ≠ [] → s.partner.matchIndex msg.seqnum ≠ 0)
    (data : List UInt8) (allocated : Bool) (outcome : Msg → Option Match) :
    (s.processRecv msg data allocated outcome).Placed IsPacket := by
  have hexpected : s.partner.matchIndex msg.seqnum = 0 →
      IsPacket s.partner.handedOn.length msg := by
    intro hindex
    have hpacket := hfits (hindex.trans_le (Nat.zero_le _))
    unfold place at hpacket
    rwa [hindex] at hpacket
  unfold State.processRecv
  dsimp only
  split
  · split
    · rename_i partner hpartner
      obtain ⟨hnext, hqueue⟩ := Partner.nextMatchRecvSeq_processOrderedRecv hpartner
      have hhanded := Partner.handedOn_processOrderedRecv hpartner
      refine h.processEarly hinOrder msg hqueue ?_ outcome
      split at hnext
      · rename_i hadvances
        rw [if_pos hadvances] at hhanded
        exact .inr ⟨hnext, hhanded, by_contra fun hcalls => halone hcalls hadvances.1,
          hexpected hadvances.1⟩
      · rename_i hnot
        rw [if_neg hnot] at hhanded
        exact .inl ⟨hnext, hhanded⟩
    · rename_i hnone
      have hindex := (Partner.processOrderedRecv_eq_none.1 hnone).1
      refine ⟨h.handed, h.queue, fun call hcall => ?_⟩
      rcases List.mem_cons.1 hcall with rfl | hcall
      · exact ⟨hexpected hindex, Nat.zero_le _⟩
      · exact h.calls call hcall
  · rename_i hlate
    split
    · rename_i hnear
      have hindex := InOrder.matchIndex_eq hlate
      exact h.postpone (hfits (by omega)) data allocated
    · exact h

theorem resume (h : s.Placed IsPacket) (hinOrder : s.InOrder) {call : Call}
    (hcalls : s.calls = [call]) (hwaits : s.Waits call) (ret : Match)
    {outcome : Msg → Option Match}
    (hresume : { s with calls := [], progressionDisabled := false }.resume outcome ret call =
      some s') : s'.Placed IsPacket := by
  obtain ⟨hlooks, hstarted⟩ := h.calls call (hcalls ▸ List.mem_singleton_self _)
  cases call with
  | msg old msg =>
      obtain ⟨rfl, -⟩ := hwaits
      obtain rfl := Option.some.inj hresume
      obtain ⟨hnext, hqueue⟩ := s.partner.nextMatchRecvSeq_matchNext msg ret
      have hhanded := s.partner.handedOn_matchNext msg ret
      have hreturned : Placed IsPacket { s with calls := [], progressionDisabled := false } :=
        h.congr rfl nofun
      refine hreturned.processEarly hinOrder.returned msg
        (show (s.partner.matchNext msg ret).earlyRecvQ = _ from hqueue) ?_ outcome
      split at hnext
      · rename_i hfailed
        rw [if_pos hfailed] at hhanded
        exact .inl ⟨hnext, hhanded⟩
      · rename_i hmatched
        rw [if_neg hmatched] at hhanded
        exact .inr ⟨hnext, hhanded, rfl, hlooks⟩
  | early old earlyIndexMax early next =>
      obtain ⟨hone, rfl, -, passed, rest, hqueue, rfl, hpassed⟩ := hwaits
      have hrest := hinOrder.earlyFrom_eq hqueue
      unfold State.resume at hresume
      change (s.earlyFrom _).map _ = _ at hresume
      rw [hrest] at hresume
      obtain rfl := Option.some.inj hresume
      obtain ⟨hnext, hsame⟩ := s.partner.nextMatchRecvSeq_matchNext early.msg ret
      have hhanded := s.partner.handedOn_matchNext early.msg ret
      -- the message that started the loop was handed on
      obtain ⟨n, hn⟩ := Nat.exists_eq_add_of_le' (show 1 ≤ _ from hstarted)
      refine PlacedFrom.drain (n := n) ⟨?_, ?_, fun early' hearly' => ?_⟩
        (hinOrder.looping_resume hcalls hone hqueue hpassed ret) outcome
      · show InTurn IsPacket (s.partner.matchNext early.msg ret).handedOn
        rw [hhanded]
        split
        · exact h.handed
        · exact h.handed.cons hlooks
      · show (s.partner.matchNext early.msg ret).handedOn.length =
          n + ((s.partner.matchNext early.msg ret).nextMatchRecvSeq - old).num
        rw [hhanded, hnext]
        split
        · rw [hone, hn]
        · rw [Seqnum.num_increase_sub (by omega), hone, List.length_cons, hn]
      · change early' ∈ (s.partner.matchNext early.msg ret).earlyRecvQ at hearly'
        rw [hsame] at hearly'
        have hpacket := h.queue early' hearly'
        rw [hinOrder.num_sub_old hone hearly']
        unfold place at hpacket
        rw [hn] at hpacket
        convert hpacket using 1
        omega

theorem step (h : s.Placed IsPacket) (hinOrder : s.InOrder) {a : Action} (hok : s.Alone a)
    (hfits : ∀ msg data staleAck allocated outcome,
      a = .recv msg data staleAck allocated outcome → s.Fits IsPacket msg)
    (hstep : Early.step s a = some s') : s'.Placed IsPacket := by
  cases a with
  | recv msg data staleAck allocated outcome =>
      unfold Early.step at hstep
      dsimp only at hstep
      split_ifs at hstep with hdisabled hstale
      · cases hstep
        exact h
      · cases hstep
        exact h.processRecv hinOrder (hfits _ _ _ _ _ rfl) (fun hcalls => hok hcalls hstale) data
          allocated outcome
  | handlerReturn k ret outcome =>
      obtain ⟨call, hcall, hresume⟩ := Option.bind_eq_some_iff.1 hstep
      rcases hinOrder.waits with hnone | ⟨call', hcalls, hwaits⟩
      · rw [hnone] at hcall
        cases hcall
      · rw [hcalls] at hcall hresume
        obtain ⟨hk, rfl⟩ := List.getElem?_eq_some_iff.1 hcall
        obtain rfl : k = 0 := Nat.lt_one_iff.1 hk
        exact h.resume hinOrder hcalls hwaits ret hresume
  | otherHandler called =>
      cases hstep
      exact h.congr rfl fun _ hcall => hcall
  | partnerCleanup nextMatch nextFrag =>
      cases hstep
      refine ⟨.nil, nofun, ?_⟩
      rw [calls_partnerCleanup, show s.calls = [] from hok]
      nofun

end Placed

/-! ## What packets do to a partner -/

/-- The match of the expected message and fragments of those before keep `P`, and the early queue
has no part in it. -/
structure KeptByPackets (P : Partner → Prop) : Prop where
  matched : ∀ (partner : Partner) msg ret, partner.matchIndex msg.seqnum = 0 → P partner →
    P (partner.matchNext msg ret)
  continued : ∀ (partner : Partner) msg, P partner → P (partner.continuePartialRequest msg)
  queue : ∀ (partner : Partner) earlyRecvQ, P partner → P { partner with earlyRecvQ }

namespace KeptByPackets

variable {P : Partner → Prop} {s s' : State}

theorem processOrderedRecv (hP : KeptByPackets P) {partner partner' : Partner} {msg : Msg}
    {outcome : Option Match} (h : P partner)
    (hpartner : partner.processOrderedRecv msg outcome = some partner') : P partner' := by
  unfold Partner.processOrderedRecv at hpartner
  split_ifs at hpartner with hindex hnotify hfragment
  · obtain rfl := Option.some.inj hpartner
    exact hP.matched _ _ _ hindex h
  · obtain ⟨ret, -, rfl⟩ := Option.map_eq_some_iff.1 hpartner
    exact hP.matched _ _ _ hindex h
  · obtain rfl := Option.some.inj hpartner
    exact hP.continued _ _ h
  · obtain rfl := Option.some.inj hpartner
    exact h

theorem drain (hP : KeptByPackets P) {old : Seqnum} {earlyIndexMax : ℕ}
    {outcome : Msg → Option Match} {rest : List Packet} (h : P s.partner) :
    P (s.drain old earlyIndexMax outcome rest).partner := by
  induction rest generalizing s with
  | nil => exact h
  | cons early rest ih =>
      unfold State.drain
      split
      · have hdequeue : P (s.dequeue early).partner := hP.queue _ _ h
        split
        · rename_i partner hpartner
          exact ih (hP.processOrderedRecv hdequeue hpartner)
        · exact hdequeue
      · exact ih h

theorem processEarly (hP : KeptByPackets P) {old : Seqnum} {outcome : Msg → Option Match}
    (h : P s.partner) : P (s.processEarly old outcome).partner := by
  unfold State.processEarly
  split
  · exact hP.drain h
  · exact h

theorem processRecv (hP : KeptByPackets P) (msg : Msg) (data : List UInt8) (allocated : Bool)
    (outcome : Msg → Option Match) (h : P s.partner) :
    P (s.processRecv msg data allocated outcome).partner := by
  unfold State.processRecv
  dsimp only
  split
  · split
    · rename_i partner hpartner
      exact hP.processEarly (s := { s with partner }) (hP.processOrderedRecv h hpartner)
    · exact h
  · split
    · unfold State.postpone
      split
      · exact h
      · split
        · split <;> exact hP.queue _ _ h
        · exact h
    · exact h

/-- Every step does, but for a cleanup. -/
theorem step (hP : KeptByPackets P) (hinOrder : s.InOrder) {a : Action}
    (hsession : ∀ nextMatch nextFrag, a ≠ .partnerCleanup nextMatch nextFrag) (h : P s.partner)
    (hstep : Early.step s a = some s') : P s'.partner := by
  cases a with
  | recv msg data staleAck allocated outcome =>
      unfold Early.step at hstep
      dsimp only at hstep
      split_ifs at hstep with hdisabled hstale
      · cases hstep
        exact h
      · cases hstep
        exact hP.processRecv msg data allocated outcome h
  | handlerReturn k ret outcome =>
      obtain ⟨call, hcall, hresume⟩ := Option.bind_eq_some_iff.1 hstep
      rcases hinOrder.waits with hnone | ⟨call', hcalls, hwaits⟩
      · rw [hnone] at hcall
        cases hcall
      · rw [hcalls] at hcall
        obtain ⟨hk, rfl⟩ := List.getElem?_eq_some_iff.1 hcall
        obtain rfl : k = 0 := Nat.lt_one_iff.1 hk
        cases call' with
        | msg old msg =>
            obtain rfl := Option.some.inj hresume
            exact hP.processEarly (hP.matched _ _ _ hwaits.2 h)
        | early old earlyIndexMax early next =>
            obtain ⟨rest, -, rfl⟩ := Option.map_eq_some_iff.1 hresume
            exact hP.drain (hP.matched _ _ _ hwaits.2.2.1 h)
  | otherHandler called =>
      cases hstep
      exact h
  | partnerCleanup nextMatch nextFrag => exact absurd rfl (hsession nextMatch nextFrag)

end KeptByPackets

end State

namespace Partner

/-- Nothing that is matched and incomplete is further behind than the first message. -/
structure BehindStart (partner : Partner) : Prop where
  requests : ∀ req ∈ partner.partialMediumRecvReqQ,
    (partner.nextMatchRecvSeq - req.seqnum).num ≤ partner.handedOn.length
  frag : partner.fragIndexMax ≤ partner.handedOn.length

theorem BehindStart.update {partner : Partner} (h : ∀ req ∈ partner.partialMediumRecvReqQ,
      (partner.nextMatchRecvSeq - req.seqnum).num ≤ partner.handedOn.length) :
    partner.updateNextFragRecvSeq.BehindStart := by
  refine ⟨h, ?_⟩
  unfold fragIndexMax updateNextFragRecvSeq
  cases hreqs : partner.partialMediumRecvReqQ with
  | nil =>
      dsimp only
      rw [Seqnum.num_sub_self]
      exact Nat.zero_le _
  | cons req reqs => exact h req (hreqs ▸ List.mem_cons_self ..)

theorem behindStart_kept : State.KeptByPackets BehindStart where
  matched := by
    intro partner msg ret hindex h
    unfold matchNext
    split
    · exact h
    · refine .update fun req hreq => ?_
      show (partner.nextMatchRecvSeq.increase - req.seqnum).num ≤ partner.handedOn.length + 1
      have hincrease := Seqnum.num_increase_sub_le partner.nextMatchRecvSeq req.seqnum
      rcases List.mem_append.1 hreq with hreq | hreq
      · exact hincrease.trans (Nat.succ_le_succ (h.requests req hreq))
      · rw [Behind.seqnum_of_matchedPartial hreq] at hincrease ⊢
        have hzero := num_sub_of_matchIndex hindex
        omega
  continued := by
    intro partner msg h
    unfold continuePartialRequest
    split
    · rename_i reqs hreqs
      refine .update fun req hreq => ?_
      obtain ⟨req', hreq', heq⟩ := Behind.seqnum_of_continueLoop hreqs req hreq
      show (partner.nextMatchRecvSeq - req.seqnum).num ≤ _
      rw [heq]
      exact h.requests req' hreq'
    · exact h
  queue := fun _ _ h => ⟨h.requests, h.frag⟩

end Partner

end Xen2mx.Early
