/-
# `Xen2mx.Early.Drain` — which early packets are left when their turn has come

`omx__process_recv` reads once how far `next_match_recv_seq` moved, before it goes through the
early queue.  A packet of the queue that is matched moves it further, and what is expected then
stays where it is.  A packet that moves nothing leaves the queue as it is, with what stayed there
before.

    early queue, from the expected number     left after the expected message
    1                                         nothing to do
    2                                         nothing to do
    1, 2                                      2, which is expected now
    1, 2, 3                                   2, 3

A call that waits for the handler ends in the section in which the handler returns.  The packet
that the handler looks at, and what the queue holds by then, decide what is left (`Leaves`).

**Proved here.**

    when a call returns no early packet is deliverable, unless the one after the message is
        matched too and the next is in the queue, or nothing was matched and the expected one was
        in the queue before                                              (`drained_iff`)
-/
import Xen2mx.Early.Order

namespace Xen2mx.Early

open Isend (Seqnum throttlingOffsetMax)

namespace Partner

/-- The packet is expected, or a fragment of a message that was matched, as
`omx__process_partner_ordered_recv` tells. -/
def Deliverable (partner : Partner) (msg : Msg) : Prop :=
  partner.matchIndex msg.seqnum = 0 ∨
    msg.type = .mediumFrag ∧ partner.fragIndex msg.seqnum < partner.fragIndexMax

instance (partner : Partner) : DecidablePred partner.Deliverable :=
  fun _ => inferInstanceAs (Decidable (_ ∨ _))

def Drained (partner : Partner) : Prop :=
  ∀ early ∈ partner.earlyRecvQ, ¬ partner.Deliverable early.msg

/-- Nothing that is matched and incomplete is further behind than `window`, counted from `old`. -/
structure Behind (old : Seqnum) (window : ℕ) (partner : Partner) : Prop where
  requests : ∀ req ∈ partner.partialMediumRecvReqQ,
    (partner.nextMatchRecvSeq - req.seqnum).num ≤
      window + (partner.nextMatchRecvSeq - old).num
  frag : partner.fragIndexMax ≤ window + (partner.nextMatchRecvSeq - old).num

/-- The expected message is not behind. -/
theorem num_sub_of_matchIndex {partner : Partner} {seqnum : Seqnum}
    (hindex : partner.matchIndex seqnum = 0) : (partner.nextMatchRecvSeq - seqnum).num = 0 := by
  have hsame := Seqnum.num_sub_sub partner.nextMatchRecvSeq seqnum partner.nextMatchRecvSeq
  change _ = if partner.matchIndex seqnum ≤ _ then _ - partner.matchIndex seqnum else _ at hsame
  rw [hindex, Seqnum.num_sub_self, if_pos le_rfl] at hsame
  exact hsame

namespace Behind

variable {old : Seqnum} {window : ℕ} {partner : Partner}

theorem update (h : ∀ req ∈ partner.partialMediumRecvReqQ,
      (partner.nextMatchRecvSeq - req.seqnum).num ≤
        window + (partner.nextMatchRecvSeq - old).num) :
    partner.updateNextFragRecvSeq.Behind old window := by
  refine ⟨h, ?_⟩
  unfold fragIndexMax updateNextFragRecvSeq
  cases hreqs : partner.partialMediumRecvReqQ with
  | nil =>
      dsimp only
      rw [Seqnum.num_sub_self]
      exact Nat.zero_le _
  | cons req reqs => exact h req (hreqs ▸ List.mem_cons_self ..)

theorem seqnum_of_processRecvMediumFrag (req : Partial) {req' : Partial} {msg : Msg}
    (h : req.processRecvMediumFrag msg = some req') : req'.seqnum = req.seqnum := by
  unfold Partial.processRecvMediumFrag at h
  dsimp only at h
  split_ifs at h
  · cases h
    rfl
  · cases h
    rfl

theorem seqnum_of_matchedPartial {msg : Msg} {ret : Match} {req : Partial}
    (h : req ∈ matchedPartial msg ret) : req.seqnum = msg.seqnum := by
  unfold matchedPartial at h
  split at h
  · split at h
    · exact seqnum_of_processRecvMediumFrag ⟨msg.seqnum, [], 0⟩ (Option.mem_toList.1 h)
    · cases h
  · cases h

theorem seqnum_of_continueLoop {msg : Msg} {reqs reqs' : List Partial}
    (h : partner.continueLoop msg reqs = some reqs') :
    ∀ req' ∈ reqs', ∃ req ∈ reqs, req'.seqnum = req.seqnum := by
  induction reqs generalizing reqs' with
  | nil => cases h
  | cons req reqs ih =>
      unfold continueLoop at h
      split_ifs at h with hfound
      · cases h
        intro req' hreq'
        rcases List.mem_append.1 hreq' with hreq' | hreq'
        · exact ⟨req, List.mem_cons_self ..,
            seqnum_of_processRecvMediumFrag req (Option.mem_toList.1 hreq')⟩
        · exact ⟨req', List.mem_cons_of_mem _ hreq', rfl⟩
      · obtain ⟨reqs₁, hreqs₁, rfl⟩ := Option.map_eq_some_iff.1 h
        intro req' hreq'
        rcases List.mem_cons.1 hreq' with rfl | hreq'
        · exact ⟨req', List.mem_cons_self .., rfl⟩
        · obtain ⟨req₁, hreq₁, heq⟩ := ih hreqs₁ req' hreq'
          exact ⟨req₁, List.mem_cons_of_mem _ hreq₁, heq⟩

/-- The match of the expected message keeps them so, with the origin. -/
theorem matchNext (h : partner.Behind old window)
    (hlt : window + (partner.nextMatchRecvSeq - old).num + 1 < 2 ^ 14) {msg : Msg}
    (hindex : partner.matchIndex msg.seqnum = 0) (ret : Match) :
    (partner.matchNext msg ret).Behind old window := by
  unfold Partner.matchNext
  split
  · exact h
  · have hmoved : (partner.nextMatchRecvSeq.increase - old).num =
        (partner.nextMatchRecvSeq - old).num + 1 := Seqnum.num_increase_sub (by omega)
    refine update fun req hreq => ?_
    show (partner.nextMatchRecvSeq.increase - req.seqnum).num ≤
      window + (partner.nextMatchRecvSeq.increase - old).num
    rcases List.mem_append.1 hreq with hreq | hreq
    · have hle := h.requests req hreq
      rw [Seqnum.num_increase_sub (by omega), hmoved]
      omega
    · -- the message that is matched now
      have hzero : (partner.nextMatchRecvSeq - req.seqnum).num = 0 := by
        rw [seqnum_of_matchedPartial hreq]
        exact num_sub_of_matchIndex hindex
      rw [Seqnum.num_increase_sub (by omega), hzero, hmoved]
      omega

/-- So does a packet in order. -/
theorem processOrderedRecv (h : partner.Behind old window)
    (hlt : window + (partner.nextMatchRecvSeq - old).num + 1 < 2 ^ 14) {msg : Msg}
    {outcome : Option Match} {partner' : Partner}
    (hpartner : partner.processOrderedRecv msg outcome = some partner') :
    partner'.Behind old window := by
  unfold Partner.processOrderedRecv at hpartner
  split_ifs at hpartner with hindex hnotify hfragment
  · obtain rfl := Option.some.inj hpartner
    exact h.matchNext hlt hindex .matched
  · obtain ⟨ret, -, rfl⟩ := Option.map_eq_some_iff.1 hpartner
    exact h.matchNext hlt hindex ret
  · obtain rfl := Option.some.inj hpartner
    unfold continuePartialRequest
    split
    · rename_i reqs hreqs
      refine update fun req hreq => ?_
      obtain ⟨req', hreq', heq⟩ := seqnum_of_continueLoop hreqs req hreq
      show (partner.nextMatchRecvSeq - req.seqnum).num ≤ _
      rw [heq]
      exact h.requests req' hreq'
    · exact h
  · obtain rfl := Option.some.inj hpartner
    exact h

end Behind

end Partner

namespace State

/-- Matched and incomplete messages are in the window that the partner keeps to. -/
def InWindow (s : State) : Prop :=
  s.partner.Behind s.partner.nextMatchRecvSeq throttlingOffsetMax

/-- The window leaves room for the messages of a call. -/
theorem window_lt {d : ℕ} (h : d ≤ 2) : throttlingOffsetMax + d + 1 < 2 ^ 14 := by
  have hwide : throttlingOffsetMax = 8191 := rfl
  omega

theorem InWindow.behind {s : State} (h : s.InWindow) (old : Seqnum) :
    s.partner.Behind old throttlingOffsetMax := by
  have hself := Seqnum.num_sub_self s.partner.nextMatchRecvSeq
  refine ⟨fun req hreq => ?_, ?_⟩
  · have hle := h.requests req hreq
    omega
  · have hle := h.frag
    omega

/-! ## What is left -/

/-- A packet of the queue is so far ahead. -/
def Queued (s : State) (k : ℕ) : Prop :=
  ∃ early ∈ s.partner.earlyRecvQ, s.partner.matchIndex early.msg.seqnum = k

instance (s : State) (k : ℕ) : Decidable (s.Queued k) :=
  inferInstanceAs (Decidable (∃ _ ∈ _, _))

/-- And one that is there is matched in its turn. -/
def Follows (s : State) (outcome : Msg → Option Match) (k : ℕ) : Prop :=
  ∃ early ∈ s.partner.earlyRecvQ, s.partner.matchIndex early.msg.seqnum = k ∧
    (early.msg.type = .notify ∨ outcome early.msg ≠ some .failed)

instance (s : State) (outcome : Msg → Option Match) (k : ℕ) : Decidable (s.Follows outcome k) :=
  inferInstanceAs (Decidable (∃ _ ∈ _, _))

/-- The section leaves a packet in the queue that is expected then. -/
def Leaves (s : State) : Action → Prop
  | .recv msg _ _ _ outcome =>
      if s.partner.Advances msg (outcome msg) then s.Follows outcome 1 ∧ s.Queued 2
      else s.Queued 0
  | .handlerReturn k ret outcome =>
      match s.calls[k]? with
      | some (.msg ..) =>
          if ret = .failed then s.Queued 0 else s.Follows outcome 1 ∧ s.Queued 2
      -- the message that started the loop is matched, and expected is the one with the handler
      | some (.early ..) => (ret = .failed → s.Follows outcome 0) ∧ s.Queued 1
      | none => False
  | _ => False

/-- A call of `omx__process_recv` for a packet in sequence returns with the section. -/
def Returns (s : State) (a : Action) (s' : State) : Prop :=
  match a with
  | .recv msg _ staleAck _ _ =>
      ¬ s.Stale msg staleAck ∧ s.partner.fragIndex msg.seqnum ≤ s.partner.fragIndexMax ∧
        s'.calls = s.calls
  | .handlerReturn k _ _ => s'.calls = s.calls.eraseIdx k
  | _ => False

variable {s s' : State} {old : Seqnum}

/-- In the window no early packet is a fragment of what was matched. -/
theorem InOrder.drained_iff_not_queued (h : s.InOrder)
    (hmax : s.partner.fragIndexMax ≤ throttlingOffsetMax + 2) : s.partner.Drained ↔ ¬ s.Queued 0 := by
  constructor
  · rintro hdrained ⟨early, hearly, hzero⟩
    exact hdrained early hearly (.inl hzero)
  · rintro hnone early hearly (hzero | ⟨-, hfrag⟩)
    · exact hnone ⟨early, hearly, hzero⟩
    · have hnear := h.sorted.near early hearly
      have hindex := Seqnum.num_sub_sub early.msg.seqnum s.partner.nextMatchRecvSeq
        s.partner.nextFragRecvSeq
      change (early.msg.seqnum - s.partner.nextFragRecvSeq).num <
        (s.partner.nextMatchRecvSeq - s.partner.nextFragRecvSeq).num at hfrag
      change (s.partner.nextMatchRecvSeq - s.partner.nextFragRecvSeq).num ≤ _ at hmax
      rw [if_neg (Nat.not_le.2 hfrag)] at hindex
      have hwide : throttlingOffsetMax = 8191 := rfl
      have hfar : earlyPacketOffsetMax = 255 := rfl
      omega

namespace Looping

variable {rest : List Packet} {outcome : Msg → Option Match}

/-- What a loop that goes through comes to. -/
structure Through (old : Seqnum) (outcome : Msg → Option Match) (rest : List Packet)
    (s s' : State) : Prop where
  looping : Looping old [] s'
  behind : s'.partner.Behind old throttlingOffsetMax
  /-- It moves the origin to the second message if one is there that is matched, -/
  next : (s'.partner.nextMatchRecvSeq - old).num = 2 ↔
    (s.partner.nextMatchRecvSeq - old).num = 2 ∨
      ∃ early ∈ rest, (early.msg.seqnum - old).num = 1 ∧
        (early.msg.type = .notify ∨ outcome early.msg ≠ some .failed)
  /-- and does not touch the packets further ahead. -/
  ahead : ∀ early, 2 ≤ (early.msg.seqnum - old).num →
    (early ∈ s'.partner.earlyRecvQ ↔ early ∈ s.partner.earlyRecvQ)

theorem num_le (h : Looping old rest s) : (s.partner.nextMatchRecvSeq - old).num ≤ 2 := by
  rcases h.moved with hone | htwo
  · omega
  · omega

/-- In a round the origin moves if the packet is the next message, and is matched. -/
theorem next_take {early : Packet} (h : Looping old (early :: rest) s)
    (htaken : (early.msg.seqnum - old).num ≤ 1) {ret : Option Match} {partner : Partner}
    (hpartner : (s.dequeue early).partner.processOrderedRecv early.msg ret = some partner) :
    (partner.nextMatchRecvSeq - old).num = 2 ↔
      (s.partner.nextMatchRecvSeq - old).num = 2 ∨
        (early.msg.seqnum - old).num = 1 ∧ (early.msg.type = .notify ∨ ret ≠ some .failed) := by
  have hnext : partner.nextMatchRecvSeq = if s.partner.Advances early.msg ret then
      s.partner.nextMatchRecvSeq.increase else s.partner.nextMatchRecvSeq :=
    (Partner.nextMatchRecvSeq_processOrderedRecv hpartner).1
  have hexpects := h.expects_iff htaken
  rw [hnext]
  split
  · rename_i hadvances
    obtain ⟨hone, hearly⟩ := hexpects.1 hadvances.1
    rw [Seqnum.num_increase_sub (by omega), hone]
    exact iff_of_true rfl (.inr ⟨hearly, hadvances.2⟩)
  · rename_i hstays
    refine ⟨.inl, ?_⟩
    rintro (htwo | ⟨hearly, hmatched⟩)
    · exact htwo
    · rcases h.moved with hone | htwo
      · exact absurd ⟨hexpects.2 ⟨hone, hearly⟩, hmatched⟩ hstays
      · exact htwo

/-- And the packets further ahead stay. -/
theorem ahead_take {early : Packet} (h : Looping old (early :: rest) s)
    (htaken : (early.msg.seqnum - old).num ≤ 1) {ret : Option Match} {partner : Partner}
    (hpartner : (s.dequeue early).partner.processOrderedRecv early.msg ret = some partner)
    {early' : Packet} (hfar : 2 ≤ (early'.msg.seqnum - old).num) :
    early' ∈ partner.earlyRecvQ ↔ early' ∈ s.partner.earlyRecvQ := by
  obtain ⟨passed, hqueue, hbefore, -⟩ := h.dequeue
  have hne : early' ≠ early := by
    rintro rfl
    omega
  rw [(Partner.nextMatchRecvSeq_processOrderedRecv hpartner).2, hqueue, hbefore, List.mem_append,
    List.mem_append, List.mem_cons, or_iff_right hne]

theorem through (h : Looping old rest s) (hbehind : s.partner.Behind old throttlingOffsetMax)
    (hdone : (s.drain old 1 outcome rest).calls = []) :
    Through old outcome rest s (s.drain old 1 outcome rest) := by
  induction rest generalizing s with
  | nil =>
      refine ⟨h, hbehind, ⟨.inl, ?_⟩, fun _ _ => Iff.rfl⟩
      rintro (htwo | ⟨early, hearly, -⟩)
      · exact htwo
      · cases hearly
  | cons early rest ih =>
      unfold State.drain at hdone ⊢
      by_cases htaken : (early.msg.seqnum - old).num ≤ 1
      · rw [if_pos htaken] at hdone ⊢
        cases hpartner :
            (s.dequeue early).partner.processOrderedRecv early.msg (outcome early.msg) with
        | none =>
            rw [hpartner] at hdone
            exact absurd hdone (List.cons_ne_nil _ _)
        | some partner =>
            rw [hpartner] at hdone
            have hbehind' : (s.dequeue early).partner.Behind old throttlingOffsetMax :=
              ⟨hbehind.requests, hbehind.frag⟩
            have hrest := ih (h.take htaken hpartner)
              (hbehind'.processOrderedRecv (window_lt h.num_le) hpartner) hdone
            refine ⟨hrest.looping, hrest.behind, hrest.next.trans ?_, fun early' hfar =>
              (hrest.ahead early' hfar).trans (h.ahead_take htaken hpartner hfar)⟩
            rw [List.exists_mem_cons_iff, ← or_assoc]
            exact or_congr_left (h.next_take htaken hpartner)
      · rw [if_neg htaken] at hdone ⊢
        have hrest := ih (h.pass htaken) hbehind hdone
        refine ⟨hrest.looping, hrest.behind, hrest.next.trans (or_congr_right ?_), hrest.ahead⟩
        rw [List.exists_mem_cons_iff, or_iff_right]
        exact fun hfollows => htaken hfollows.1.le

/-- After the loop only the message behind the next one can be left. -/
theorem drained_drain_iff (h : Looping old rest s) (hbehind : s.partner.Behind old throttlingOffsetMax)
    (hdone : (s.drain old 1 outcome rest).calls = []) :
    (s.drain old 1 outcome rest).partner.Drained ↔
      ¬ (((s.partner.nextMatchRecvSeq - old).num = 2 ∨
          ∃ early ∈ rest, (early.msg.seqnum - old).num = 1 ∧
            (early.msg.type = .notify ∨ outcome early.msg ≠ some .failed)) ∧
        ∃ early ∈ s.partner.earlyRecvQ, (early.msg.seqnum - old).num = 2) := by
  have hthrough := h.through hbehind hdone
  generalize s.drain old 1 outcome rest = s' at hthrough
  have hmax : s'.partner.fragIndexMax ≤ throttlingOffsetMax + 2 := by
    have hfrag := hthrough.behind.frag
    rcases hthrough.looping.moved with hone | htwo
    · omega
    · omega
  rw [hthrough.looping.done.drained_iff_not_queued hmax, ← hthrough.next]
  obtain ⟨passed, hqueue, hpassed⟩ := hthrough.looping.passed
  rw [List.append_nil] at hqueue
  have hindex : ∀ early ∈ s'.partner.earlyRecvQ, 2 ≤ (early.msg.seqnum - old).num ∧
      s'.partner.matchIndex early.msg.seqnum =
        (early.msg.seqnum - old).num - (s'.partner.nextMatchRecvSeq - old).num := by
    intro early hearly
    have hfar := hpassed early (hqueue ▸ hearly)
    have hsub := Seqnum.num_sub_sub early.msg.seqnum s'.partner.nextMatchRecvSeq old
    have hmoved := hthrough.looping.moved
    rw [if_pos (by omega)] at hsub
    exact ⟨hfar, hsub⟩
  refine not_congr ⟨?_, ?_⟩
  · rintro ⟨early, hearly, hzero⟩
    obtain ⟨hfar, heq⟩ := hindex early hearly
    have hmoved := hthrough.looping.moved
    rw [hzero] at heq
    exact ⟨by omega, early, (hthrough.ahead early hfar).1 hearly, by omega⟩
  · rintro ⟨htwo, early, hearly, hoffset⟩
    have hmem := (hthrough.ahead early hoffset.ge).2 hearly
    refine ⟨early, hmem, ?_⟩
    rw [(hindex early hmem).2, htwo, hoffset]

end Looping

namespace InOrder

variable {outcome : Msg → Option Match}

/-- A call that has done the match of the message that came returns. -/
theorem processEarly_drained_iff (h : s.InOrder) {partner : Partner}
    (hqueue : partner.earlyRecvQ = s.partner.earlyRecvQ)
    (hnext : partner.nextMatchRecvSeq = s.partner.nextMatchRecvSeq ∨
      partner.nextMatchRecvSeq = s.partner.nextMatchRecvSeq.increase ∧ s.calls = [])
    (hbehind : partner.Behind s.partner.nextMatchRecvSeq throttlingOffsetMax)
    (hdone : ({ s with partner }.processEarly s.partner.nextMatchRecvSeq outcome).calls =
      s.calls) :
    ({ s with partner }.processEarly s.partner.nextMatchRecvSeq outcome).partner.Drained ↔
      ¬ if partner.nextMatchRecvSeq = s.partner.nextMatchRecvSeq then s.Queued 0
        else s.Follows outcome 1 ∧ s.Queued 2 := by
  rcases hnext with hsame | ⟨hnext, halone⟩
  · rw [if_pos hsame]
    unfold State.processEarly
    rw [if_neg (not_not.2 hsame)]
    have hmax : partner.fragIndexMax ≤ throttlingOffsetMax + 2 := by
      have hfrag := hbehind.frag
      rw [hsame, Seqnum.num_sub_self] at hfrag
      omega
    have hinOrder : InOrder { s with partner } := h.congr hsame hqueue rfl rfl rfl
    rw [hinOrder.drained_iff_not_queued hmax]
    unfold Queued Partner.matchIndex
    rw [hsame, hqueue]
  · have hone : (partner.nextMatchRecvSeq - s.partner.nextMatchRecvSeq).num = 1 := by
      rw [hnext, Seqnum.num_increase_sub_self]
    have hne : partner.nextMatchRecvSeq ≠ s.partner.nextMatchRecvSeq :=
      hnext ▸ Partner.increase_ne _
    rw [if_neg hne]
    rw [processEarly_eq hqueue hnext] at hdone ⊢
    rw [(h.looping_start hqueue hnext halone).drained_drain_iff hbehind (hdone.trans halone)]
    change ¬ (((partner.nextMatchRecvSeq - _).num = 2 ∨ _) ∧ ∃ early ∈ partner.earlyRecvQ, _) ↔ _
    rw [hone, hqueue, or_iff_right (by decide)]
    rfl

theorem recv_drained_iff (h : s.InOrder) (hwindow : s.InWindow) {msg : Msg} {data : List UInt8}
    {staleAck allocated : Bool}
    (hok : s.calls ≠ [] → s.partner.matchIndex msg.seqnum ≠ 0)
    (hordered : s.partner.fragIndex msg.seqnum ≤ s.partner.fragIndexMax)
    (hdone : (s.processRecv msg data allocated outcome).calls = s.calls) :
    (s.processRecv msg data allocated outcome).partner.Drained ↔
      ¬ s.Leaves (.recv msg data staleAck allocated outcome) := by
  unfold State.processRecv at hdone ⊢
  dsimp only at hdone ⊢
  rw [if_pos hordered] at hdone ⊢
  cases hpartner : s.partner.processOrderedRecv msg (outcome msg) with
  | none =>
      rw [hpartner] at hdone
      exact absurd hdone (List.cons_ne_self _ _)
  | some partner =>
      rw [hpartner] at hdone
      obtain ⟨hnext, hqueue⟩ := Partner.nextMatchRecvSeq_processOrderedRecv hpartner
      have hself := Seqnum.num_sub_self s.partner.nextMatchRecvSeq
      have hbehind := (hwindow.behind s.partner.nextMatchRecvSeq).processOrderedRecv
        (window_lt (by omega)) hpartner
      by_cases hadvances : s.partner.Advances msg (outcome msg)
      · rw [if_pos hadvances] at hnext
        have halone : s.calls = [] := by_contra fun hcalls => hok hcalls hadvances.1
        have hne : partner.nextMatchRecvSeq ≠ s.partner.nextMatchRecvSeq :=
          hnext ▸ Partner.increase_ne _
        dsimp only
        rw [h.processEarly_drained_iff hqueue (.inr ⟨hnext, halone⟩) hbehind hdone, if_neg hne]
        unfold Leaves
        dsimp only
        rw [if_pos hadvances]
      · rw [if_neg hadvances] at hnext
        dsimp only
        rw [h.processEarly_drained_iff hqueue (.inl hnext) hbehind hdone, if_pos hnext]
        unfold Leaves
        dsimp only
        rw [if_neg hadvances]

theorem handlerReturn_drained_iff (h : s.InOrder) (hwindow : s.InWindow) {call : Call}
    (hcalls : s.calls = [call]) (hwaits : s.Waits call) {ret : Match}
    (hresume : { s with calls := [], progressionDisabled := false }.resume outcome ret call =
      some s') (hdone : s'.calls = []) :
    s'.partner.Drained ↔ ¬ s.Leaves (.handlerReturn 0 ret outcome) := by
  unfold Leaves
  dsimp only
  rw [hcalls, List.getElem?_cons_zero]
  cases call with
  | msg old msg =>
      obtain ⟨rfl, hindex⟩ := hwaits
      obtain rfl := Option.some.inj hresume
      obtain ⟨hnext, hqueue⟩ := s.partner.nextMatchRecvSeq_matchNext msg ret
      have hself := Seqnum.num_sub_self s.partner.nextMatchRecvSeq
      have hbehind := (hwindow.behind s.partner.nextMatchRecvSeq).matchNext
        (window_lt (by omega)) hindex ret
      by_cases hfailed : ret = .failed
      · rw [if_pos hfailed] at hnext
        refine (h.returned.processEarly_drained_iff hqueue (.inl hnext) hbehind hdone).trans ?_
        rw [if_pos hnext]
        dsimp only
        rw [if_pos hfailed]
        rfl
      · rw [if_neg hfailed] at hnext
        have hne : (s.partner.matchNext msg ret).nextMatchRecvSeq ≠ s.partner.nextMatchRecvSeq :=
          hnext ▸ Partner.increase_ne _
        refine (h.returned.processEarly_drained_iff hqueue (.inr ⟨hnext, rfl⟩) hbehind hdone).trans ?_
        rw [if_neg hne]
        dsimp only
        rw [if_neg hfailed]
        rfl
  | early old earlyIndexMax early next =>
      obtain ⟨hone, rfl, hindex, passed, rest, hqueue, rfl, hpassed⟩ := hwaits
      have hrest := h.earlyFrom_eq hqueue
      unfold State.resume at hresume
      change (s.earlyFrom _).map _ = _ at hresume
      rw [hrest] at hresume
      obtain rfl := Option.some.inj hresume
      have hbehind := (hwindow.behind old).matchNext (window_lt (by omega)) hindex ret
      obtain ⟨hnext, hsame⟩ := s.partner.nextMatchRecvSeq_matchNext early.msg ret
      rw [(h.looping_resume hcalls hone hqueue hpassed ret).drained_drain_iff hbehind hdone]
      change ¬ ((((s.partner.matchNext early.msg ret).nextMatchRecvSeq - old).num = 2 ∨ _) ∧
        ∃ early' ∈ (s.partner.matchNext early.msg ret).earlyRecvQ, _) ↔ _
      rw [hsame]
      have hoffset : ∀ early' ∈ s.partner.earlyRecvQ, ∀ k, (early'.msg.seqnum - old).num = k + 1 ↔
          s.partner.matchIndex early'.msg.seqnum = k := by
        intro early' hearly' k
        rw [h.num_sub_old hone hearly', Nat.add_right_cancel_iff]
      refine not_congr (and_congr ?_ ?_)
      · have hmoved : ((s.partner.matchNext early.msg ret).nextMatchRecvSeq - old).num = 2 ↔
            ret ≠ .failed := by
          rw [hnext]
          split
          · rename_i hfailed
            exact iff_of_false (by omega) (not_not.2 hfailed)
          · rename_i hmatched
            exact iff_of_true (by rw [Seqnum.num_increase_sub (by omega), hone]) hmatched
        rw [hmoved, or_iff_not_imp_left, not_not]
        refine imp_congr_right fun _ => ?_
        constructor
        · rintro ⟨early', hearly', hoff, hmatched⟩
          have hmem : early' ∈ s.partner.earlyRecvQ := hqueue ▸ List.mem_append_right _ hearly'
          exact ⟨early', hmem, (hoffset early' hmem 0).1 hoff, hmatched⟩
        · rintro ⟨early', hearly', hzero, hmatched⟩
          refine ⟨early', ?_, (hoffset early' hearly' 0).2 hzero, hmatched⟩
          rw [hqueue] at hearly'
          refine (List.mem_append.1 hearly').resolve_left fun hmem => ?_
          have hpos := hpassed early' hmem
          omega
      · refine exists_congr fun early' => and_congr_right fun hearly' => ?_
        exact hoffset early' hearly' 1

end InOrder

end State

/-- When a call of `omx__process_recv` returns, in a run in which the expected message is not
processed under a handler, no early packet is deliverable if and only if the section does not leave
one. -/
theorem drained_iff (nextMatch nextFrag : Seqnum) {s s' : State} {a : Action}
    (h : (machine nextMatch nextFrag).Reaches State.Alone s) (hwindow : s.InWindow)
    (hok : s.Alone a) (hstep : step s a = some s') (hreturns : s.Returns a s') :
    s'.partner.Drained ↔ ¬ s.Leaves a := by
  have hinOrder := inOrder_reaches h
  cases a with
  | recv msg data staleAck allocated outcome =>
      obtain ⟨hfresh, hordered, hdone⟩ := hreturns
      unfold step at hstep
      dsimp only at hstep
      split_ifs at hstep
      obtain rfl := Option.some.inj hstep
      exact hinOrder.recv_drained_iff hwindow (fun hcalls => hok hcalls hfresh) hordered hdone
  | handlerReturn k ret outcome =>
      obtain ⟨call, hcall, hresume⟩ := Option.bind_eq_some_iff.1 hstep
      rcases hinOrder.waits with hnone | ⟨call', hcalls, hwaits⟩
      · rw [hnone] at hcall
        cases hcall
      · have hdone : s'.calls = s.calls.eraseIdx k := hreturns
        rw [hcalls] at hcall hresume hdone
        obtain ⟨hk, rfl⟩ := List.getElem?_eq_some_iff.1 hcall
        obtain rfl : k = 0 := Nat.lt_one_iff.1 hk
        exact hinOrder.handlerReturn_drained_iff hwindow hcalls hwaits hresume hdone
  | otherHandler | partnerCleanup => exact hreturns.elim

/-- Messages 2 and 3 come while 1 is expected. -/
def twoEarly : List Action := [recvTiny 2, recvTiny 3]

theorem drained_iff_twoEarly :
    ∃ s s', (machine 1 1).exec (init 1 1) twoEarly = some s ∧ step s (recvTiny 1) = some s' ∧
      (s'.partner.Drained ↔ ¬ s.Leaves (recvTiny 1)) := by
  obtain ⟨s, hs, s', hstep, hwindow, hok, hreturns⟩ : ∃ s,
      (machine 1 1).exec (init 1 1) twoEarly = some s ∧ ∃ s', step s (recvTiny 1) = some s' ∧
        s.InWindow ∧ s.Alone (recvTiny 1) ∧ s.Returns (recvTiny 1) s' :=
    ⟨_, rfl, _, rfl, ⟨nofun, by decide +kernel⟩, by decide, by decide, by decide, rfl⟩
  exact ⟨s, s', hs, hstep,
    drained_iff 1 1 ⟨twoEarly, by decide, hs⟩ hwindow hok hstep hreturns⟩

/-- Message 1 comes: 2 leaves the queue and is matched, and 3, which is expected then, stays. -/
theorem not_drained :
    ∃ s, (machine 1 1).exec (init 1 1) (twoEarly ++ [recvTiny 1]) = some s ∧
      s.partner.nextMatchRecvSeq = 3 ∧
        s.partner.earlyRecvQ.map (fun early => early.msg.seqnum) = [3] ∧ ¬ s.partner.Drained := by
  refine ⟨_, rfl, by decide, by decide, ?_⟩
  unfold Partner.Drained
  decide

end Xen2mx.Early
