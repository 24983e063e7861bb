/-
# `Xen2mx.Early.Order` — the early queue is sorted, and owns its data

The key of a packet is its offset from `next_match_recv_seq` and its fragment number.  The origin
moves with every message that is matched, by one or by two, and what it passes has left the
queue by then.

    step                        the origin moves   the queue loses
    postpone                    no                 nothing, and gains one
    a match                     by 1               the offsets 0 and 1
    a match, and one of these   by 2               the offsets 0 and 1

The loop that takes them out stops where the handler is asked for one of these, which is the
expected message then.  It goes on at the packet behind it.  What came meanwhile is further ahead,
so nothing is missed, unless the expected message was matched by another call (`Alone`): both
increase the origin then, and it passes packets that are still in the queue.

**Proved here.**

    the scan from the tail finds the place of a packet, or the one with its key
                                                                        (`findPrevious_spec`)
    the expected message is not processed, nor the partner cleaned up, while a message of the
        partner is with the handler  ⟹  the queue is strictly sorted, within the window, and
        every packet has a copy of its own of the data it came with     (`earlyRecvQ_inOrder`)
-/
import Mathlib.Data.List.Pairwise
import Xen2mx.Early.Queue

namespace Xen2mx.Early

open Isend (Seqnum)

/-! ## Keys -/

/-- The order of the keys of two packets. -/
def KeyLt (origin : Seqnum) (msg msg' : Msg) : Prop :=
  (msg.seqnum - origin).num < (msg'.seqnum - origin).num ∨
    (msg.seqnum - origin).num = (msg'.seqnum - origin).num ∧ msg.fragSeqnum < msg'.fragSeqnum

instance (origin : Seqnum) (msg msg' : Msg) : Decidable (KeyLt origin msg msg') :=
  inferInstanceAs (Decidable (_ ∨ _))

theorem KeyLt.trans {origin : Seqnum} {msg msg' msg'' : Msg} (h : KeyLt origin msg msg')
    (h' : KeyLt origin msg' msg'') : KeyLt origin msg msg'' := by
  unfold KeyLt at h h' ⊢
  omega

theorem KeyLt.le {origin : Seqnum} {msg msg' : Msg} (h : KeyLt origin msg msg') :
    (msg.seqnum - origin).num ≤ (msg'.seqnum - origin).num := by
  rcases h with h | h
  · exact h.le
  · exact h.1.le

/-- Packets are sorted, without two of one key, and near. -/
structure Sorted (origin : Seqnum) (bound : ℕ) (queue : List Packet) : Prop where
  sorted : queue.Pairwise fun early early' => KeyLt origin early.msg early'.msg
  near : ∀ early ∈ queue, (early.msg.seqnum - origin).num ≤ bound

namespace Sorted

variable {origin origin' : Seqnum} {bound d : ℕ} {queue queue' : List Packet}

theorem sublist (h : Sorted origin bound queue) (hsub : queue'.Sublist queue) :
    Sorted origin bound queue' :=
  ⟨h.sorted.sublist hsub, fun early hearly => h.near early (hsub.subset hearly)⟩

theorem mono (h : Sorted origin bound queue) {bound' : ℕ} (hle : bound ≤ bound') :
    Sorted origin bound' queue :=
  ⟨h.sorted, fun early hearly => (h.near early hearly).trans hle⟩

/-- Offsets that all change by the same. -/
theorem shift (h : Sorted origin bound queue) {bound' : ℕ} (hd : ∀ early ∈ queue,
    (early.msg.seqnum - origin').num + d = (early.msg.seqnum - origin).num)
    (hbound : bound ≤ bound' + d) : Sorted origin' bound' queue := by
  constructor
  · refine h.sorted.imp_of_mem fun {early early'} hearly hearly' hlt => ?_
    have hindex := hd early hearly
    have hindex' := hd early' hearly'
    unfold KeyLt at hlt ⊢
    omega
  · intro early hearly
    have hindex := hd early hearly
    have hnear := h.near early hearly
    omega

/-- The origin moves, and what it passes is gone. -/
theorem move (h : Sorted origin bound queue) (hd : (origin' - origin).num = d) {bound' : ℕ}
    (hpassed : ∀ early ∈ queue, d ≤ (early.msg.seqnum - origin).num)
    (hbound : bound ≤ bound' + d) : Sorted origin' bound' queue := by
  refine h.shift (fun early hearly => ?_) hbound
  have hge := hpassed early hearly
  rw [Seqnum.num_sub_sub early.msg.seqnum origin' origin, hd, if_pos hge]
  omega

/-- The same queue seen from an earlier origin. -/
theorem back (h : Sorted origin' bound queue) (hd : (origin' - origin).num = d)
    (hbound : bound + d < 2 ^ 14) : Sorted origin (bound + d) queue := by
  have hindex : ∀ early ∈ queue,
      (early.msg.seqnum - origin).num = (early.msg.seqnum - origin').num + d := by
    intro early hearly
    have hnear := h.near early hearly
    have hlt := Seqnum.num_lt (early.msg.seqnum - origin)
    have hsub := Seqnum.num_sub_sub early.msg.seqnum origin' origin
    rw [hd] at hsub
    split_ifs at hsub <;> omega
  constructor
  · refine h.sorted.imp_of_mem fun {early early'} hearly hearly' hlt => ?_
    unfold KeyLt at hlt ⊢
    rw [hindex early hearly, hindex early' hearly']
    omega
  · intro early hearly
    have hnear := h.near early hearly
    rw [hindex early hearly]
    omega

end Sorted

namespace Partner

/-- Where the scan stops, all before are smaller, and all behind are greater. -/
theorem findPrevious_spec (partner : Partner) (msg : Msg) {queue : List Packet} {prev : ℕ}
    (hsorted : queue.Pairwise fun early early' =>
      KeyLt partner.nextMatchRecvSeq early.msg early'.msg)
    (hprev : partner.findPrevious msg queue.reverse = some prev) :
    prev ≤ queue.length ∧
      (∀ early ∈ queue.take prev, KeyLt partner.nextMatchRecvSeq early.msg msg) ∧
        ∀ early ∈ queue.drop prev, KeyLt partner.nextMatchRecvSeq msg early.msg := by
  induction queue using List.reverseRecOn with
  | nil => cases hprev; exact ⟨le_rfl, nofun, nofun⟩
  | append_singleton queue current ih =>
      obtain ⟨hqueue, -, hcurrent⟩ := List.pairwise_append.1 hsorted
      have hbefore : ∀ early ∈ queue, KeyLt partner.nextMatchRecvSeq early.msg current.msg :=
        fun early hearly => hcurrent early hearly current (List.mem_singleton_self _)
      have hafter : KeyLt partner.nextMatchRecvSeq current.msg msg → prev = queue.length + 1 →
          prev ≤ (queue ++ [current]).length ∧
            (∀ early ∈ (queue ++ [current]).take prev,
              KeyLt partner.nextMatchRecvSeq early.msg msg) ∧
              ∀ early ∈ (queue ++ [current]).drop prev,
                KeyLt partner.nextMatchRecvSeq msg early.msg := by
        rintro hlt rfl
        rw [List.take_of_length_le (by simp), List.drop_eq_nil_of_le (by simp)]
        refine ⟨by simp, fun early hearly => ?_, nofun⟩
        rcases List.mem_append.1 hearly with hearly | hearly
        · exact (hbefore early hearly).trans hlt
        · obtain rfl := List.mem_singleton.1 hearly
          exact hlt
      have hgo : KeyLt partner.nextMatchRecvSeq msg current.msg →
          partner.findPrevious msg queue.reverse = some prev →
          prev ≤ (queue ++ [current]).length ∧
            (∀ early ∈ (queue ++ [current]).take prev,
              KeyLt partner.nextMatchRecvSeq early.msg msg) ∧
              ∀ early ∈ (queue ++ [current]).drop prev,
                KeyLt partner.nextMatchRecvSeq msg early.msg := by
        intro hlt hprev
        obtain ⟨hle, htake, hdrop⟩ := ih hqueue hprev
        rw [List.take_append_of_le_length hle, List.drop_append_of_le_length hle]
        refine ⟨hle.trans (by simp), htake, fun early hearly => ?_⟩
        rcases List.mem_append.1 hearly with hearly | hearly
        · exact hdrop early hearly
        · obtain rfl := List.mem_singleton.1 hearly
          exact hlt
      rw [List.reverse_append, List.reverse_singleton, List.singleton_append] at hprev
      unfold findPrevious at hprev
      rw [List.length_reverse] at hprev
      split_ifs at hprev with hlt hgt htype hfrag hfrag'
      · exact hafter (.inl hlt) (Option.some.inj hprev).symm
      · exact hgo (.inl hgt) hprev
      · exact hafter (.inr ⟨Nat.le_antisymm (Nat.not_lt.1 hgt) (Nat.not_lt.1 hlt), hfrag⟩)
          (Option.some.inj hprev).symm
      · exact hgo (.inr ⟨Nat.le_antisymm (Nat.not_lt.1 hlt) (Nat.not_lt.1 hgt), hfrag'⟩) hprev

/-! ## The origin -/

theorem increase_ne (seqnum : Seqnum) : seqnum.increase ≠ seqnum := by
  intro hsame
  have hone := Seqnum.num_increase_sub_self seqnum
  rw [hsame, Seqnum.num_sub_self] at hone
  cases hone

/-- The packet is matched, so that the next message is expected. -/
def Advances (partner : Partner) (msg : Msg) (outcome : Option Match) : Prop :=
  partner.matchIndex msg.seqnum = 0 ∧ (msg.type = .notify ∨ outcome ≠ some .failed)

instance (partner : Partner) (msg : Msg) (outcome : Option Match) :
    Decidable (partner.Advances msg outcome) := instDecidableAnd

theorem nextMatchRecvSeq_matchNext (partner : Partner) (msg : Msg) (ret : Match) :
    (partner.matchNext msg ret).nextMatchRecvSeq =
        (if ret = .failed then partner.nextMatchRecvSeq else partner.nextMatchRecvSeq.increase) ∧
      (partner.matchNext msg ret).earlyRecvQ = partner.earlyRecvQ := by
  unfold matchNext
  split
  · exact ⟨rfl, rfl⟩
  · exact ⟨rfl, rfl⟩

theorem nextMatchRecvSeq_continuePartialRequest (partner : Partner) (msg : Msg) :
    (partner.continuePartialRequest msg).nextMatchRecvSeq = partner.nextMatchRecvSeq ∧
      (partner.continuePartialRequest msg).earlyRecvQ = partner.earlyRecvQ := by
  unfold continuePartialRequest
  split <;> exact ⟨rfl, rfl⟩

theorem nextMatchRecvSeq_processOrderedRecv {partner partner' : Partner} {msg : Msg}
    {outcome : Option Match} (h : partner.processOrderedRecv msg outcome = some partner') :
    partner'.nextMatchRecvSeq =
        (if partner.Advances msg outcome then partner.nextMatchRecvSeq.increase
        else partner.nextMatchRecvSeq) ∧
      partner'.earlyRecvQ = partner.earlyRecvQ := by
  unfold processOrderedRecv at h
  split_ifs at h with hindex hnotify hfragment
  · obtain rfl := Option.some.inj h
    rw [if_pos ⟨hindex, .inl hnotify⟩]
    exact partner.nextMatchRecvSeq_matchNext msg .matched
  · obtain ⟨ret, rfl, rfl⟩ := Option.map_eq_some_iff.1 h
    refine ⟨(partner.nextMatchRecvSeq_matchNext msg ret).1.trans ?_,
      (partner.nextMatchRecvSeq_matchNext msg ret).2⟩
    by_cases hfailed : ret = .failed
    · rw [if_pos hfailed, if_neg]
      rintro ⟨-, htype | hne⟩
      · exact hnotify htype
      · exact hne (congrArg some hfailed)
    · rw [if_neg hfailed, if_pos ⟨hindex, .inr fun hsome => hfailed (Option.some.inj hsome)⟩]
  · obtain rfl := Option.some.inj h
    rw [if_neg fun hadvances => hindex hadvances.1]
    exact partner.nextMatchRecvSeq_continuePartialRequest msg
  · obtain rfl := Option.some.inj h
    rw [if_neg fun hadvances => hindex hadvances.1]
    exact ⟨rfl, rfl⟩

/-- The handler is asked for the expected message only. -/
theorem processOrderedRecv_eq_none {partner : Partner} {msg : Msg} {outcome : Option Match} :
    partner.processOrderedRecv msg outcome = none ↔
      partner.matchIndex msg.seqnum = 0 ∧ msg.type ≠ .notify ∧ outcome = none := by
  unfold processOrderedRecv
  constructor
  · intro h
    split_ifs at h with hindex hnotify
    exact ⟨hindex, hnotify, Option.map_eq_none_iff.1 h⟩
  · rintro ⟨hindex, hnotify, rfl⟩
    rw [if_pos hindex, if_neg hnotify]
    rfl

end Partner

/-! ## The copies -/

namespace State

/-- The packet has the data that it came with, in memory of its own or in the event. -/
def Owns (s : State) (early : Packet) : Prop :=
  match early.msg.type with
  | .small | .mediumFrag =>
      early.data = some early.id ∧ s.heap early.id = some (early.arrived.take early.msg.length)
  | .tiny | .rndv | .notify => early.data = none

/-- Packets that are in memory, each at its place. -/
structure Holds (s : State) (packets : List Packet) : Prop where
  owned : ∀ early ∈ packets, s.Owns early
  old : ∀ early ∈ packets, early.id < s.next
  distinct : (packets.map Packet.id).Nodup

theorem Owns.data_eq {s : State} {early : Packet} (h : s.Owns early) :
    early.data = none ∨ early.data = some early.id := by
  unfold Owns at h
  split at h
  · exact .inr h.1
  · exact .inr h.1
  · exact .inl h
  · exact .inl h
  · exact .inl h

/-- Memory that changes elsewhere. -/
theorem Owns.congr {s s' : State} {early : Packet} (h : s.Owns early)
    (hheap : s'.heap early.id = s.heap early.id) : s'.Owns early := by
  unfold Owns at h ⊢
  split at h
  · exact ⟨h.1, hheap.trans h.2⟩
  · exact ⟨h.1, hheap.trans h.2⟩
  · exact h
  · exact h
  · exact h

namespace Holds

variable {s s' : State} {packets packets' : List Packet}

theorem congr (h : s.Holds packets) (hheap : s'.heap = s.heap) (hnext : s'.next = s.next) :
    s'.Holds packets :=
  ⟨fun early hearly => (h.owned early hearly).congr (congrFun hheap _),
    fun early hearly => (h.old early hearly).trans_eq hnext.symm, h.distinct⟩

theorem perm (h : s.Holds packets) (hperm : packets.Perm packets') : s.Holds packets' :=
  ⟨fun early hearly => h.owned early (hperm.mem_iff.2 hearly),
    fun early hearly => h.old early (hperm.mem_iff.2 hearly),
    ((hperm.map Packet.id).nodup_iff).1 h.distinct⟩

/-- What a packet had is freed. -/
theorem free {early : Packet} (h : s.Holds (early :: packets)) : (s.free early).Holds packets := by
  have hdistinct := List.nodup_cons.1 h.distinct
  refine ⟨fun early' hearly' => ?_, fun early' hearly' => h.old early' (List.mem_cons_of_mem _ hearly'),
    hdistinct.2⟩
  refine (h.owned early' (List.mem_cons_of_mem _ hearly')).congr ?_
  have hne : early'.id ≠ early.id := fun heq => hdistinct.1 (heq ▸ List.mem_map_of_mem hearly')
  unfold State.free
  rcases (h.owned early (List.mem_cons_self ..)).data_eq with hdata | hdata
  · rw [hdata]
    rfl
  · rw [hdata]
    exact Function.update_of_ne hne ..

/-- Copies in memory of their own are in different places. -/
theorem data_nodup (h : s.Holds packets) : (packets.filterMap Packet.data).Nodup := by
  rw [List.Nodup, List.pairwise_filterMap]
  refine (List.pairwise_map.1 h.distinct).imp_of_mem ?_
  intro early early' hearly hearly' hne p hp p' hp'
  have hid : ∀ {early : Packet} {p : ℕ}, s.Owns early → early.data = some p → p = early.id := by
    intro early p howns hp
    rcases howns.data_eq with hdata | hdata
    · cases hdata.symm.trans hp
    · exact (Option.some.inj (hdata.symm.trans hp)).symm
  rw [hid (h.owned early hearly) hp, hid (h.owned early' hearly') hp']
  exact hne

end Holds

/-! ## Calls that wait -/

/-- The packet that a call has taken out of the queue. -/
def taken : Call → List Packet
  | .msg .. => []
  | .early _ _ early _ => [early]

/-- The packets in memory. -/
def packets (s : State) : List Packet := s.calls.flatMap taken ++ s.partner.earlyRecvQ

/-- A call waits for the expected message.  If it is in the loop, all that the loop has passed is
further ahead. -/
def Waits (s : State) : Call → Prop
  | .msg old msg => s.partner.nextMatchRecvSeq = old ∧ s.partner.matchIndex msg.seqnum = 0
  | .early old earlyIndexMax early next =>
      (s.partner.nextMatchRecvSeq - old).num = 1 ∧ earlyIndexMax = 1 ∧
        s.partner.matchIndex early.msg.seqnum = 0 ∧
          ∃ passed rest, s.partner.earlyRecvQ = passed ++ rest ∧
            next = rest.head?.map Packet.id ∧
              ∀ early' ∈ passed, 1 ≤ s.partner.matchIndex early'.msg.seqnum

/-- The expected message is not processed, and the partner not cleaned up, while a message of the
partner is with the handler. -/
def Alone (s : State) : Action → Prop
  | .recv msg _ staleAck _ _ =>
      s.calls ≠ [] → ¬ s.Stale msg staleAck → s.partner.matchIndex msg.seqnum ≠ 0
  | .partnerCleanup .. => s.calls = []
  | _ => True

instance (s : State) : DecidablePred s.Alone := fun a => by
  unfold Alone
  split <;> infer_instance

/-- What holds in every run. -/
structure InOrder (s : State) : Prop where
  sorted : Sorted s.partner.nextMatchRecvSeq earlyPacketOffsetMax s.partner.earlyRecvQ
  holds : s.Holds s.packets
  waits : s.calls = [] ∨ ∃ call, s.calls = [call] ∧ s.Waits call

theorem InOrder.queue_holds {s : State} (h : s.InOrder) : s.Holds s.partner.earlyRecvQ :=
  ⟨fun early hearly => h.holds.owned early (List.mem_append_right _ hearly),
    fun early hearly => h.holds.old early (List.mem_append_right _ hearly),
    h.holds.distinct.sublist ((List.sublist_append_right ..).map _)⟩

/-! ## The loop -/

/-- The loop is at `rest`; `old` was expected before the message that started it. -/
structure Looping (old : Seqnum) (rest : List Packet) (s : State) : Prop where
  sorted : Sorted old (earlyPacketOffsetMax + 1) s.partner.earlyRecvQ
  moved : (s.partner.nextMatchRecvSeq - old).num = 1 ∨ (s.partner.nextMatchRecvSeq - old).num = 2
  passed : ∃ passed, s.partner.earlyRecvQ = passed ++ rest ∧
    ∀ early ∈ passed, 2 ≤ (early.msg.seqnum - old).num
  holds : s.Holds s.partner.earlyRecvQ
  alone : s.calls = []

theorem earlyRecvQ_dequeue {s : State} {passed rest : List Packet} {early : Packet}
    (hqueue : s.partner.earlyRecvQ = passed ++ early :: rest)
    (hdistinct : (s.partner.earlyRecvQ.map Packet.id).Nodup) :
    (s.dequeue early).partner.earlyRecvQ = passed ++ rest := by
  have hbefore : ∀ early' ∈ passed, ¬ early'.id = early.id := by
    rw [hqueue, List.map_append] at hdistinct
    intro early' hearly' heq
    exact List.disjoint_of_nodup_append hdistinct (List.mem_map_of_mem hearly')
      (List.mem_map.2 ⟨early, List.mem_cons_self .., heq.symm⟩)
  show s.partner.earlyRecvQ.eraseP _ = _
  rw [hqueue, List.eraseP_append_right _ (by simpa using hbefore), List.eraseP_cons_of_pos (by simp)]

namespace Looping

variable {old : Seqnum} {early : Packet} {rest : List Packet} {s : State}

/-- The loop takes a packet out of the queue. -/
theorem dequeue (h : Looping old (early :: rest) s) :
    ∃ passed, (s.dequeue early).partner.earlyRecvQ = passed ++ rest ∧
      s.partner.earlyRecvQ = passed ++ early :: rest ∧
        ∀ early ∈ passed, 2 ≤ (early.msg.seqnum - old).num := by
  obtain ⟨passed, hqueue, hpassed⟩ := h.passed
  exact ⟨passed, earlyRecvQ_dequeue hqueue h.holds.distinct, hqueue, hpassed⟩

/-- Only the message after the one that started the loop can be expected, and only once. -/
theorem expects_iff (h : Looping old rest s) (htaken : (early.msg.seqnum - old).num ≤ 1) :
    s.partner.matchIndex early.msg.seqnum = 0 ↔
      (s.partner.nextMatchRecvSeq - old).num = 1 ∧ (early.msg.seqnum - old).num = 1 := by
  have hindex := Seqnum.num_sub_sub early.msg.seqnum s.partner.nextMatchRecvSeq old
  change s.partner.matchIndex early.msg.seqnum = _ at hindex
  rcases h.moved with hone | htwo
  · rw [hone] at hindex ⊢
    split_ifs at hindex <;> omega
  · rw [htwo] at hindex ⊢
    split_ifs at hindex <;> omega

/-- A packet that is further ahead stays. -/
theorem pass (h : Looping old (early :: rest) s) (hahead : ¬ (early.msg.seqnum - old).num ≤ 1) :
    Looping old rest s := by
  obtain ⟨passed, hqueue, hpassed⟩ := h.passed
  refine ⟨h.sorted, h.moved, ⟨passed ++ [early], by rw [hqueue, List.append_assoc]; rfl, ?_⟩,
    h.holds, h.alone⟩
  intro early' hearly'
  rcases List.mem_append.1 hearly' with hmem | hmem
  · exact hpassed early' hmem
  · rw [List.mem_singleton.1 hmem]
    omega

/-- A packet is processed. -/
theorem take (h : Looping old (early :: rest) s) (htaken : (early.msg.seqnum - old).num ≤ 1)
    {outcome : Option Match} {partner : Partner}
    (hpartner : (s.dequeue early).partner.processOrderedRecv early.msg outcome = some partner) :
    Looping old rest ({ s.dequeue early with partner }.free early) := by
  obtain ⟨passed, hqueue, hbefore, hpassed⟩ := h.dequeue
  obtain ⟨hnext, hsame⟩ := Partner.nextMatchRecvSeq_processOrderedRecv hpartner
  have hmiddle : s.partner.earlyRecvQ.Perm (early :: (passed ++ rest)) :=
    hbefore ▸ List.perm_middle
  have hsub : (passed ++ rest).Sublist s.partner.earlyRecvQ :=
    hbefore ▸ (List.sublist_cons_self ..).append_left _
  have hqueue' : partner.earlyRecvQ = passed ++ rest := hsame.trans hqueue
  refine ⟨?_, ?_, ⟨passed, hqueue', hpassed⟩, ?_, h.alone⟩
  · show Sorted old _ partner.earlyRecvQ
    rw [hqueue']
    exact h.sorted.sublist hsub
  · show (partner.nextMatchRecvSeq - old).num = 1 ∨ (partner.nextMatchRecvSeq - old).num = 2
    rw [hnext]
    split
    · rename_i hadvances
      obtain ⟨hone, -⟩ := (h.expects_iff htaken).1 hadvances.1
      refine .inr ?_
      show (s.partner.nextMatchRecvSeq.increase - old).num = 2
      rw [Seqnum.num_increase_sub (by omega), hone]
    · exact h.moved
  · show Holds _ partner.earlyRecvQ
    rw [hqueue']
    refine Holds.free (s := { s.dequeue early with partner }) ?_
    exact (h.holds.perm hmiddle).congr rfl rfl

/-- The handler is asked for it. -/
theorem callHandler (h : Looping old (early :: rest) s) (htaken : (early.msg.seqnum - old).num ≤ 1)
    {outcome : Option Match}
    (hnone : (s.dequeue early).partner.processOrderedRecv early.msg outcome = none) :
    ((s.dequeue early).callHandler (.early old 1 early (rest.head?.map Packet.id))).InOrder := by
  obtain ⟨passed, hqueue, hbefore, hpassed⟩ := h.dequeue
  have hindex : s.partner.matchIndex early.msg.seqnum = 0 :=
    (Partner.processOrderedRecv_eq_none.1 hnone).1
  obtain ⟨hone, hearly⟩ := (h.expects_iff htaken).1 hindex
  have hmiddle : s.partner.earlyRecvQ.Perm (early :: (passed ++ rest)) :=
    hbefore ▸ List.perm_middle
  have hsub : (passed ++ rest).Sublist s.partner.earlyRecvQ :=
    hbefore ▸ (List.sublist_cons_self ..).append_left _
  have hge : ∀ early' ∈ passed ++ rest, 1 ≤ (early'.msg.seqnum - old).num := by
    intro early' hearly'
    rcases List.mem_append.1 hearly' with hmem | hmem
    · exact Nat.le_of_succ_le (hpassed early' hmem)
    · have hsorted := h.sorted.sorted
      rw [hbefore] at hsorted
      have hlt := (List.pairwise_cons.1 (List.pairwise_append.1 hsorted).2.1).1 early' hmem
      exact hearly.symm.le.trans hlt.le
  refine ⟨?_, ?_, .inr ⟨_, congrArg (_ :: ·) h.alone, hone, rfl, hindex, passed, rest, hqueue, rfl, ?_⟩⟩
  · show Sorted _ _ (s.dequeue early).partner.earlyRecvQ
    rw [hqueue]
    exact (h.sorted.sublist hsub).move hone hge le_rfl
  · have hpackets : ((s.dequeue early).callHandler
        (.early old 1 early (rest.head?.map Packet.id))).packets = early :: (passed ++ rest) := by
      show ((_ :: s.calls).flatMap taken) ++ (s.dequeue early).partner.earlyRecvQ = _
      rw [h.alone, hqueue]
      rfl
    rw [hpackets]
    exact (h.holds.perm hmiddle).congr rfl rfl
  · intro early' hearly'
    have hfar := hpassed early' hearly'
    have hsub := Seqnum.num_sub_sub early'.msg.seqnum s.partner.nextMatchRecvSeq old
    rw [hone, if_pos (by omega)] at hsub
    show 1 ≤ (early'.msg.seqnum - s.partner.nextMatchRecvSeq).num
    omega

/-- The loop is at its end. -/
theorem done (h : Looping old [] s) : s.InOrder := by
  obtain ⟨passed, hqueue, hpassed⟩ := h.passed
  rw [List.append_nil] at hqueue
  refine ⟨?_, ?_, .inl h.alone⟩
  · rw [← hqueue] at hpassed
    rcases h.moved with hone | htwo
    · exact h.sorted.move hone (fun early hearly => Nat.le_of_succ_le (hpassed early hearly)) le_rfl
    · exact h.sorted.move htwo hpassed (by omega)
  · have hpackets : s.packets = s.partner.earlyRecvQ := by
      unfold packets
      rw [h.alone]
      rfl
    rw [hpackets]
    exact h.holds

theorem drain (h : Looping old rest s) (outcome : Msg → Option Match) :
    (s.drain old 1 outcome rest).InOrder := by
  induction rest generalizing s with
  | nil => exact h.done
  | cons early rest ih =>
      unfold State.drain
      split
      · rename_i htaken
        split
        · rename_i partner hpartner
          exact ih (h.take htaken hpartner)
        · rename_i hnone
          exact h.callHandler htaken hnone
      · rename_i hahead
        exact ih (h.pass hahead)

end Looping

/-! ## Steps -/

theorem calls_partnerCleanup (s : State) (nextMatch nextFrag : Seqnum) :
    (s.partnerCleanup nextMatch nextFrag).calls = s.calls := by
  have hfree : ∀ (queue : List Packet) (s : State), (queue.foldl free s).calls = s.calls := by
    intro queue
    induction queue with
    | nil => exact fun _ => rfl
    | cons early queue ih => exact fun s => ih (s.free early)
  exact hfree s.partner.earlyRecvQ s

namespace InOrder

variable {s s' : State}

/-- The queue, the origin and the memory stay as they are. -/
theorem congr (h : s.InOrder) (hnext : s'.partner.nextMatchRecvSeq = s.partner.nextMatchRecvSeq)
    (hqueue : s'.partner.earlyRecvQ = s.partner.earlyRecvQ) (hheap : s'.heap = s.heap)
    (hfresh : s'.next = s.next) (hcalls : s'.calls = s.calls) : s'.InOrder := by
  refine ⟨?_, ?_, ?_⟩
  · rw [hnext, hqueue]
    exact h.sorted
  · have hpackets : s'.packets = s.packets := by
      unfold packets
      rw [hcalls, hqueue]
    rw [hpackets]
    exact h.holds.congr hheap hfresh
  · rw [hcalls]
    refine h.waits.imp_right ?_
    rintro ⟨call, hcall, hwaits⟩
    refine ⟨call, hcall, ?_⟩
    unfold Waits Partner.matchIndex at hwaits ⊢
    rw [hnext, hqueue]
    exact hwaits

/-- A packet that is put between others is not where the loop of a call that waits goes on. -/
theorem waits_insert {early : Packet} {prev : ℕ}
    (hle : prev ≤ s.partner.earlyRecvQ.length)
    (hpos : 1 ≤ s.partner.matchIndex early.msg.seqnum) {call : Call} (hwaits : s.Waits call)
    (hnext : s'.partner.nextMatchRecvSeq = s.partner.nextMatchRecvSeq)
    (hqueue : s'.partner.earlyRecvQ =
      s.partner.earlyRecvQ.take prev ++ early :: s.partner.earlyRecvQ.drop prev) :
    s'.Waits call := by
  unfold Waits Partner.matchIndex at hwaits ⊢
  cases call with
  | msg old msg =>
      rw [hnext]
      exact hwaits
  | early old earlyIndexMax early' next =>
      obtain ⟨hone, hmax, hindex, passed, rest, hsplit, hhead, hpassed⟩ := hwaits
      dsimp only
      rw [hnext]
      refine ⟨hone, hmax, hindex, ?_⟩
      rcases le_or_gt prev passed.length with hbefore | hbehind
      · refine ⟨passed.take prev ++ early :: passed.drop prev, rest, ?_, hhead, ?_⟩
        · rw [hqueue, hsplit, List.take_append_of_le_length hbefore,
            List.drop_append_of_le_length hbefore, List.append_assoc]
          rfl
        · intro early₁ hearly₁
          rcases List.mem_append.1 hearly₁ with hmem | hmem
          · exact hpassed early₁ (List.mem_of_mem_take hmem)
          · rcases List.mem_cons.1 hmem with rfl | hmem
            · exact hpos
            · exact hpassed early₁ (List.mem_of_mem_drop hmem)
      · -- behind the packet where the loop goes on
        obtain ⟨k, rfl⟩ := Nat.exists_eq_add_of_lt hbehind
        cases rest with
        | nil =>
            rw [hsplit, List.append_nil] at hle
            omega
        | cons first rest =>
            refine ⟨passed, first :: (rest.take k ++ early :: rest.drop k), ?_, hhead, hpassed⟩
            have htake : (passed ++ first :: rest).take (passed.length + k + 1) =
                passed ++ first :: rest.take k := by
              rw [Nat.add_assoc, List.take_length_add_append, List.take_succ_cons]
            have hdrop : (passed ++ first :: rest).drop (passed.length + k + 1) = rest.drop k := by
              rw [Nat.add_assoc, List.drop_length_add_append, List.drop_succ_cons]
            rw [hqueue, hsplit, htake, hdrop, List.append_assoc]
            rfl

/-- A packet is put where the scan says, with its copy in new memory. -/
theorem addAfter (h : s.InOrder) {early : Packet} {prev : ℕ}
    (hprev : s.partner.findPrevious early.msg s.partner.earlyRecvQ.reverse = some prev)
    (hpos : 1 ≤ s.partner.matchIndex early.msg.seqnum)
    (hnear : s.partner.matchIndex early.msg.seqnum ≤ earlyPacketOffsetMax)
    (hpartner : s'.partner = s.partner) (hcalls : s'.calls = s.calls) (hnext : s'.next = s.next)
    (hheap : ∀ p, p < s.next → s'.heap p = s.heap p) (howns : s'.Owns early)
    (hid : early.id = s.next) : (s'.addAfter prev early).InOrder := by
  obtain ⟨hle, hbefore, hbehind⟩ :=
    s.partner.findPrevious_spec early.msg h.sorted.sorted hprev
  have hqueue : (s'.addAfter prev early).partner.earlyRecvQ =
      s.partner.earlyRecvQ.take prev ++ early :: s.partner.earlyRecvQ.drop prev := by
    rw [State.addAfter, hpartner]
  have horigin : (s'.addAfter prev early).partner.nextMatchRecvSeq =
      s.partner.nextMatchRecvSeq := by
    rw [State.addAfter, hpartner]
  have hperm : (s.partner.earlyRecvQ.take prev ++ early :: s.partner.earlyRecvQ.drop prev).Perm
      (early :: s.partner.earlyRecvQ) := by
    have hmiddle : (s.partner.earlyRecvQ.take prev ++ early :: s.partner.earlyRecvQ.drop prev).Perm
        (early :: (s.partner.earlyRecvQ.take prev ++ s.partner.earlyRecvQ.drop prev)) :=
      List.perm_middle
    rwa [List.take_append_drop] at hmiddle
  have hpackets : (s'.addAfter prev early).packets.Perm (early :: s.packets) := by
    unfold packets
    rw [hqueue]
    show (s'.calls.flatMap taken ++ _).Perm _
    rw [hcalls]
    exact (hperm.append_left _).trans List.perm_middle
  have hsorted := h.sorted.sorted
  rw [← List.take_append_drop prev s.partner.earlyRecvQ] at hsorted
  obtain ⟨htake, hdrop, hboth⟩ := List.pairwise_append.1 hsorted
  refine ⟨⟨?_, ?_⟩, Holds.perm ⟨?_, ?_, ?_⟩ hpackets.symm, ?_⟩
  · rw [hqueue, horigin]
    refine List.pairwise_append.2 ⟨htake, List.pairwise_cons.2 ⟨hbehind, hdrop⟩, ?_⟩
    intro early₁ hearly₁ early₂ hearly₂
    rcases List.mem_cons.1 hearly₂ with rfl | hearly₂
    · exact hbefore early₁ hearly₁
    · exact hboth early₁ hearly₁ early₂ hearly₂
  · rw [hqueue, horigin]
    intro early' hearly'
    rcases List.mem_cons.1 (hperm.mem_iff.1 hearly') with rfl | hearly'
    · exact hnear
    · exact h.sorted.near early' hearly'
  · intro early' hearly'
    rcases List.mem_cons.1 hearly' with rfl | hearly'
    · exact howns.congr rfl
    · exact (h.holds.owned early' hearly').congr (hheap _ (h.holds.old early' hearly'))
  · intro early' hearly'
    show early'.id < s'.next + 1
    rw [hnext]
    rcases List.mem_cons.1 hearly' with rfl | hearly'
    · exact hid.le.trans_lt (Nat.lt_succ_self _)
    · exact Nat.lt_succ_of_lt (h.holds.old early' hearly')
  · refine List.nodup_cons.2 ⟨fun hmem => ?_, h.holds.distinct⟩
    obtain ⟨early', hearly', heq⟩ := List.mem_map.1 hmem
    have hlt := h.holds.old early' hearly'
    omega
  · show s'.calls = [] ∨ ∃ call, s'.calls = [call] ∧ _
    rw [hcalls]
    refine h.waits.imp_right ?_
    rintro ⟨call, hcall, hwaits⟩
    exact ⟨call, hcall, waits_insert hle hpos hwaits horigin hqueue⟩

theorem postpone (h : s.InOrder) {msg : Msg} (hpos : 1 ≤ s.partner.matchIndex msg.seqnum)
    (hnear : s.partner.matchIndex msg.seqnum ≤ earlyPacketOffsetMax)
    (data : List UInt8) (allocated : Bool) : (s.postpone msg data allocated).InOrder := by
  have hcopy : ∀ prev msgLength, msg.type = .small ∨ msg.type = .mediumFrag →
      s.partner.findPrevious msg s.partner.earlyRecvQ.reverse = some prev →
      ((s.malloc (data.take msg.length)).addAfter prev
        ⟨s.next, msg, some s.next, msgLength, data⟩).InOrder := by
    intro prev msgLength htype hprev
    refine h.addAfter hprev hpos hnear rfl rfl rfl (fun p hp => Function.update_of_ne hp.ne ..) ?_ rfl
    have hheld : (s.malloc (data.take msg.length)).heap s.next = some (data.take msg.length) :=
      Function.update_self ..
    unfold Owns
    rcases htype with htype | htype
    · rw [htype]
      exact ⟨rfl, hheld⟩
    · rw [htype]
      exact ⟨rfl, hheld⟩
  unfold State.postpone
  split
  · exact h
  · rename_i prev hprev
    split
    · cases htype : msg.type with
      | small => exact hcopy prev msg.length (.inl htype) hprev
      | mediumFrag => exact hcopy prev msg.msgLength (.inr htype) hprev
      | tiny | rndv | notify =>
          refine h.addAfter hprev hpos hnear rfl rfl rfl (fun _ _ => rfl) ?_ rfl
          unfold Owns
          rw [htype]
    · exact h

/-- The loop starts when a message was matched. -/
theorem looping_start (h : s.InOrder) {partner : Partner}
    (hqueue : partner.earlyRecvQ = s.partner.earlyRecvQ)
    (hnext : partner.nextMatchRecvSeq = s.partner.nextMatchRecvSeq.increase)
    (halone : s.calls = []) :
    Looping s.partner.nextMatchRecvSeq s.partner.earlyRecvQ { s with partner } where
  sorted := by
    show Sorted _ _ partner.earlyRecvQ
    rw [hqueue]
    exact h.sorted.mono (Nat.le_succ _)
  moved := .inl (by
    show (partner.nextMatchRecvSeq - _).num = 1
    rw [hnext, Seqnum.num_increase_sub_self])
  passed := ⟨[], hqueue, nofun⟩
  holds := by
    show Holds _ partner.earlyRecvQ
    rw [hqueue]
    exact h.queue_holds.congr rfl rfl
  alone := halone

theorem processEarly_eq {partner : Partner} (hqueue : partner.earlyRecvQ = s.partner.earlyRecvQ)
    (hnext : partner.nextMatchRecvSeq = s.partner.nextMatchRecvSeq.increase)
    (outcome : Msg → Option Match) :
    { s with partner }.processEarly s.partner.nextMatchRecvSeq outcome =
      { s with partner }.drain s.partner.nextMatchRecvSeq 1 outcome s.partner.earlyRecvQ := by
  have hone : (partner.nextMatchRecvSeq - s.partner.nextMatchRecvSeq).num = 1 := by
    rw [hnext, Seqnum.num_increase_sub_self]
  have hne : partner.nextMatchRecvSeq ≠ s.partner.nextMatchRecvSeq :=
    hnext ▸ Partner.increase_ne _
  unfold State.processEarly
  rw [if_pos hne, hqueue, hone]

/-- A message is matched, or not, and the queue gone through. -/
theorem processEarly (h : s.InOrder) {partner : Partner}
    (hqueue : partner.earlyRecvQ = s.partner.earlyRecvQ)
    (hnext : partner.nextMatchRecvSeq = s.partner.nextMatchRecvSeq ∨
      partner.nextMatchRecvSeq = s.partner.nextMatchRecvSeq.increase ∧ s.calls = [])
    (outcome : Msg → Option Match) :
    ({ s with partner }.processEarly s.partner.nextMatchRecvSeq outcome).InOrder := by
  rcases hnext with hsame | ⟨hnext, halone⟩
  · unfold State.processEarly
    rw [if_neg (not_not.2 hsame)]
    exact h.congr hsame hqueue rfl rfl rfl
  · rw [processEarly_eq hqueue hnext]
    exact (h.looping_start hqueue hnext halone).drain outcome

/-- What is not processed in order is ahead of the expected message. -/
theorem matchIndex_eq {partner : Partner} {seqnum : Seqnum}
    (h : ¬ partner.fragIndex seqnum ≤ partner.fragIndexMax) :
    partner.matchIndex seqnum = partner.fragIndex seqnum - partner.fragIndexMax := by
  have hle : partner.fragIndexMax ≤ partner.fragIndex seqnum := Nat.le_of_not_le h
  exact (Seqnum.num_sub_sub seqnum partner.nextMatchRecvSeq partner.nextFragRecvSeq).trans
    (if_pos hle)

theorem processRecv (h : s.InOrder) {msg : Msg}
    (halone : s.calls ≠ [] → s.partner.matchIndex msg.seqnum ≠ 0) (data : List UInt8)
    (allocated : Bool) (outcome : Msg → Option Match) :
    (s.processRecv msg data allocated outcome).InOrder := by
  unfold State.processRecv
  dsimp only
  split
  · split
    · rename_i partner hpartner
      obtain ⟨hnext, hqueue⟩ := Partner.nextMatchRecvSeq_processOrderedRecv hpartner
      refine h.processEarly hqueue ?_ outcome
      split at hnext
      · rename_i hadvances
        exact .inr ⟨hnext, by_contra fun hcalls => halone hcalls hadvances.1⟩
      · exact .inl hnext
    · rename_i hnone
      have hindex := (Partner.processOrderedRecv_eq_none.1 hnone).1
      have hcalls : s.calls = [] := by_contra fun hcalls => halone hcalls hindex
      refine ⟨h.sorted, ?_, .inr ⟨_, congrArg (_ :: ·) hcalls, rfl, hindex⟩⟩
      exact h.holds.congr rfl rfl
  · rename_i hlate
    split
    · rename_i hnear
      have hindex := matchIndex_eq hlate
      exact h.postpone (by omega) (by omega) data allocated
    · exact h

/-- The packet where the loop goes on is still in the queue. -/
theorem earlyFrom_eq (h : s.InOrder) {passed rest : List Packet}
    (hqueue : s.partner.earlyRecvQ = passed ++ rest) :
    s.earlyFrom (rest.head?.map Packet.id) = some rest := by
  cases rest with
  | nil => rfl
  | cons first rest =>
      have hmem : first ∈ s.partner.earlyRecvQ := by
        rw [hqueue]
        exact List.mem_append_right _ (List.mem_cons_self ..)
      have hbefore : ∀ early ∈ passed, early.id ≠ first.id := by
        have hdistinct := h.queue_holds.distinct
        rw [hqueue, List.map_append] at hdistinct
        intro early hearly heq
        exact List.disjoint_of_nodup_append hdistinct (List.mem_map_of_mem hearly)
          (List.mem_map.2 ⟨first, List.mem_cons_self .., heq.symm⟩)
      show (if ∃ early ∈ s.partner.earlyRecvQ, early.id = first.id then _ else _) = _
      rw [if_pos ⟨first, hmem, rfl⟩, hqueue,
        List.dropWhile_append_of_pos (by simpa using hbefore), List.dropWhile_cons_of_neg (by simp)]

/-- A call that was to match the message that came is over. -/
theorem returned (h : s.InOrder) :
    InOrder { s with calls := [], progressionDisabled := false } :=
  ⟨h.sorted, h.queue_holds.congr rfl rfl, .inl rfl⟩

/-- Offsets while the call waits in the loop. -/
theorem num_sub_old (h : s.InOrder) {old : Seqnum}
    (hone : (s.partner.nextMatchRecvSeq - old).num = 1) {early : Packet}
    (hearly : early ∈ s.partner.earlyRecvQ) :
    (early.msg.seqnum - old).num = s.partner.matchIndex early.msg.seqnum + 1 := by
  have hnear := h.sorted.near early hearly
  have hlt := Seqnum.num_lt (early.msg.seqnum - old)
  have hsub := Seqnum.num_sub_sub early.msg.seqnum s.partner.nextMatchRecvSeq old
  have hfar : earlyPacketOffsetMax = 255 := rfl
  change s.partner.matchIndex early.msg.seqnum ≤ _ at hnear
  change s.partner.matchIndex early.msg.seqnum = _ at hsub
  rw [hone] at hsub
  split_ifs at hsub <;> omega

/-- The loop goes on with the packets behind the one that the handler looked at. -/
theorem looping_resume (h : s.InOrder) {old : Seqnum} {early : Packet} {next : Option ℕ}
    {earlyIndexMax : ℕ} (hcalls : s.calls = [.early old earlyIndexMax early next])
    {passed rest : List Packet} (hone : (s.partner.nextMatchRecvSeq - old).num = 1)
    (hqueue : s.partner.earlyRecvQ = passed ++ rest)
    (hpassed : ∀ early' ∈ passed, 1 ≤ s.partner.matchIndex early'.msg.seqnum) (ret : Match) :
    Looping old rest ({ s with
      calls := []
      progressionDisabled := false
      partner := s.partner.matchNext early.msg ret }.free early) := by
  obtain ⟨hnext, hsame⟩ := s.partner.nextMatchRecvSeq_matchNext early.msg ret
  refine ⟨?_, ?_, ⟨passed, hsame.trans hqueue, ?_⟩, ?_, rfl⟩
  · show Sorted _ _ (s.partner.matchNext early.msg ret).earlyRecvQ
    rw [hsame]
    exact h.sorted.back hone (by decide)
  · show ((s.partner.matchNext early.msg ret).nextMatchRecvSeq - old).num = 1 ∨
      ((s.partner.matchNext early.msg ret).nextMatchRecvSeq - old).num = 2
    rw [hnext]
    split
    · exact .inl hone
    · exact .inr (by rw [Seqnum.num_increase_sub (by omega), hone])
  · intro early' hearly'
    rw [h.num_sub_old hone (hqueue ▸ List.mem_append_left _ hearly')]
    exact Nat.succ_le_succ (hpassed early' hearly')
  · show Holds _ (s.partner.matchNext early.msg ret).earlyRecvQ
    rw [hsame]
    refine Holds.free (s := { s with
      calls := [], progressionDisabled := false, partner := s.partner.matchNext early.msg ret }) ?_
    have hpackets : s.packets = early :: s.partner.earlyRecvQ := by
      unfold packets
      rw [hcalls]
      rfl
    exact (hpackets ▸ h.holds).congr rfl rfl

theorem resume (h : s.InOrder) {call : Call} (hcalls : s.calls = [call]) (hwaits : s.Waits call)
    (ret : Match) {outcome : Msg → Option Match}
    (hresume : { s with calls := [], progressionDisabled := false }.resume outcome ret call =
      some s') : s'.InOrder := by
  cases call with
  | msg old msg =>
      obtain ⟨rfl, -⟩ := hwaits
      obtain rfl := Option.some.inj hresume
      obtain ⟨hnext, hqueue⟩ := s.partner.nextMatchRecvSeq_matchNext msg ret
      refine h.returned.processEarly (show (s.partner.matchNext msg ret).earlyRecvQ = _ from hqueue)
        ?_ outcome
      split at hnext
      · exact .inl hnext
      · exact .inr ⟨hnext, rfl⟩
  | early old earlyIndexMax early next =>
      obtain ⟨hone, rfl, -, passed, rest, hqueue, rfl, hpassed⟩ := hwaits
      have hrest := h.earlyFrom_eq hqueue
      unfold State.resume at hresume
      change (s.earlyFrom _).map _ = _ at hresume
      rw [hrest] at hresume
      obtain rfl := Option.some.inj hresume
      exact (h.looping_resume hcalls hone hqueue hpassed ret).drain outcome

theorem step (h : s.InOrder) {a : Action} (hok : s.Alone a) (hstep : Early.step s a = some s') :
    s'.InOrder := by
  cases a with
  | recv msg data staleAck allocated outcome =>
      unfold Early.step at hstep
      dsimp only at hstep
      split_ifs at hstep with hdisabled hstale
      · cases hstep
        exact h
      · cases hstep
        exact h.processRecv (fun hcalls => hok hcalls hstale) data allocated outcome
  | handlerReturn k ret outcome =>
      obtain ⟨call, hcall, hresume⟩ := Option.bind_eq_some_iff.1 hstep
      rcases h.waits with hnone | ⟨call', hcalls, hwaits⟩
      · rw [hnone] at hcall
        cases hcall
      · rw [hcalls] at hcall hresume
        obtain ⟨hk, rfl⟩ := List.getElem?_eq_some_iff.1 hcall
        obtain rfl : k = 0 := Nat.lt_one_iff.1 hk
        exact h.resume hcalls hwaits ret hresume
  | otherHandler called =>
      cases hstep
      exact h.congr rfl rfl rfl rfl rfl
  | partnerCleanup nextMatch nextFrag =>
      cases hstep
      have hcalls : s.calls = [] := hok
      have hnone := (s.calls_partnerCleanup nextMatch nextFrag).trans hcalls
      refine ⟨⟨.nil, nofun⟩, ?_, .inl hnone⟩
      have hempty : (s.partnerCleanup nextMatch nextFrag).packets = [] := by
        unfold packets
        rw [hnone]
        rfl
      rw [hempty]
      exact ⟨nofun, nofun, .nil⟩

end InOrder

theorem inOrder_init (nextMatch nextFrag : Seqnum) : (init nextMatch nextFrag).InOrder :=
  ⟨⟨.nil, nofun⟩, ⟨nofun, nofun, .nil⟩, .inl rfl⟩

end State

theorem inOrder_reaches {nextMatch nextFrag : Seqnum} {s : State}
    (h : (machine nextMatch nextFrag).Reaches State.Alone s) : s.InOrder :=
  h.invariant (State.inOrder_init nextMatch nextFrag) fun _ _ _ h hok hstep => h.step hok hstep

/-- In every run in which the expected message is not processed, nor the partner cleaned up, while a
message of the partner is with the handler, the early queue is strictly sorted by its keys, and
every packet has its own copy. -/
theorem earlyRecvQ_inOrder (nextMatch nextFrag : Seqnum) {s : State}
    (h : (machine nextMatch nextFrag).Reaches State.Alone s) :
    (s.partner.earlyRecvQ.Pairwise fun early early' =>
        KeyLt s.partner.nextMatchRecvSeq early.msg early'.msg) ∧
      (∀ early ∈ s.partner.earlyRecvQ, s.Owns early) ∧
        (s.partner.earlyRecvQ.filterMap Packet.data).Nodup := by
  have hinOrder := inOrder_reaches h
  exact ⟨hinOrder.sorted.sorted, hinOrder.queue_holds.owned, hinOrder.queue_holds.data_nodup⟩

/-- A tiny without data. -/
def tiny (seqnum : Seqnum) : Msg := ⟨.tiny, seqnum, 0, 0, 0, []⟩

/-- A packet comes whose message, like those of the queue, is matched at once. -/
def recvTiny (seqnum : Seqnum) : Action :=
  .recv (tiny seqnum) [] false true fun _ => some .matched

/-- The second fragment of message 0 comes, then the first, and 16383, which is expected and goes to
the handler; message 1 comes before it returns. -/
def wrapped : List Action :=
  [.recv ⟨.mediumFrag, 0, 1, 2, 6, []⟩ [3, 4] false true (fun _ => some .matched),
    .recv ⟨.mediumFrag, 0, 0, 2, 6, []⟩ [1, 2] false true (fun _ => some .matched),
    .recv (tiny 0x3fff) [] false true (fun _ => none), .otherHandler false, recvTiny 1]

theorem earlyRecvQ_inOrder_wrapped :
    ∃ s, (machine 0x3fff 0x3fff).exec (init 0x3fff 0x3fff) wrapped = some s ∧
      s.partner.earlyRecvQ.map (fun early => early.msg.fragSeqnum) = [0, 1, 0] ∧
        s.partner.earlyRecvQ.Pairwise fun early early' =>
          KeyLt s.partner.nextMatchRecvSeq early.msg early'.msg :=
  ⟨_, rfl, by decide, (earlyRecvQ_inOrder 0x3fff 0x3fff ⟨wrapped, by decide, rfl⟩).1⟩

/-- Message 2 came early, and goes to the handler when 1 was matched.  Under the handler the
endpoint sends to itself; 2 comes again and is matched, 4, 5 and 7 come early, and 3, with which 4
leaves the queue.  Then the first handler returns. -/
def reentered : List Action :=
  [recvTiny 2,
    .recv (tiny 1) [] false true (fun msg => if msg.seqnum = 2 then none else some .matched),
    .otherHandler true, .otherHandler false, recvTiny 2, recvTiny 4, recvTiny 5, recvTiny 7,
    recvTiny 3, .handlerReturn 0 .matched fun _ => some .matched]

/-- 6 is expected then, while 5 is in the queue before 7. -/
theorem earlyRecvQ_not_inOrder :
    ∃ s, (machine 1 1).exec (init 1 1) reentered = some s ∧
      s.partner.nextMatchRecvSeq = 6 ∧
        s.partner.earlyRecvQ.map (fun early => early.msg.seqnum) = [5, 7] ∧
          ¬ s.partner.earlyRecvQ.Pairwise fun early early' =>
            KeyLt s.partner.nextMatchRecvSeq early.msg early'.msg :=
  ⟨_, rfl, by decide, by decide, by decide⟩

end Xen2mx.Early
