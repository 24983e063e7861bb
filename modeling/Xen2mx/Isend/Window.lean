/-
# `Xen2mx.Isend.Window` — the requests of a partner that are not acknowledged

The window of a partner is from `next_acked_send_seq` to `next_send_seq`, and its requests
stand in `non_acked_req_q` in the order of their numbers.  All offsets are modulo 2^14.

    step            non_acked_req_q
    setup           one more at the end, the next number
    ack             what is before the ack leaves, and throttled requests come at the end
    nack            one leaves from anywhere

An ack that moves `next_acked_send_seq` by `n` takes the first `n` numbers, of which the nacked
ones are gone already.

**Proved here.**

    an ack in the window moves it by its offset, any other changes nothing
                                                      (`advances_handleAck`, `handleAck_of_not`)
    the queue stays in order, in every run of one session              (`ordered_sendMachine`)
    what all steps keep but the acks of a partner                    (`KeptInWindow.sendStep`)
    an ack in the window acknowledges as many more as its offset            (`Counted.handleAck`)
-/
import Xen2mx.Isend.Throttling

namespace Xen2mx.Isend

variable {ι : Type*}

/-! ## Numbers one after the other -/

theorem Seqnum.num_iterate_increase_sub {x y : Seqnum} {k : ℕ} (h : (x - y).num + k < 2 ^ 14) :
    (Seqnum.increase^[k] x - y).num = (x - y).num + k := by
  induction k with
  | zero => rfl
  | succ k ih =>
      have hk := ih (by omega)
      rw [Function.iterate_succ_apply', num_increase_sub (by omega), hk]
      rfl

/-- Offsets from two places. -/
theorem Seqnum.num_sub_sub (x y z : Seqnum) :
    (x - y).num = if (y - z).num ≤ (x - z).num then (x - z).num - (y - z).num
      else 2 ^ 14 + (x - z).num - (y - z).num := by
  rw [num_sub, num_sub x z, num_sub y z]
  split_ifs <;> omega

namespace Partner

/-- Requests as `omx__setup_*` posts them one after the other. -/
def numbered : Seqnum → List (Req ι) → List (Req ι)
  | _, [] => []
  | seqnum, req :: reqs => { req with sendSeqnum := seqnum } :: numbered seqnum.increase reqs

theorem map_number_numbered (seqnum : Seqnum) (reqs : List (Req ι)) :
    (numbered seqnum reqs).map Req.number = reqs.map Req.number := by
  induction reqs generalizing seqnum with
  | nil => rfl
  | cons req reqs ih =>
      rw [numbered, List.map_cons, List.map_cons, ih]

theorem mem_numbered {seqnum : Seqnum} {reqs : List (Req ι)} {req : Req ι}
    (h : req ∈ numbered seqnum reqs) :
    ∃ req' ∈ reqs, req.number = req'.number ∧ req.type = req'.type := by
  induction reqs generalizing seqnum with
  | nil => cases h
  | cons req' reqs ih =>
      rcases List.mem_cons.1 h with rfl | h
      · exact ⟨req', List.mem_cons_self .., rfl, rfl⟩
      · obtain ⟨req'', hreq'', heq⟩ := ih h
        exact ⟨req'', List.mem_cons_of_mem _ hreq'', heq⟩

theorem numbered_append (seqnum : Seqnum) (reqs reqs' : List (Req ι)) :
    numbered seqnum (reqs ++ reqs') =
      numbered seqnum reqs ++ numbered (Seqnum.increase^[reqs.length] seqnum) reqs' := by
  induction reqs generalizing seqnum with
  | nil => rfl
  | cons req reqs ih =>
      rw [List.cons_append, numbered, ih]
      rfl

/-- The throttled requests that go are numbered from `next_send_seq`. -/
theorem processThrottling_eq (nr : ℕ) (partner : Partner ι) :
    (partner.processThrottling nr).2.nonAckedReqQ =
        partner.nonAckedReqQ ++
          numbered partner.nextSendSeq (partner.needSeqnumSendReqQ.take nr) ∧
      (partner.processThrottling nr).2.nextSendSeq =
        Seqnum.increase^[min nr partner.needSeqnumSendReqQ.length] partner.nextSendSeq ∧
      (partner.processThrottling nr).2.nextAckedSendSeq = partner.nextAckedSendSeq ∧
      (partner.processThrottling nr).2.needSeqnumSendReqQ = partner.needSeqnumSendReqQ.drop nr := by
  induction nr generalizing partner with
  | zero => simp [processThrottling, numbered]
  | succ nr ih =>
      rw [processThrottling]
      split
      · rename_i hempty
        simp [hempty, numbered]
      · rename_i req queue hqueue
        obtain ⟨hqueue', hnext, hacked, hthrottled⟩ :=
          ih ({ partner with needSeqnumSendReqQ := queue }.setup req)
        refine ⟨?_, ?_, hacked, ?_⟩
        · rw [hqueue', hqueue, List.take_succ_cons, numbered]
          simp [setup]
        · rw [hnext, hqueue, List.length_cons, Nat.succ_min_succ, Function.iterate_succ_apply]
          rfl
        · rw [hthrottled, hqueue, List.drop_succ_cons]
          rfl

/-- `non_acked_req_q` is in the order of its offsets, up to `next_send_seq`. -/
structure Ordered (partner : Partner ι) : Prop where
  sorted : partner.nonAckedReqQ.Pairwise fun req req' => partner.reqIndex req < partner.reqIndex req'
  sent : ∀ req ∈ partner.nonAckedReqQ, partner.reqIndex req < partner.missingAcks

theorem Ordered.reset : (Partner.reset : Partner ι).Ordered := ⟨.nil, nofun⟩

theorem missingAcks_lt (partner : Partner ι) : partner.missingAcks < 2 ^ 14 := Seqnum.num_lt _

/-- Requests that are numbered one after the other are in order. -/
theorem numbered_sorted (start acked : Seqnum) (reqs : List (Req ι))
    (h : (start - acked).num + reqs.length < 2 ^ 14) :
    ((numbered start reqs).Pairwise fun req req' =>
        (req.sendSeqnum - acked).num < (req'.sendSeqnum - acked).num) ∧
      ∀ req ∈ numbered start reqs, (start - acked).num ≤ (req.sendSeqnum - acked).num ∧
        (req.sendSeqnum - acked).num < (start - acked).num + reqs.length := by
  induction reqs generalizing start with
  | nil => exact ⟨.nil, nofun⟩
  | cons req reqs ih =>
      rw [List.length_cons] at h
      have hnext : (start.increase - acked).num = (start - acked).num + 1 :=
        Seqnum.num_increase_sub (by omega)
      obtain ⟨hsorted, hmem⟩ := ih start.increase (by rw [hnext]; omega)
      rw [hnext] at hmem
      rw [numbered, List.length_cons]
      refine ⟨List.pairwise_cons.2 ⟨fun req' hreq' => ?_, hsorted⟩, fun req' hreq' => ?_⟩
      · have hlt := (hmem req' hreq').1
        exact hlt
      · rcases List.mem_cons.1 hreq' with rfl | hreq'
        · exact ⟨le_rfl, by dsimp only; omega⟩
        · have hbounds := hmem req' hreq'
          omega

/-! ## Acks -/

variable (partner : Partner ι)

/-- How far an ack is from the last one. -/
def newAcks (ackBefore : Seqnum) : ℕ := (ackBefore - partner.nextAckedSendSeq).num

/-- The ack is of some number that was sent, and is the first of it. -/
def InWindow (ackBefore : Seqnum) : Prop :=
  partner.newAcks ackBefore ≠ 0 ∧ partner.newAcks ackBefore ≤ partner.missingAcks

instance : DecidablePred partner.InWindow := fun _ => instDecidableAnd

/-- What `omx__handle_ack` does to the queues of the partner. -/
def handleAck (ackBefore : Seqnum) : Partner ι :=
  if partner.newAcks ackBefore = 0 ∨ partner.missingAcks < partner.newAcks ackBefore then partner
  else
    let loop := processThrottling (partner.newAcks ackBefore)
      { partner with
        nonAckedReqQ := partner.nonAckedReqQ.dropWhile fun req =>
          partner.reqIndex req < partner.newAcks ackBefore
        nextAckedSendSeq := ackBefore }
    { loop.2 with throttlingSendsNr := loop.2.throttlingSendsNr - loop.1 }

/-- `partner'` is `partner` with the first `n` numbers acknowledged. -/
structure Advances (n : ℕ) (partner' : Partner ι) : Prop where
  acked : (partner'.nextAckedSendSeq - partner.nextAckedSendSeq).num = n
  sent : partner'.nextSendSeq =
    Seqnum.increase^[min n partner.needSeqnumSendReqQ.length] partner.nextSendSeq
  queue : partner'.nonAckedReqQ =
    (partner.nonAckedReqQ.filter fun req => n ≤ partner.reqIndex req) ++
      numbered partner.nextSendSeq (partner.needSeqnumSendReqQ.take n)
  throttled : partner'.needSeqnumSendReqQ = partner.needSeqnumSendReqQ.drop n

variable {partner} {partner' partner'' : Partner ι} {n m : ℕ}

theorem handleAck_of_not {ackBefore : Seqnum} (h : ¬ partner.InWindow ackBefore) :
    partner.handleAck ackBefore = partner := by
  unfold handleAck
  refine if_pos ?_
  rcases not_and_or.1 h with h | h
  · exact .inl (not_not.1 h)
  · exact .inr (Nat.lt_of_not_le h)

/-- In order, the requests that the loop comes to first are all that it takes. -/
theorem dropWhile_eq_filter {queue : List (Req ι)}
    (h : queue.Pairwise fun req req' => partner.reqIndex req < partner.reqIndex req') (n : ℕ) :
    (queue.dropWhile fun req => partner.reqIndex req < n) =
      queue.filter fun req => n ≤ partner.reqIndex req := by
  induction queue with
  | nil => rfl
  | cons req queue ih =>
      obtain ⟨hreq, hqueue⟩ := List.pairwise_cons.1 h
      by_cases hlt : partner.reqIndex req < n
      · rw [List.dropWhile_cons_of_pos (by simpa using hlt), ih hqueue,
          List.filter_cons_of_neg (by simpa using hlt)]
      · have hle := Nat.le_of_not_lt hlt
        rw [List.dropWhile_cons_of_neg (by simpa using hlt), eq_comm, List.filter_eq_self]
        intro req' hreq'
        rcases List.mem_cons.1 hreq' with rfl | hreq'
        · exact decide_eq_true hle
        · exact decide_eq_true (hle.trans (hreq req' hreq').le)

theorem advances_handleAck (h : partner.Ordered) {ackBefore : Seqnum}
    (hwindow : partner.InWindow ackBefore) :
    partner.Advances (partner.newAcks ackBefore) (partner.handleAck ackBefore) := by
  unfold handleAck
  rw [if_neg (not_or.2 ⟨hwindow.1, Nat.not_lt.2 hwindow.2⟩), dropWhile_eq_filter h.sorted]
  obtain ⟨hqueue, hnext, hacked, hthrottled⟩ :=
    processThrottling_eq (partner.newAcks ackBefore)
      { partner with
        nonAckedReqQ := partner.nonAckedReqQ.filter fun req =>
          partner.newAcks ackBefore ≤ partner.reqIndex req
        nextAckedSendSeq := ackBefore }
  exact ⟨congrArg (fun a => (a - partner.nextAckedSendSeq).num) hacked, hnext, hqueue, hthrottled⟩

theorem Advances.refl (partner : Partner ι) : partner.Advances 0 partner where
  acked := Seqnum.num_sub_self _
  sent := by rw [Nat.zero_min]; rfl
  queue := by
    rw [List.take_zero, numbered, List.append_nil, List.filter_eq_self.2]
    exact fun req _ => decide_eq_true (Nat.zero_le _)
  throttled := rfl

namespace Advances

variable (h : partner.Advances n partner')
include h

theorem reqIndex_eq {req : Req ι} (hle : n ≤ partner.reqIndex req) :
    partner'.reqIndex req = partner.reqIndex req - n := by
  have hacked := h.acked
  have heq := Seqnum.num_sub_ack (hacked.trans_le hle)
  rw [hacked] at heq
  exact heq

/-- Where the requests that go stand after the ack. -/
theorem missingAcks_eq (hle : n ≤ partner.missingAcks) :
    ((partner.nextSendSeq - partner'.nextAckedSendSeq).num = partner.missingAcks - n) ∧
      partner'.missingAcks =
        partner.missingAcks - n + min n partner.needSeqnumSendReqQ.length := by
  have hlt := partner.missingAcks_lt
  have hnext := Seqnum.num_sub_ack (h.acked.trans_le hle)
  rw [h.acked] at hnext
  refine ⟨hnext, ?_⟩
  rw [missingAcks, h.sent, Seqnum.num_iterate_increase_sub, hnext]
  · rfl
  · rw [hnext]
    change partner.missingAcks - n + _ < _
    omega

theorem new (hle : n ≤ partner.missingAcks) :
    ((numbered partner.nextSendSeq (partner.needSeqnumSendReqQ.take n)).Pairwise
        fun req req' => partner'.reqIndex req < partner'.reqIndex req') ∧
      ∀ req ∈ numbered partner.nextSendSeq (partner.needSeqnumSendReqQ.take n),
        partner.missingAcks - n ≤ partner'.reqIndex req ∧
          partner'.reqIndex req < partner'.missingAcks := by
  obtain ⟨hnext, hmissing⟩ := h.missingAcks_eq hle
  have hlt := partner.missingAcks_lt
  have hnumbered := numbered_sorted partner.nextSendSeq partner'.nextAckedSendSeq
    (partner.needSeqnumSendReqQ.take n) (by rw [hnext, List.length_take]; omega)
  rw [hnext, List.length_take, ← hmissing] at hnumbered
  exact hnumbered

theorem ordered (hordered : partner.Ordered) (hle : n ≤ partner.missingAcks) :
    partner'.Ordered := by
  obtain ⟨hsorted, hnew⟩ := h.new hle
  have hmissing := (h.missingAcks_eq hle).2
  have hmem : ∀ {req}, req ∈ partner.nonAckedReqQ.filter (fun req => n ≤ partner.reqIndex req) →
      partner'.reqIndex req = partner.reqIndex req - n ∧ n ≤ partner.reqIndex req ∧
        partner.reqIndex req < partner.missingAcks := by
    intro req hreq
    obtain ⟨hreq, hge⟩ := List.mem_filter.1 hreq
    have hge := of_decide_eq_true hge
    exact ⟨h.reqIndex_eq hge, hge, hordered.sent req hreq⟩
  constructor
  · rw [h.queue, List.pairwise_append]
    refine ⟨?_, hsorted, fun req hreq req' hreq' => ?_⟩
    · refine (hordered.sorted.filter _).imp_of_mem fun hreq hreq' hlt => ?_
      rw [(hmem hreq).1, (hmem hreq').1]
      have hge := (hmem hreq).2.1
      omega
    · have hold := hmem hreq
      have hge := (hnew req' hreq').1
      omega
  · intro req hreq
    rw [h.queue] at hreq
    rcases List.mem_append.1 hreq with hreq | hreq
    · have hold := hmem hreq
      omega
    · exact (hnew req hreq).2

/-- What a second ack, further than the first, leaves. -/
theorem filter_queue (hle : n + m ≤ partner.missingAcks) :
    (partner'.nonAckedReqQ.filter fun req => m ≤ partner'.reqIndex req) =
      (partner.nonAckedReqQ.filter fun req => n + m ≤ partner.reqIndex req) ++
        numbered partner.nextSendSeq (partner.needSeqnumSendReqQ.take n) := by
  have hnew := (h.new (by omega)).2
  rw [h.queue, List.filter_append, List.filter_filter]
  congr 1
  · refine List.filter_congr fun req _ => ?_
    rw [Bool.eq_iff_iff, Bool.and_eq_true, decide_eq_true_eq, decide_eq_true_eq, decide_eq_true_eq]
    constructor
    · rintro ⟨hm, hn⟩
      rw [h.reqIndex_eq hn] at hm
      omega
    · intro hnm
      have hn : n ≤ partner.reqIndex req := by omega
      rw [h.reqIndex_eq hn]
      omega
  · refine List.filter_eq_self.2 fun req hreq => decide_eq_true ?_
    have hge := (hnew req hreq).1
    omega

/-- Two acks, the second further than the first, come to the second. -/
theorem trans (h' : partner'.Advances m partner'') (hle : n + m ≤ partner.missingAcks) :
    partner.Advances (n + m) partner'' := by
  have hlt := partner.missingAcks_lt
  refine ⟨?_, ?_, ?_, ?_⟩
  · have hfirst := h.acked
    have hsecond := h'.acked
    rw [Seqnum.num_sub] at hfirst hsecond ⊢
    omega
  · rw [h'.sent, h.sent, ← Function.iterate_add_apply, h.throttled, List.length_drop]
    congr 2
    omega
  · rw [h'.queue, h.filter_queue hle, List.take_add, numbered_append, List.append_assoc, h.sent,
      h.throttled, List.length_take]
  · rw [h'.throttled, h.throttled, List.drop_drop]

end Advances

/-! ## One session -/

namespace Ordered

variable {partner partner' : Partner ι} (h : partner.Ordered)
include h

theorem congr (hqueue : partner'.nonAckedReqQ = partner.nonAckedReqQ)
    (hnext : partner'.nextSendSeq = partner.nextSendSeq)
    (hacked : partner'.nextAckedSendSeq = partner.nextAckedSendSeq) : partner'.Ordered := by
  obtain ⟨hsorted, hsent⟩ := h
  constructor
  · unfold reqIndex
    rw [hqueue, hacked]
    exact hsorted
  · unfold reqIndex missingAcks
    rw [hqueue, hacked, hnext]
    exact hsent

theorem setup (req : Req ι) (hlt : partner.missingAcks + 1 < 2 ^ 14) :
    (partner.setup req).Ordered := by
  have hmissing := missingAcks_setup req hlt
  constructor
  · refine List.pairwise_append.2
      ⟨h.sorted, List.pairwise_singleton .., fun req' hreq' req'' hreq'' => ?_⟩
    obtain rfl := List.mem_singleton.1 hreq''
    exact h.sent req' hreq'
  · intro req' hreq'
    rw [hmissing]
    rcases List.mem_append.1 hreq' with hreq' | hreq'
    · exact (h.sent req' hreq').trans (Nat.lt_succ_self _)
    · obtain rfl := List.mem_singleton.1 hreq'
      exact Nat.lt_succ_self _

theorem handleAck (ackBefore : Seqnum) : (partner.handleAck ackBefore).Ordered := by
  by_cases hwindow : partner.InWindow ackBefore
  · exact (advances_handleAck h hwindow).ordered h hwindow.2
  · rw [handleAck_of_not hwindow]
    exact h

/-- A nack takes one request out. -/
theorem handleNack (seqnum : Seqnum) : (partner.handleNack seqnum).Ordered := by
  have hloop : ∀ nackIndex queue, (partner.nackLoop nackIndex queue).Sublist queue := by
    intro nackIndex queue
    induction queue with
    | nil => exact .slnil
    | cons req queue ih =>
        unfold nackLoop
        split_ifs
        · exact List.Sublist.refl _
        · exact List.sublist_cons_self ..
        · exact ih.cons_cons req
  unfold Partner.handleNack
  split
  · exact h
  · exact ⟨h.sorted.sublist (hloop _ _), fun req hreq => h.sent req ((hloop _ _).subset hreq)⟩

end Ordered

end Partner

namespace Endpoint

variable [DecidableEq ι]

theorem partner_handleAck (ep : Endpoint ι) (i : ι) (ackBefore : Seqnum) :
    (ep.handleAck i ackBefore).partner =
      (ep.setPartner i ((ep.partner i).handleAck ackBefore)).partner := by
  unfold handleAck Partner.handleAck Partner.newAcks
  dsimp only
  split
  · exact (Function.update_eq_self ..).symm
  · unfold processThrottlingRequests
    simp only [setPartner_self]
    split <;> exact Function.update_idem ..

end Endpoint

/-- Setting up a request keeps `P` while the window is open, and neither nacks nor the requests that
wait have a part in it. -/
structure KeptInWindow (P : Partner ι → Prop) : Prop where
  setup : ∀ partner req, partner.missingAcks + 1 < 2 ^ 14 → P partner → P (partner.setup req)
  waiting : ∀ (partner : Partner ι) needSeqnumSendReqQ throttlingSendsNr, P partner →
    P { partner with needSeqnumSendReqQ, throttlingSendsNr }
  nacked : ∀ partner seqnum, P partner → P (partner.handleNack seqnum)

namespace KeptInWindow

variable [DecidableEq ι] {P : Partner ι → Prop} {ep ep' : Endpoint ι} {i : ι}

theorem setPartner {j : ι} {partner : Partner ι} (h : P (ep.partner i))
    (hpartner : i = j → P partner) : P ((ep.setPartner j partner).partner i) := by
  by_cases hj : i = j
  · rw [← hj, Endpoint.setPartner_self]
    exact hpartner hj
  · rw [Endpoint.setPartner_of_ne _ hj]
    exact h

theorem setupOrThrottle (hP : KeptInWindow P) (req : Req ι) (h : P (ep.partner i)) :
    P ((ep.setupOrThrottle req).partner i) := by
  unfold Endpoint.setupOrThrottle
  split
  · unfold Endpoint.throttle
    dsimp only
    split
    all_goals
      refine setPartner (P := P) h ?_
      rintro rfl
      exact hP.waiting _ _ _ h
  · rename_i hopen
    refine setPartner h ?_
    rintro rfl
    have hmax := Partner.throttlingOffsetMax_lt
    exact hP.setup _ _ (by omega) h

theorem allocSetup (hP : KeptInWindow P) {req : Req ι} {granted : Bool} (h : P (ep.partner i))
    (hsome : ep.allocSetup req granted = some ep') : P (ep'.partner i) := by
  unfold Endpoint.allocSetup at hsome
  split at hsome
  · cases hsome
  · split at hsome
    · cases hsome
      exact h
    · cases hsome
      exact hP.setupOrThrottle req h

theorem allocSetupOrDelay (hP : KeptInWindow P) (req : Req ι) (granted : Bool)
    (h : P (ep.partner i)) : P ((ep.allocSetupOrDelay req granted).partner i) := by
  unfold Endpoint.allocSetupOrDelay
  cases hsome : ep.allocSetup req granted with
  | none => exact h
  | some ep' => exact hP.allocSetup h hsome

theorem delayedLoop (hP : KeptInWindow P) {queue : List (Req ι)} {granted : List Bool}
    (h : P (ep.partner i)) : P ((Endpoint.delayedLoop queue granted ep).partner i) := by
  induction queue generalizing granted ep with
  | nil => exact h
  | cons req queue ih =>
      unfold Endpoint.delayedLoop
      split
      · rename_i ep' hsome
        exact ih (hP.allocSetup h hsome)
      · exact h

/-- Every step does, but for an ack of the partner. -/
theorem sendStep (hP : KeptInWindow P) {a : SendAction ι}
    (hack : ∀ ackBefore, a ≠ .handleAck i ackBefore) (h : P (ep.partner i))
    (hstep : Isend.sendStep ep a = some ep') : P (ep'.partner i) := by
  cases a with
  | isend j type granted =>
      obtain ⟨-, heq⟩ := Option.ite_none_left_eq_some.1 hstep
      cases heq
      unfold Endpoint.submitIsend
      dsimp only
      split
      · exact hP.allocSetupOrDelay _ granted h
      · exact h
  | submitPull j granted =>
      cases hstep
      exact hP.allocSetupOrDelay _ granted h
  | submitNotify j delayed =>
      cases hstep
      unfold Endpoint.submitNotify
      dsimp only
      split
      · exact h
      · exact hP.setupOrThrottle _ h
  | processDelayedRequests granted =>
      cases hstep
      exact hP.delayedLoop h
  | handleAck j ackBefore =>
      cases hstep
      rw [Endpoint.partner_handleAck]
      refine setPartner h ?_
      rintro rfl
      exact absurd rfl (hack ackBefore)
  | handleNack j seqnum =>
      cases hstep
      refine setPartner h ?_
      rintro rfl
      exact hP.nacked _ seqnum h

end KeptInWindow

theorem Partner.Ordered.kept : KeptInWindow (Partner.Ordered (ι := ι)) where
  setup := fun _ req hlt h => h.setup req hlt
  waiting := fun _ _ _ h => h.congr rfl rfl rfl
  nacked := fun _ seqnum h => h.handleNack seqnum

/-- The queue of a partner stays in order. -/
theorem Partner.Ordered.sendStep [DecidableEq ι] {ep ep' : Endpoint ι} {a : SendAction ι} {i : ι}
    (h : (ep.partner i).Ordered) (hstep : Isend.sendStep ep a = some ep') :
    (ep'.partner i).Ordered := by
  by_cases hack : ∃ ackBefore, a = .handleAck i ackBefore
  · obtain ⟨ackBefore, rfl⟩ := hack
    cases hstep
    rw [Endpoint.partner_handleAck, Endpoint.setPartner_self]
    exact h.handleAck ackBefore
  · exact Partner.Ordered.kept.sendStep (not_exists.1 hack) h hstep

/-- In order from the beginning of a session. -/
theorem ordered_sendMachine [DecidableEq ι] (start : ι → Seqnum) {trace : List (SendAction ι)}
    {ep : Endpoint ι} (hexec : (sendMachine start).exec (sendMachine start).init trace = some ep)
    (i : ι) : (ep.partner i).Ordered := by
  refine (sendMachine start).exec_invariant (I := fun ep => (ep.partner i).Ordered) ?_ ?_ hexec
  · exact fun _ _ _ h hstep => h.sendStep hstep
  · exact ⟨.nil, nofun⟩

/-! ## How many are acknowledged -/

/-- `k` of the requests are acknowledged, and the others are in the window. -/
def Partner.Counted (k : ℕ) (partner : Partner ι) : Prop :=
  partner.submitted.length = k + partner.missingAcks

theorem Partner.Counted.kept (k : ℕ) : KeptInWindow (Partner.Counted (ι := ι) k) where
  setup := by
    intro partner req hlt h
    show partner.submitted.length + 1 = k + (partner.setup req).missingAcks
    rw [missingAcks_setup req hlt, h]
    rfl
  waiting := fun _ _ _ h => h
  nacked := by
    intro partner seqnum h
    unfold Partner.handleNack
    split
    · exact h
    · exact h

theorem Partner.length_submitted_processThrottling (nr : ℕ) (partner : Partner ι) :
    (partner.processThrottling nr).2.submitted.length =
      partner.submitted.length + min nr partner.needSeqnumSendReqQ.length := by
  induction nr generalizing partner with
  | zero => rw [Nat.zero_min]; rfl
  | succ nr ih =>
      rw [processThrottling]
      split
      · rename_i hempty
        rw [hempty, List.length_nil, Nat.min_zero]
        rfl
      · rename_i req queue hqueue
        refine (ih _).trans ?_
        show partner.submitted.length + 1 + min nr queue.length = _
        rw [hqueue, List.length_cons, Nat.succ_min_succ, Nat.succ_eq_add_one]
        omega

/-- An ack in the window acknowledges as many more. -/
theorem Partner.Counted.handleAck {k : ℕ} {partner : Partner ι} (h : partner.Counted k)
    (hordered : partner.Ordered) {ackBefore : Seqnum} (hwindow : partner.InWindow ackBefore) :
    (partner.handleAck ackBefore).Counted (k + partner.newAcks ackBefore) := by
  have hadvances := advances_handleAck hordered hwindow
  have hmissing := (hadvances.missingAcks_eq hwindow.2).2
  have hlength : (partner.handleAck ackBefore).submitted.length = partner.submitted.length +
      min (partner.newAcks ackBefore) partner.needSeqnumSendReqQ.length := by
    unfold Partner.handleAck
    rw [if_neg (not_or.2 ⟨hwindow.1, Nat.not_lt.2 hwindow.2⟩)]
    exact length_submitted_processThrottling ..
  have hle := hwindow.2
  unfold Counted at h ⊢
  rw [hlength, hmissing, h]
  omega

end Xen2mx.Isend
