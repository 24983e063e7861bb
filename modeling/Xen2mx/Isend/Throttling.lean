/-
# `Xen2mx.Isend.Throttling` — the window of unacknowledged sends

A partner that has acknowledged all but `OMX__THROTTLING_OFFSET_MAX` sends gets no further one:
they wait in its own queue, counted in `throttling_sends_nr`, and the endpoint keeps a list
of the partners with such a queue.  Each new ack lets one of them go.

    quantity                     changed by
    next - next_acked            setup, ack, reset of the sequence numbers
    need_seqnum_send_req_q       throttle, ack, cleanup
    throttling_sends_nr          throttle, ack, reset of the partner
    throttling_partners_list     throttle, ack

The cleanup of a partner empties the queue and resets the count, but leaves the partner on
the list; and a connect that finds a new session resets the numbers, but leaves the queue,
if the old session was never connected back (`NoneThrottled`).

**Proved here.**

    nothing is throttled where a partner is reset  ⟹  the four quantities agree in every
        state reached, and the window is kept      (`throttling_agrees`)
-/
import Xen2mx.Isend.Partner

namespace Xen2mx.Isend

variable {ι : Type*}

/-! ## Sequence numbers -/

namespace Seqnum

theorem num_eq (x : Seqnum) : x.num = x.toNat % 2 ^ 14 := by
  rw [num, BitVec.toNat_and]
  exact Nat.and_two_pow_sub_one_eq_mod x.toNat 14

theorem increase_and (x : Seqnum) : x.increase &&& 0x3fff#16 = (x + 1) &&& 0x3fff#16 := by
  have hsesnum : x.sesnum &&& 0x3fff#16 = 0 := by
    rw [sesnum, BitVec.and_assoc]
    exact BitVec.and_zero
  rw [increase, BitVec.and_comm, BitVec.and_or_distrib_left, BitVec.and_comm, hsesnum,
    BitVec.and_comm, BitVec.and_assoc, BitVec.and_self]
  exact BitVec.zero_or

theorem toNat_increase (x : Seqnum) : x.increase.toNat % 2 ^ 14 = (x.toNat + 1) % 2 ^ 14 := by
  have hnum : x.increase.num = (x + 1).num := congrArg BitVec.toNat x.increase_and
  rw [num_eq, num_eq, BitVec.toNat_add] at hnum
  rw [hnum]
  exact Nat.mod_mod_of_dvd _ ⟨4, rfl⟩

theorem num_sub (x y : Seqnum) :
    (x - y).num = (2 ^ 14 - y.toNat % 2 ^ 14 + x.toNat % 2 ^ 14) % 2 ^ 14 := by
  have hx := x.isLt
  have hy := y.isLt
  rw [num_eq, BitVec.toNat_sub]
  omega

theorem num_lt (x : Seqnum) : x.num < 2 ^ 14 := by
  rw [num_eq]
  exact Nat.mod_lt _ (by decide)

@[simp] theorem num_sub_self (x : Seqnum) : (x - x).num = 0 := by
  rw [num_sub]
  omega

theorem num_increase_sub {x y : Seqnum} (h : (x - y).num + 1 < 2 ^ 14) :
    (x.increase - y).num = (x - y).num + 1 := by
  have hx := x.toNat_increase
  rw [num_sub] at h ⊢
  rw [num_sub]
  omega

theorem num_increase_sub_le (x y : Seqnum) : (x.increase - y).num ≤ (x - y).num + 1 := by
  have hx := x.toNat_increase
  rw [num_sub, num_sub]
  omega

theorem num_increase_sub_self (x : Seqnum) : (x.increase - x).num = 1 := by
  rw [num_increase_sub (by rw [num_sub_self]; decide), num_sub_self]

/-- What is missing after an ack. -/
theorem num_sub_ack {next acked ack : Seqnum} (h : (ack - acked).num ≤ (next - acked).num) :
    (next - ack).num = (next - acked).num - (ack - acked).num := by
  rw [num_sub, num_sub] at h ⊢
  rw [num_sub]
  omega

end Seqnum

/-! ## One partner -/

namespace Partner

/-- The window, the queue and the count of a partner. -/
structure Within (partner : Partner ι) : Prop where
  window : partner.missingAcks ≤ throttlingOffsetMax
  full : partner.needSeqnumSendReqQ ≠ [] → partner.missingAcks = throttlingOffsetMax
  count : partner.throttlingSendsNr = partner.needSeqnumSendReqQ.length

theorem throttlingOffsetMax_lt : throttlingOffsetMax + 1 < 2 ^ 14 := by decide

theorem Within.reset : (Partner.reset : Partner ι).Within where
  window := by
    rw [missingAcks, Partner.reset, Seqnum.num_sub_self]
    exact Nat.zero_le _
  full := fun h => absurd rfl h
  count := rfl

theorem missingAcks_setup {partner : Partner ι} (req : Req ι)
    (h : partner.missingAcks + 1 < 2 ^ 14) :
    (partner.setup req).missingAcks = partner.missingAcks + 1 := Seqnum.num_increase_sub h

/-- Below the window nothing waits, so the next request is posted. -/
theorem Within.setup {partner : Partner ι} (h : partner.Within) (req : Req ι)
    (hlt : partner.missingAcks < throttlingOffsetMax) : (partner.setup req).Within := by
  have hmissing : (partner.setup req).missingAcks = partner.missingAcks + 1 :=
    missingAcks_setup req ((Nat.succ_lt_succ hlt).trans throttlingOffsetMax_lt)
  have hempty : partner.needSeqnumSendReqQ = [] := by
    by_contra hne
    exact hlt.ne (h.full hne)
  refine ⟨hmissing ▸ hlt, fun hne => absurd hempty hne, h.count⟩

/-- At the window it waits. -/
theorem Within.throttle {partner : Partner ι} (h : partner.Within) (req : Req ι)
    (hle : throttlingOffsetMax ≤ partner.missingAcks) :
    Within { partner with
      needSeqnumSendReqQ := partner.needSeqnumSendReqQ ++ [req]
      throttlingSendsNr := partner.throttlingSendsNr + 1 } where
  window := h.window
  full := fun _ => le_antisymm h.window hle
  count := by
    rw [List.length_append, h.count]
    rfl

/-- What the loop over the throttled requests does to the window. -/
structure Sends (nr : ℕ) (partner : Partner ι) (sent : ℕ) (partner' : Partner ι) : Prop where
  sent_eq : sent = min nr partner.needSeqnumSendReqQ.length
  queue : partner'.needSeqnumSendReqQ = partner.needSeqnumSendReqQ.drop sent
  count : partner'.throttlingSendsNr = partner.throttlingSendsNr
  missing : partner.missingAcks + sent < 2 ^ 14 →
    partner'.missingAcks = partner.missingAcks + sent

theorem sends_processThrottling (nr : ℕ) (partner : Partner ι) :
    partner.Sends nr (partner.processThrottling nr).1 (partner.processThrottling nr).2 := by
  induction nr generalizing partner with
  | zero => exact ⟨(Nat.zero_min _).symm, rfl, rfl, fun _ => rfl⟩
  | succ nr ih =>
      rw [processThrottling]
      split
      · rename_i hempty
        refine ⟨?_, ?_, rfl, fun _ => rfl⟩
        · rw [hempty, List.length_nil, Nat.min_zero]
        · rw [hempty, List.drop_nil]
      · rename_i req queue hqueue
        have hrest := ih ({ partner with needSeqnumSendReqQ := queue }.setup req)
        refine ⟨?_, ?_, hrest.count, fun hlt => ?_⟩
        · rw [hqueue, List.length_cons, Nat.succ_min_succ]
          exact congrArg (· + 1) hrest.sent_eq
        · rw [hqueue, List.drop_succ_cons]
          exact hrest.queue
        · have hone : ({ partner with needSeqnumSendReqQ := queue }.setup req).missingAcks =
              partner.missingAcks + 1 :=
            missingAcks_setup req
              (lt_of_le_of_lt (Nat.add_le_add_left (Nat.le_add_left 1 _) _) hlt)
          change partner.missingAcks + (_ + 1) < _ at hlt
          show _ = partner.missingAcks + (_ + 1)
          rw [hrest.missing (by rw [hone]; omega), hone]
          omega

theorem Within.handleNack {partner : Partner ι} (h : partner.Within) (seqnum : Seqnum) :
    (partner.handleNack seqnum).Within := by
  unfold Partner.handleNack
  split
  · exact h
  · exact ⟨h.window, h.full, h.count⟩

theorem Within.resetSendSeq {partner : Partner ι} (h : partner.Within) {sessionId : BitVec 32}
    (start : Seqnum)
    (hnone : partner.trueSessionId ≠ sessionId → partner.throttlingSendsNr = 0) :
    (partner.resetSendSeq sessionId start).Within := by
  unfold Partner.resetSendSeq
  split
  · rename_i hne
    have hempty : partner.needSeqnumSendReqQ = [] :=
      List.length_eq_zero_iff.1 (h.count.symm.trans (hnone hne))
    refine ⟨?_, fun hne' => absurd hempty hne', h.count⟩
    rw [missingAcks, Seqnum.num_sub_self]
    exact Nat.zero_le _
  · exact h

@[simp] theorem throttlingSendsNr_resetSendSeq (partner : Partner ι) (sessionId : BitVec 32)
    (start : Seqnum) :
    (partner.resetSendSeq sessionId start).throttlingSendsNr = partner.throttlingSendsNr := by
  unfold Partner.resetSendSeq
  split <;> rfl

end Partner

/-! ## The endpoint -/

namespace Endpoint

/-- The four quantities agree, for every partner. -/
structure Throttling (ep : Endpoint ι) : Prop where
  within : ∀ i, (ep.partner i).Within
  linked : ∀ i, i ∈ ep.throttlingPartnersList ↔ 0 < (ep.partner i).throttlingSendsNr
  nodup : ep.throttlingPartnersList.Nodup

/-- No send waits for its sequence number where a partner is cleaned up or gets a new
session. -/
def NoneThrottled (ep : Endpoint ι) : Action ι → Prop
  | .send _ => True
  | .partnerCleanup i => (ep.partner i).throttlingSendsNr = 0
  | .connectReply i sessionId _ | .connectRequest i sessionId _ =>
      (ep.partner i).trueSessionId ≠ sessionId ∨
          (ep.partner i).backSessionId ≠ sessionId ∧ (ep.partner i).backSessionId ≠ -1 →
        (ep.partner i).throttlingSendsNr = 0

instance (ep : Endpoint ι) : DecidablePred ep.NoneThrottled := fun a => by
  unfold NoneThrottled
  split <;> infer_instance

variable [DecidableEq ι] {ep : Endpoint ι}

@[simp] theorem setPartner_self (ep : Endpoint ι) (i : ι) (partner : Partner ι) :
    (ep.setPartner i partner).partner i = partner := Function.update_self ..

theorem setPartner_of_ne (ep : Endpoint ι) {i j : ι} (h : j ≠ i) (partner : Partner ι) :
    (ep.setPartner i partner).partner j = ep.partner j := Function.update_of_ne h ..

/-- Queueing a throttled request changes its partner, and the list. -/
theorem partner_throttle (ep : Endpoint ι) (req : Req ι) :
    (ep.throttle req).partner req.partner =
      { ep.partner req.partner with
        needSeqnumSendReqQ := (ep.partner req.partner).needSeqnumSendReqQ ++ [req]
        throttlingSendsNr := (ep.partner req.partner).throttlingSendsNr + 1 } := by
  unfold throttle
  dsimp only
  split <;> exact setPartner_self ..

theorem needResourcesSendReqQ_setupOrThrottle (ep : Endpoint ι) (req : Req ι) :
    (ep.setupOrThrottle req).needResourcesSendReqQ = ep.needResourcesSendReqQ := by
  unfold setupOrThrottle throttle
  dsimp only
  split
  · split <;> rfl
  · rfl

namespace Throttling

omit [DecidableEq ι] in
/-- The other queues and the calls have no part in this. -/
theorem congr {ep' : Endpoint ι} (h : Throttling ep) (hpartner : ep'.partner = ep.partner)
    (hlist : ep'.throttlingPartnersList = ep.throttlingPartnersList) : Throttling ep' := by
  obtain ⟨hwithin, hlinked, hnodup⟩ := h
  rw [← hpartner] at hwithin hlinked
  rw [← hlist] at hlinked hnodup
  exact ⟨hwithin, hlinked, hnodup⟩

/-- A partner is replaced, and the list follows its count. -/
theorem setPartner (h : Throttling ep) {i : ι} {partner : Partner ι} {list : List ι}
    (hwithin : partner.Within) (hself : i ∈ list ↔ 0 < partner.throttlingSendsNr)
    (hother : ∀ j, j ≠ i → (j ∈ list ↔ j ∈ ep.throttlingPartnersList)) (hnodup : list.Nodup) :
    Throttling { ep.setPartner i partner with throttlingPartnersList := list } where
  within := by
    intro j
    show ((ep.setPartner i partner).partner j).Within
    by_cases hj : j = i
    · rw [hj, setPartner_self]
      exact hwithin
    · rw [setPartner_of_ne _ hj]
      exact h.within j
  linked := by
    intro j
    show j ∈ list ↔ 0 < ((ep.setPartner i partner).partner j).throttlingSendsNr
    by_cases hj : j = i
    · rw [hj, setPartner_self]
      exact hself
    · rw [setPartner_of_ne _ hj, hother j hj]
      exact h.linked j
  nodup := hnodup

/-- A partner is replaced by one with the same count. -/
theorem setPartner_same (h : Throttling ep) {i : ι} {partner : Partner ι}
    (hwithin : partner.Within)
    (hcount : partner.throttlingSendsNr = (ep.partner i).throttlingSendsNr) :
    Throttling (ep.setPartner i partner) :=
  h.setPartner hwithin (hcount ▸ h.linked i) (fun _ _ => Iff.rfl) h.nodup

theorem throttle (h : Throttling ep) (req : Req ι)
    (hle : throttlingOffsetMax ≤ (ep.partner req.partner).missingAcks) :
    Throttling (ep.throttle req) := by
  have hwithin := (h.within req.partner).throttle req hle
  unfold Endpoint.throttle
  dsimp only
  split
  · rename_i hzero
    have hnot : req.partner ∉ ep.throttlingPartnersList := fun hmem =>
      absurd ((h.linked _).1 hmem) (Nat.not_lt.2 hzero.le)
    refine h.setPartner hwithin ?_ ?_ ?_
    · simp
    · intro j hj
      simp [hj]
    · rw [List.nodup_append]
      refine ⟨h.nodup, List.nodup_singleton _, ?_⟩
      rintro j hj j' hj' rfl
      exact hnot (List.mem_singleton.1 hj' ▸ hj)
  · rename_i hpos
    exact h.setPartner hwithin
      (iff_of_true ((h.linked _).2 (Nat.pos_of_ne_zero hpos)) (Nat.succ_pos _))
      (fun _ _ => Iff.rfl) h.nodup

theorem setupOrThrottle (h : Throttling ep) (req : Req ι) :
    Throttling (ep.setupOrThrottle req) := by
  unfold Endpoint.setupOrThrottle
  split
  · exact h.throttle req ‹_›
  · rename_i hlt
    exact h.setPartner_same ((h.within _).setup req (not_le.1 hlt)) rfl

theorem allocSetup (h : Throttling ep) {ep' : Endpoint ι} {req : Req ι} {granted : Bool}
    (hsome : ep.allocSetup req granted = some ep') : Throttling ep' := by
  unfold Endpoint.allocSetup at hsome
  split at hsome
  · cases hsome
  · split at hsome
    · cases hsome
      exact h
    · cases hsome
      exact h.setupOrThrottle req

theorem allocSetupOrDelay (h : Throttling ep) (req : Req ι) (granted : Bool) :
    Throttling (ep.allocSetupOrDelay req granted) := by
  unfold Endpoint.allocSetupOrDelay
  cases hsome : ep.allocSetup req granted with
  | none => exact h.congr rfl rfl
  | some ep' => exact h.allocSetup hsome

theorem submitIsend (h : Throttling ep) (i : ι) (type : ReqType) (granted : Bool) :
    Throttling (ep.submitIsend i type granted) := by
  have hcalled : Throttling { ep with called := ep.called + 1 } := h.congr rfl rfl
  unfold Endpoint.submitIsend
  dsimp only
  split
  · exact hcalled.allocSetupOrDelay _ granted
  · exact h.congr rfl rfl

theorem delayedLoop {queue : List (Req ι)} {granted : List Bool} (h : Throttling ep) :
    Throttling (Endpoint.delayedLoop queue granted ep) := by
  induction queue generalizing granted ep with
  | nil => exact h.congr rfl rfl
  | cons req queue ih =>
      unfold Endpoint.delayedLoop
      split
      · rename_i ep' hsome
        exact ih (h.allocSetup hsome)
      · exact h.congr rfl rfl

/-- Throttled requests go until the window is full again, or none is left. -/
theorem processThrottlingRequests (h : Throttling ep) {i : ι} {partner : Partner ι} {nr : ℕ}
    (hnr : partner.throttlingSendsNr = (ep.partner i).throttlingSendsNr)
    (hcount : partner.throttlingSendsNr = partner.needSeqnumSendReqQ.length)
    (hle : partner.missingAcks + nr ≤ throttlingOffsetMax)
    (hfull : partner.needSeqnumSendReqQ ≠ [] → partner.missingAcks + nr = throttlingOffsetMax) :
    Throttling ((ep.setPartner i partner).processThrottlingRequests i nr) := by
  have hsends := partner.sends_processThrottling nr
  unfold Endpoint.processThrottlingRequests
  simp only [setPartner_self]
  generalize (partner.processThrottling nr).1 = sent at hsends ⊢
  generalize (partner.processThrottling nr).2 = partner' at hsends ⊢
  have hmax := Partner.throttlingOffsetMax_lt
  have hsent := hsends.sent_eq
  have hmissing := hsends.missing (by omega)
  have hwithin : Partner.Within
      { partner' with throttlingSendsNr := partner'.throttlingSendsNr - sent } := by
    refine ⟨?_, fun hleft => ?_, ?_⟩
    · show partner'.missingAcks ≤ _
      omega
    · -- requests are left, so `nr` of them were sent
      have hlt : sent < partner.needSeqnumSendReqQ.length := by
        by_contra hge
        exact hleft (hsends.queue.trans (List.drop_eq_nil_of_le (not_lt.1 hge)))
      have hfull := hfull (List.ne_nil_of_length_pos (Nat.zero_lt_of_lt hlt))
      show partner'.missingAcks = _
      omega
    · show partner'.throttlingSendsNr - sent = partner'.needSeqnumSendReqQ.length
      rw [hsends.count, hsends.queue, List.length_drop, hcount]
  have hset : ∀ partner'', (ep.setPartner i partner).setPartner i partner'' =
      ep.setPartner i partner'' := fun partner'' =>
    congrArg (fun f => { ep with partner := f }) (Function.update_idem ..)
  have hpos := h.linked i
  rw [← hnr, ← hsends.count] at hpos
  rw [hset]
  split
  · rename_i hlast
    obtain ⟨-, hzero⟩ := hlast
    refine h.setPartner hwithin ?_ (fun j hj => List.mem_erase_of_ne hj) (h.nodup.erase i)
    exact iff_of_false (fun hmem => (h.nodup.mem_erase_iff.1 hmem).1 rfl)
      (Nat.not_lt.2 hzero.le)
  · rename_i hmore
    refine h.setPartner hwithin ?_ (fun _ _ => Iff.rfl) h.nodup
    show i ∈ ep.throttlingPartnersList ↔ 0 < partner'.throttlingSendsNr - sent
    rw [hpos]
    rw [not_and_or, not_not] at hmore
    omega

/-- The acks open the window, and the throttled requests close it again. -/
theorem handleAck (h : Throttling ep) (i : ι) (ackBefore : Seqnum) :
    Throttling (ep.handleAck i ackBefore) := by
  unfold Endpoint.handleAck
  dsimp only
  split
  · exact h
  · rename_i hnew
    have hi := h.within i
    have hle := not_lt.1 (not_or.1 hnew).2
    have hmissing : ((ep.partner i).nextSendSeq - ackBefore).num +
        (ackBefore - (ep.partner i).nextAckedSendSeq).num = (ep.partner i).missingAcks := by
      rw [Seqnum.num_sub_ack hle]
      exact Nat.sub_add_cancel hle
    exact h.processThrottlingRequests rfl hi.count (hmissing.trans_le hi.window)
      fun hne => hmissing.trans (hi.full hne)

theorem partnerCleanup (h : Throttling ep) {i : ι} (hnone : (ep.partner i).throttlingSendsNr = 0) :
    Throttling (ep.partnerCleanup i) :=
  (h.setPartner_same .reset hnone.symm).congr rfl rfl

/-- Nothing is throttled after the cleanup of an old session either. -/
theorem cleanupOld (h : Throttling ep) {i : ι} {sessionId : BitVec 32}
    (hnone : (ep.partner i).trueSessionId ≠ sessionId ∨
        (ep.partner i).backSessionId ≠ sessionId ∧ (ep.partner i).backSessionId ≠ -1 →
      (ep.partner i).throttlingSendsNr = 0) :
    Throttling (ep.cleanupOld i sessionId) ∧
      (((ep.cleanupOld i sessionId).partner i).trueSessionId ≠ sessionId →
        ((ep.cleanupOld i sessionId).partner i).throttlingSendsNr = 0) := by
  unfold Endpoint.cleanupOld
  split
  · rename_i hold
    refine ⟨h.partnerCleanup (hnone (.inr hold)), fun _ => ?_⟩
    show ((ep.setPartner i .reset).partner i).throttlingSendsNr = 0
    rw [setPartner_self]
    rfl
  · exact ⟨h, fun hne => hnone (.inl hne)⟩

theorem sendStep (h : Throttling ep) {ep' : Endpoint ι} {a : SendAction ι}
    (hstep : Isend.sendStep ep a = some ep') : Throttling ep' := by
  cases a with
  | isend i type granted =>
      obtain ⟨-, heq⟩ := Option.ite_none_left_eq_some.1 hstep
      cases heq
      exact h.submitIsend i type granted
  | submitPull i granted =>
      cases hstep
      exact h.allocSetupOrDelay _ granted
  | submitNotify i delayed =>
      cases hstep
      unfold Endpoint.submitNotify
      dsimp only
      split
      · exact h.congr rfl rfl
      · exact h.setupOrThrottle _
  | processDelayedRequests granted =>
      cases hstep
      exact h.delayedLoop
  | handleAck i ackBefore =>
      cases hstep
      exact h.handleAck i ackBefore
  | handleNack i seqnum =>
      cases hstep
      refine h.setPartner_same ((h.within i).handleNack seqnum) ?_
      unfold Partner.handleNack
      split <;> rfl

theorem step (h : Throttling ep) {ep' : Endpoint ι} {a : Action ι} (hok : ep.NoneThrottled a)
    (hstep : Isend.step ep a = some ep') : Throttling ep' := by
  cases a with
  | send a => exact h.sendStep hstep
  | partnerCleanup i =>
      cases hstep
      exact h.partnerCleanup hok
  | connectReply i sessionId start =>
      cases hstep
      obtain ⟨hold, hnone⟩ := h.cleanupOld hok
      exact hold.setPartner_same ((hold.within i).resetSendSeq start hnone)
        (Partner.throttlingSendsNr_resetSendSeq ..)
  | connectRequest i sessionId start =>
      cases hstep
      obtain ⟨hold, hnone⟩ := h.cleanupOld hok
      have hreset := (hold.within i).resetSendSeq start hnone
      exact hold.setPartner_same ⟨hreset.window, hreset.full, hreset.count⟩
        (Partner.throttlingSendsNr_resetSendSeq ..)

omit [DecidableEq ι] in
theorem init : Throttling (Endpoint.init : Endpoint ι) :=
  ⟨fun _ => .reset, fun _ => iff_of_false (List.not_mem_nil) (lt_irrefl 0), List.nodup_nil⟩

end Throttling

end Endpoint

/-! ## The result -/

/-- For every order of sends, pulls, notifies, acks, nacks, cleanups and connects: as long as
nothing is throttled where a partner is reset, the window of every partner is kept, only
full windows have sends waiting, `throttling_sends_nr` counts them, and the partners with
such sends are those on the list, once each. -/
theorem throttling_agrees [DecidableEq ι] {ep : Endpoint ι}
    (h : (machine ι).Reaches Endpoint.NoneThrottled ep) : ep.Throttling :=
  h.invariant Endpoint.Throttling.init fun _ _ _ hinv hok hstep => hinv.step hok hstep

/-- A partner connects; two sends to it, the second after a wait, and an ack for the first. -/
def twoSends : List (Action Bool) :=
  [.connectRequest true 7 1, .send (.isend true .sendTiny true),
    .send (.isend true .sendMediumsq false), .send (.processDelayedRequests [true]),
    .send (.handleAck true 2)]

theorem throttling_agrees_two :
    ∃ ep, (machine Bool).exec .init twoSends = some ep ∧ (ep.partner true).missingAcks = 1 ∧
      ep.Throttling := by
  obtain ⟨ep, hep, hmissing⟩ : ∃ ep, (machine Bool).exec .init twoSends = some ep ∧
      (ep.partner true).missingAcks = 1 := ⟨_, rfl, by decide⟩
  exact ⟨ep, hep, hmissing, throttling_agrees ⟨twoSends, by decide, hep⟩⟩

/-! ## The defect

A window that is full and one more send; then the partner is cleaned up. -/

section
variable [DecidableEq ι]

/-- A send that meets an empty queue and lacks nothing. -/
theorem submitIsend_tiny {ep : Endpoint ι} (hempty : ep.needResourcesSendReqQ = []) (i : ι) :
    ep.submitIsend i .sendTiny true =
      { ep with called := ep.called + 1 }.setupOrThrottle ⟨ep.called, i, .sendTiny, false, 0⟩ := by
  unfold Endpoint.submitIsend
  exact if_pos hempty

theorem partner_setupOrThrottle (ep : Endpoint ι) (req : Req ι) :
    ((ep.setupOrThrottle req).partner req.partner).missingAcks +
        ((ep.setupOrThrottle req).partner req.partner).throttlingSendsNr =
      (ep.partner req.partner).missingAcks + (ep.partner req.partner).throttlingSendsNr + 1 := by
  unfold Endpoint.setupOrThrottle
  split
  · rw [Endpoint.partner_throttle]
    rfl
  · rename_i hlt
    rw [Endpoint.setPartner_self, Partner.missingAcks_setup req (by
      have hmax := Partner.throttlingOffsetMax_lt
      omega)]
    exact Nat.add_right_comm ..

/-- Such sends are posted until the window is full, and throttled then. -/
theorem exec_isends (i : ι) (k : ℕ) :
    ∃ ep, (machine ι).exec .init (List.replicate k (.send (.isend i .sendTiny true))) = some ep ∧
      ep.needResourcesSendReqQ = [] ∧ ep.Throttling ∧
        (ep.partner i).missingAcks + (ep.partner i).throttlingSendsNr = k := by
  induction k with
  | zero =>
      refine ⟨.init, rfl, rfl, .init, ?_⟩
      rw [Partner.missingAcks]
      exact Seqnum.num_sub_self _
  | succ k ih =>
      obtain ⟨ep, hexec, hempty, hthrottling, hsum⟩ := ih
      refine ⟨ep.submitIsend i .sendTiny true, ?_, ?_, hthrottling.submitIsend .., ?_⟩
      · rw [List.replicate_succ', Machine.exec_append, hexec]
        rfl
      · rw [submitIsend_tiny hempty, Endpoint.needResourcesSendReqQ_setupOrThrottle]
        exact hempty
      · rw [submitIsend_tiny hempty]
        have hsetup := partner_setupOrThrottle { ep with called := ep.called + 1 }
          ⟨ep.called, i, .sendTiny, false, 0⟩
        exact hsetup.trans (congrArg (· + 1) hsum)

end

/-- The partner stays on the list of those with throttled sends, without any. -/
theorem throttling_not_agrees :
    ∃ ep, (machine Unit).exec .init
        (List.replicate (throttlingOffsetMax + 1) (.send (.isend () .sendTiny true)) ++
          [.partnerCleanup ()]) = some ep ∧ ¬ ep.Throttling := by
  obtain ⟨ep, hexec, -, hthrottling, hsum⟩ := exec_isends () (throttlingOffsetMax + 1)
  refine ⟨ep.partnerCleanup (), ?_, fun h => ?_⟩
  · rw [Machine.exec_append, hexec]
    rfl
  · have hwindow := (hthrottling.within ()).window
    have hlinked : () ∈ ep.throttlingPartnersList := (hthrottling.linked ()).2 (by omega)
    exact lt_irrefl 0 ((h.linked ()).1 hlinked)

end Xen2mx.Isend
