/-
# `Xen2mx.Isend.Order` — no send overtakes another

The sends to a partner form a line: those that have their sequence number, those that wait
for it in the queue of the partner, and those that wait for resources in the queue of the
endpoint.  A send joins at the end, since it looks at the queue of the endpoint first, and
at the window, which is full if any wait at the partner.

    submitted ++ need_seqnum_send_req_q ++ need_resources_send_req_q (of the partner)

Every other step moves the borders between the three, or adds and removes pulls and
notifies, which are not in the line.

**Proved here.**

    steps of one session keep the line, sends extend it at its end     (`line_sendStep`)
    sequence numbers are consecutive, and given to sends in the order of the calls; none
        that waits was called before one that has its number           (`isend_inOrder`)
-/
import Xen2mx.Isend.Throttling

namespace Xen2mx.Isend

variable {ι : Type*}

/-! ## The line -/

/-- The calls that a list of requests comes from, which pulls and notifies do not. -/
def numbers (reqs : List (Req ι)) : List ℕ := (reqs.filter Req.isSend).map Req.number

@[simp] theorem numbers_nil : numbers ([] : List (Req ι)) = [] := rfl

@[simp] theorem numbers_append (reqs reqs' : List (Req ι)) :
    numbers (reqs ++ reqs') = numbers reqs ++ numbers reqs' := by
  rw [numbers, List.filter_append, List.map_append]
  rfl

theorem numbers_cons (req : Req ι) (reqs : List (Req ι)) :
    numbers (req :: reqs) = numbers [req] ++ numbers reqs :=
  numbers_append [req] reqs

theorem numbers_of_not_isSend {req : Req ι} (h : req.isSend = false) : numbers [req] = [] := by
  simp [numbers, h]

/-- Getting its sequence number does not change which call a request comes from. -/
theorem numbers_sendSeqnum (req : Req ι) (seqnum : Seqnum) :
    numbers [{ req with sendSeqnum := seqnum }] = numbers [req] := by
  obtain ⟨number, partner, type, recvPartial, sendSeqnum⟩ := req
  cases type <;> rfl

theorem mem_numbers {reqs : List (Req ι)} {n : ℕ} :
    n ∈ numbers reqs ↔ ∃ req ∈ reqs, req.isSend = true ∧ req.number = n := by
  simp only [numbers, List.mem_map, List.mem_filter, and_assoc]

namespace Partner

/-- The part of the line at the partner. -/
def line (partner : Partner ι) : List ℕ :=
  numbers partner.submitted.reverse ++ numbers partner.needSeqnumSendReqQ

/-- Whoever gets a number while nobody waits goes to the end. -/
theorem line_setup {partner : Partner ι} (req : Req ι) (h : partner.needSeqnumSendReqQ = []) :
    (partner.setup req).line = partner.line ++ numbers [req] := by
  simp only [line, Partner.setup, h, List.reverse_cons, numbers_append, numbers_nil,
    numbers_sendSeqnum, List.append_nil]

theorem line_processThrottling (nr : ℕ) (partner : Partner ι) :
    (partner.processThrottling nr).2.line = partner.line := by
  induction nr generalizing partner with
  | zero => rfl
  | succ nr ih =>
      rw [processThrottling]
      split
      · rfl
      · rename_i req queue hqueue
        refine (ih _).trans ?_
        simp only [line, Partner.setup, hqueue, List.reverse_cons, numbers_append,
          numbers_sendSeqnum, numbers_cons req queue, List.append_assoc]

end Partner

namespace Endpoint

variable [DecidableEq ι] {ep ep' : Endpoint ι}

/-- The line of a partner, with `queue` for the queue of the endpoint. -/
def lineWith (ep : Endpoint ι) (queue : List (Req ι)) (i : ι) : List ℕ :=
  (ep.partner i).line ++ numbers (queue.filter fun req => req.partner = i)

def line (ep : Endpoint ι) (i : ι) : List ℕ := ep.lineWith ep.needResourcesSendReqQ i

theorem lineWith_append (queue : List (Req ι)) (req : Req ι) (i : ι) :
    ep.lineWith (queue ++ [req]) i =
      ep.lineWith queue i ++ if req.partner = i then numbers [req] else [] := by
  rw [lineWith, List.filter_append, numbers_append, ← List.append_assoc, ← lineWith,
    List.filter_singleton]
  by_cases hi : req.partner = i
  · simp [hi]
  · simp [hi]

theorem lineWith_of_not_isSend {req : Req ι} (h : req.isSend = false) (queue : List (Req ι)) (i : ι) :
    ep.lineWith (req :: queue) i = ep.lineWith queue i := by
  unfold lineWith
  by_cases hi : req.partner = i
  · rw [List.filter_cons_of_pos (by simpa using hi), numbers_cons, numbers_of_not_isSend h,
      List.nil_append]
  · rw [List.filter_cons_of_neg (by simpa using hi)]

/-- A request leaves the head of the queue for the end of its partner's part. -/
theorem lineWith_of_line {req : Req ι} (partner : Partner ι)
    (hpartner : ep'.partner = (ep.setPartner req.partner partner).partner)
    (hline : partner.line = (ep.partner req.partner).line ++ numbers [req]) (queue : List (Req ι))
    (i : ι) : ep'.lineWith queue i = ep.lineWith (req :: queue) i := by
  rw [lineWith, lineWith, hpartner]
  by_cases hi : req.partner = i
  · subst hi
    rw [setPartner_self, hline, List.filter_cons_of_pos (by simp),
      numbers_cons req (List.filter _ _), List.append_assoc]
  · rw [setPartner_of_ne _ (Ne.symm hi), List.filter_cons_of_neg (by simpa using hi)]

omit [DecidableEq ι] in
/-- Only full windows have sends waiting. -/
theorem Throttling.empty (h : Throttling ep) {i : ι}
    (hlt : ¬ throttlingOffsetMax ≤ (ep.partner i).missingAcks) :
    (ep.partner i).needSeqnumSendReqQ = [] := by
  by_contra hne
  exact hlt ((h.within i).full hne).ge

theorem lineWith_setupOrThrottle (h : Throttling ep) (req : Req ι) (queue : List (Req ι)) (i : ι) :
    (ep.setupOrThrottle req).lineWith queue i = ep.lineWith (req :: queue) i := by
  unfold setupOrThrottle
  split
  · refine lineWith_of_line ((ep.throttle req).partner req.partner) ?_ ?_ queue i
    · funext j
      by_cases hj : j = req.partner
      · rw [hj, setPartner_self]
      · rw [setPartner_of_ne _ hj]
        unfold throttle
        dsimp only
        split <;> exact setPartner_of_ne _ hj _
    · rw [partner_throttle]
      simp only [Partner.line, numbers_append, List.append_assoc]
  · rename_i hlt
    exact lineWith_of_line _ rfl (Partner.line_setup req (h.empty hlt)) queue i

/-- A pull leaves the queue for the driver, all others for their partner. -/
theorem lineWith_allocSetup (h : Throttling ep) {req : Req ι} {granted : Bool}
    (hsome : ep.allocSetup req granted = some ep') (queue : List (Req ι)) (i : ι) :
    ep'.lineWith queue i = ep.lineWith (req :: queue) i := by
  unfold allocSetup at hsome
  split at hsome
  · cases hsome
  · split at hsome
    · rename_i hpull
      cases hsome
      exact (lineWith_of_not_isSend (by simp [Req.isSend, hpull.1]) queue i).symm
    · cases hsome
      exact lineWith_setupOrThrottle h req queue i

theorem needResourcesSendReqQ_allocSetup {req : Req ι} {granted : Bool}
    (hsome : ep.allocSetup req granted = some ep') :
    ep'.needResourcesSendReqQ = ep.needResourcesSendReqQ := by
  unfold allocSetup at hsome
  split at hsome
  · cases hsome
  · split at hsome
    · cases hsome
      rfl
    · cases hsome
      exact needResourcesSendReqQ_setupOrThrottle ep req

/-- A request that is tried ends where it would have waited, as nobody is before it. -/
theorem line_allocSetupOrDelay (h : Throttling ep) (req : Req ι) (granted : Bool)
    (hfirst : req.isSend = true → ep.needResourcesSendReqQ = []) (i : ι) :
    (ep.allocSetupOrDelay req granted).line i =
      ep.line i ++ if req.partner = i then numbers [req] else [] := by
  rw [line, line, ← lineWith_append, allocSetupOrDelay]
  cases hsome : ep.allocSetup req granted with
  | none => rfl
  | some ep' =>
      rw [Option.getD_some, needResourcesSendReqQ_allocSetup hsome, lineWith_allocSetup h hsome]
      cases hsend : req.isSend with
      | true => rw [hfirst hsend, List.nil_append]
      | false =>
          rw [lineWith_of_not_isSend hsend, lineWith_append, numbers_of_not_isSend hsend, ite_self,
            List.append_nil]

theorem line_delayedLoop (h : Throttling ep) (queue : List (Req ι)) (granted : List Bool) (i : ι) :
    (delayedLoop queue granted ep).line i = ep.lineWith queue i := by
  induction queue generalizing granted ep with
  | nil => rfl
  | cons req queue ih =>
      unfold delayedLoop
      split
      · rename_i ep' hsome
        rw [ih (h.allocSetup hsome), lineWith_allocSetup h hsome]
      · rfl

theorem line_setPartner {i : ι} {partner : Partner ι} (h : partner.line = (ep.partner i).line)
    (j : ι) : (ep.setPartner i partner).line j = ep.line j := by
  unfold line lineWith
  by_cases hj : j = i
  · rw [hj, setPartner_self, h]
    rfl
  · rw [setPartner_of_ne _ hj]
    rfl

theorem line_handleAck (i : ι) (ackBefore : Seqnum) (j : ι) :
    (ep.handleAck i ackBefore).line j = ep.line j := by
  unfold handleAck
  dsimp only
  split
  · rfl
  · unfold processThrottlingRequests
    simp only [setPartner_self]
    have hline := Partner.line_processThrottling
      (ackBefore - (ep.partner i).nextAckedSendSeq).num
      { ep.partner i with
        nonAckedReqQ := (ep.partner i).nonAckedReqQ.dropWhile fun req =>
          (ep.partner i).reqIndex req < (ackBefore - (ep.partner i).nextAckedSendSeq).num
        nextAckedSendSeq := ackBefore }
    have hset : ∀ partner partner', partner'.line = (ep.partner i).line →
        ((ep.setPartner i partner).setPartner i partner').line j = ep.line j := by
      intro partner partner' heq
      have hidem : (ep.setPartner i partner).setPartner i partner' = ep.setPartner i partner' :=
        congrArg (fun f => { ep with partner := f }) (Function.update_idem ..)
      rw [hidem, line_setPartner heq]
    split
    · exact hset _ _ hline
    · exact hset _ _ hline

theorem called_setupOrThrottle (ep : Endpoint ι) (req : Req ι) :
    (ep.setupOrThrottle req).called = ep.called := by
  unfold setupOrThrottle throttle
  dsimp only
  split
  · split <;> rfl
  · rfl

theorem called_allocSetup {req : Req ι} {granted : Bool}
    (hsome : ep.allocSetup req granted = some ep') : ep'.called = ep.called := by
  unfold allocSetup at hsome
  split at hsome
  · cases hsome
  · split at hsome
    · cases hsome
      rfl
    · cases hsome
      exact called_setupOrThrottle ep req

theorem called_allocSetupOrDelay (ep : Endpoint ι) (req : Req ι) (granted : Bool) :
    (ep.allocSetupOrDelay req granted).called = ep.called := by
  unfold allocSetupOrDelay
  cases hsome : ep.allocSetup req granted with
  | none => rfl
  | some ep' => exact called_allocSetup hsome

theorem called_delayedLoop (queue : List (Req ι)) (granted : List Bool) (ep : Endpoint ι) :
    (delayedLoop queue granted ep).called = ep.called := by
  induction queue generalizing granted ep with
  | nil => rfl
  | cons req queue ih =>
      unfold delayedLoop
      split
      · rename_i ep' hsome
        exact (ih _ _).trans (called_allocSetup hsome)
      · rfl

theorem called_handleAck (ep : Endpoint ι) (i : ι) (ackBefore : Seqnum) :
    (ep.handleAck i ackBefore).called = ep.called := by
  unfold handleAck processThrottlingRequests
  dsimp only
  split
  · rfl
  · split <;> rfl

/-- The send that an action calls. -/
def callOf (ep : Endpoint ι) (i : ι) : SendAction ι → List ℕ
  | .isend i' _ _ => if i' = i then [ep.called] else []
  | _ => []

/-- A call is counted. -/
theorem called_sendStep {a : SendAction ι} (hstep : sendStep ep a = some ep') :
    ep.called ≤ ep'.called ∧ ∀ i, ∀ n ∈ ep.callOf i a, n = ep.called ∧ n < ep'.called := by
  cases a with
  | isend j type granted =>
      obtain ⟨-, heq⟩ := Option.ite_none_left_eq_some.1 hstep
      cases heq
      have hcalled : (ep.submitIsend j type granted).called = ep.called + 1 := by
        unfold submitIsend
        dsimp only
        split
        · exact called_allocSetupOrDelay ..
        · rfl
      rw [hcalled]
      refine ⟨Nat.le_succ _, fun i n hn => ?_⟩
      change n ∈ (if j = i then [ep.called] else []) at hn
      split at hn
      · rw [List.mem_singleton] at hn
        exact ⟨hn, hn ▸ Nat.lt_succ_self _⟩
      · cases hn
  | submitPull j granted =>
      cases hstep
      exact ⟨(called_allocSetupOrDelay ep _ granted).ge, fun _ _ => nofun⟩
  | submitNotify j delayed =>
      cases hstep
      refine ⟨?_, fun _ _ => nofun⟩
      unfold submitNotify
      dsimp only
      split
      · exact le_rfl
      · exact (called_setupOrThrottle ep _).ge
  | processDelayedRequests granted =>
      cases hstep
      exact ⟨(called_delayedLoop _ granted ep).ge, fun _ _ => nofun⟩
  | handleAck j ackBefore =>
      cases hstep
      exact ⟨(called_handleAck ep j ackBefore).ge, fun _ _ => nofun⟩
  | handleNack j seqnum =>
      cases hstep
      exact ⟨le_rfl, fun _ _ => nofun⟩

/-- Steps keep the line, but for a call that joins at its end. -/
theorem line_sendStep (h : Throttling ep) {a : SendAction ι} (hstep : sendStep ep a = some ep')
    (i : ι) : ep'.line i = ep.line i ++ ep.callOf i a := by
  cases a with
  | isend i' type granted =>
      obtain ⟨htype, heq⟩ := Option.ite_none_left_eq_some.1 hstep
      cases heq
      have hcalled : Throttling { ep with called := ep.called + 1 } := h.congr rfl rfl
      have hreq : numbers [(⟨ep.called, i', type, false, 0⟩ : Req ι)] = [ep.called] := by
        simp [numbers, Req.isSend, htype]
      have hcall : ep.callOf i (.isend i' type granted) =
          if i' = i then numbers [(⟨ep.called, i', type, false, 0⟩ : Req ι)] else [] := by
        rw [hreq]
        rfl
      rw [hcall]
      unfold submitIsend
      dsimp only
      split
      · rename_i hempty
        exact line_allocSetupOrDelay hcalled _ granted (fun _ => hempty) i
      · exact lineWith_append _ _ i
  | submitPull i' granted =>
      cases hstep
      refine (line_allocSetupOrDelay h _ granted (by simp [Req.isSend]) i).trans (congrArg _ ?_)
      exact ite_self []
  | submitNotify i' delayed =>
      cases hstep
      refine Eq.trans ?_ (List.append_nil _).symm
      unfold submitNotify
      dsimp only
      split
      · exact lineWith_of_not_isSend rfl _ i
      · rw [line, needResourcesSendReqQ_setupOrThrottle, lineWith_setupOrThrottle h,
          lineWith_of_not_isSend rfl]
        rfl
  | processDelayedRequests granted =>
      cases hstep
      exact (line_delayedLoop h _ granted i).trans (List.append_nil _).symm
  | handleAck i' ackBefore =>
      cases hstep
      exact (line_handleAck i' ackBefore i).trans (List.append_nil _).symm
  | handleNack i' seqnum =>
      cases hstep
      refine (line_setPartner ?_ i).trans (List.append_nil _).symm
      unfold Partner.handleNack
      split <;> rfl

end Endpoint

/-! ## What the steps do to a partner -/

/-- Setting up a request keeps `P`, and the queues, the count and the acks have no part in it. -/
structure KeptBySetup (P : Partner ι → Prop) : Prop where
  setup : ∀ partner req, P partner → P (partner.setup req)
  queues : ∀ (partner : Partner ι) nonAckedReqQ needSeqnumSendReqQ throttlingSendsNr
    nextAckedSendSeq, P partner →
      P { partner with nonAckedReqQ, needSeqnumSendReqQ, throttlingSendsNr, nextAckedSendSeq }

namespace KeptBySetup

variable {P : Partner ι → Prop} {i : ι}

theorem processThrottling (hP : KeptBySetup P) (nr : ℕ) {partner : Partner ι} (h : P partner) :
    P (partner.processThrottling nr).2 := by
  induction nr generalizing partner with
  | zero => exact h
  | succ nr ih =>
      rw [Partner.processThrottling]
      split
      · exact h
      · exact ih (hP.setup _ _ (hP.queues _ _ _ _ _ h))

variable [DecidableEq ι] {ep ep' : Endpoint ι}

theorem setPartner {j : ι} {partner : Partner ι} (h : P (ep.partner i))
    (hpartner : i = j → P partner) : P ((ep.setPartner j partner).partner i) := by
  by_cases hj : i = j
  · rw [← hj, Endpoint.setPartner_self]
    exact hpartner hj
  · rw [Endpoint.setPartner_of_ne _ hj]
    exact h

theorem setupOrThrottle (hP : KeptBySetup P) (req : Req ι) (h : P (ep.partner i)) :
    P ((ep.setupOrThrottle req).partner i) := by
  unfold Endpoint.setupOrThrottle
  split
  · unfold Endpoint.throttle
    dsimp only
    split
    all_goals
      refine setPartner (P := P) h ?_
      rintro rfl
      exact hP.queues _ _ _ _ _ h
  · refine setPartner h ?_
    rintro rfl
    exact hP.setup _ _ h

theorem allocSetup (hP : KeptBySetup P) {req : Req ι} {granted : Bool} (h : P (ep.partner i))
    (hsome : ep.allocSetup req granted = some ep') : P (ep'.partner i) := by
  unfold Endpoint.allocSetup at hsome
  split at hsome
  · cases hsome
  · split at hsome
    · cases hsome
      exact h
    · cases hsome
      exact hP.setupOrThrottle req h

theorem allocSetupOrDelay (hP : KeptBySetup P) (req : Req ι) (granted : Bool)
    (h : P (ep.partner i)) : P ((ep.allocSetupOrDelay req granted).partner i) := by
  unfold Endpoint.allocSetupOrDelay
  cases hsome : ep.allocSetup req granted with
  | none => exact h
  | some ep' => exact hP.allocSetup h hsome

theorem delayedLoop (hP : KeptBySetup P) (queue : List (Req ι)) (granted : List Bool)
    (h : P (ep.partner i)) : P ((Endpoint.delayedLoop queue granted ep).partner i) := by
  induction queue generalizing granted ep with
  | nil => exact h
  | cons req queue ih =>
      unfold Endpoint.delayedLoop
      split
      · rename_i ep' hsome
        exact ih _ (hP.allocSetup h hsome)
      · exact h

theorem sendStep (hP : KeptBySetup P) {a : SendAction ι} (h : P (ep.partner i))
    (hstep : Isend.sendStep ep a = some ep') : P (ep'.partner i) := by
  cases a with
  | isend j type granted =>
      obtain ⟨-, heq⟩ := Option.ite_none_left_eq_some.1 hstep
      cases heq
      unfold Endpoint.submitIsend
      dsimp only
      split
      · exact hP.allocSetupOrDelay _ granted h
      · exact h
  | submitPull j granted =>
      cases hstep
      exact hP.allocSetupOrDelay _ granted h
  | submitNotify j delayed =>
      cases hstep
      unfold Endpoint.submitNotify
      dsimp only
      split
      · exact h
      · exact hP.setupOrThrottle _ h
  | processDelayedRequests granted =>
      cases hstep
      exact hP.delayedLoop _ granted h
  | handleAck j ackBefore =>
      cases hstep
      unfold Endpoint.handleAck
      dsimp only
      split
      · exact h
      · have hacked := hP.queues (ep.partner j) ((ep.partner j).nonAckedReqQ.dropWhile fun req =>
          (ep.partner j).reqIndex req < (ackBefore - (ep.partner j).nextAckedSendSeq).num)
            (ep.partner j).needSeqnumSendReqQ (ep.partner j).throttlingSendsNr ackBefore
        unfold Endpoint.processThrottlingRequests
        simp only [Endpoint.setPartner_self]
        split
        all_goals
          refine setPartner (P := P) (setPartner h ?_) ?_
          · rintro rfl
            exact hacked h
          · rintro rfl
            exact hP.queues _ _ _ _ _ (hP.processThrottling _ (hacked h))
  | handleNack j seqnum =>
      cases hstep
      refine setPartner h ?_
      rintro rfl
      unfold Partner.handleNack
      split
      · exact h
      · exact hP.queues _ _ _ _ _ h

end KeptBySetup

/-- The requests of a partner have consecutive sequence numbers, from `start` on. -/
structure Partner.Consecutive (start : Seqnum) (partner : Partner ι) : Prop where
  next : partner.nextSendSeq.num = (start.num + partner.submitted.length) % 2 ^ 14
  seqnum : ∀ k req, partner.submitted.reverse[k]? = some req →
    req.sendSeqnum.num = (start.num + k) % 2 ^ 14

theorem Partner.Consecutive.kept (start : Seqnum) :
    KeptBySetup (Partner.Consecutive (ι := ι) start) where
  setup := by
    intro partner req h
    refine ⟨?_, fun k req' hk => ?_⟩
    · show partner.nextSendSeq.increase.num = (start.num + (partner.submitted.length + 1)) % 2 ^ 14
      have hnext := h.next
      have hincrease := partner.nextSendSeq.toNat_increase
      rw [Seqnum.num_eq] at hnext ⊢
      omega
    · have hk' : (partner.submitted.reverse ++
          [{ req with sendSeqnum := partner.nextSendSeq }])[k]? = some req' := by
        rw [← List.reverse_cons]
        exact hk
      rcases Nat.lt_or_ge k partner.submitted.reverse.length with hlt | hge
      · rw [List.getElem?_append_left hlt] at hk'
        exact h.seqnum k req' hk'
      · rw [List.getElem?_append_right hge, List.getElem?_singleton] at hk'
        obtain ⟨hzero, heq⟩ := Option.ite_none_right_eq_some.1 hk'
        cases heq
        have hlast : k = partner.submitted.length := by
          rw [List.length_reverse] at hzero hge
          omega
        rw [hlast]
        exact h.next
  queues := fun _ _ _ _ _ h => ⟨h.next, h.seqnum⟩

theorem Partner.submitted_kept (n : ℕ) :
    KeptBySetup fun partner : Partner ι => n ≤ partner.submitted.length where
  setup := fun _ _ h => h.trans (Nat.le_succ _)
  queues := fun _ _ _ _ _ h => h

/-! ## The result -/

namespace Endpoint

/-- A send to the partner that has no sequence number yet. -/
def Waiting (ep : Endpoint ι) (i : ι) (req : Req ι) : Prop :=
  req.isSend = true ∧ (req ∈ (ep.partner i).needSeqnumSendReqQ ∨
    req ∈ ep.needResourcesSendReqQ ∧ req.partner = i)

/-- Sequence numbers go to the sends in the order of the calls. -/
structure InOrder (start : ι → Seqnum) (ep : Endpoint ι) : Prop where
  /-- Each request gets the number after that of the one before. -/
  consecutive : ∀ i, (ep.partner i).Consecutive (start i)
  /-- The sends among them get it in the order of their calls. -/
  ordered : ∀ i, (numbers (ep.partner i).submitted.reverse).Pairwise (· < ·)
  /-- A send that waits was called after all that have their number, -/
  notOvertaken : ∀ i req, ep.Waiting i req →
    ∀ n ∈ numbers (ep.partner i).submitted.reverse, n < req.number
  /-- and before all that are to come. -/
  called : ∀ i req, ep.Waiting i req → req.number < ep.called

variable [DecidableEq ι] {ep ep' : Endpoint ι}

/-- The line of every partner is in the order of the calls. -/
structure Lined (start : ι → Seqnum) (ep : Endpoint ι) : Prop where
  throttling : ep.Throttling
  consecutive : ∀ i, (ep.partner i).Consecutive (start i)
  ordered : ∀ i, (ep.line i).Pairwise (· < ·)
  called : ∀ i, ∀ n ∈ ep.line i, n < ep.called

theorem Lined.sendStep {start : ι → Seqnum} (h : Lined start ep) {a : SendAction ι}
    (hstep : Isend.sendStep ep a = some ep') : Lined start ep' where
  throttling := h.throttling.sendStep hstep
  consecutive := fun i => (Partner.Consecutive.kept (start i)).sendStep (h.consecutive i) hstep
  ordered := by
    intro i
    rw [line_sendStep h.throttling hstep]
    refine List.pairwise_append.2 ⟨h.ordered i, ?_, fun n hn n' hn' => ?_⟩
    · unfold callOf
      split
      · split
        · exact List.pairwise_singleton _ _
        · exact List.Pairwise.nil
      · exact List.Pairwise.nil
    · rw [((called_sendStep hstep).2 i n' hn').1]
      exact h.called i n hn
  called := by
    intro i n hn
    obtain ⟨hle, hcall⟩ := called_sendStep hstep
    rw [line_sendStep h.throttling hstep] at hn
    rcases List.mem_append.1 hn with hold | hnew
    · exact (h.called i n hold).trans_le hle
    · exact (hcall i n hnew).2

theorem Lined.connected (start : ι → Seqnum) : Lined start (.connected start) where
  throttling := by
    refine ⟨fun i => ⟨?_, fun h => absurd rfl h, rfl⟩, fun i => ?_, List.nodup_nil⟩
    · show (start i - start i).num ≤ _
      rw [Seqnum.num_sub_self]
      exact Nat.zero_le _
    · exact iff_of_false List.not_mem_nil (lt_irrefl 0)
  consecutive := fun i =>
    ⟨(Nat.mod_eq_of_lt (Seqnum.num_lt _)).symm, fun _ _ hk => by cases hk⟩
  ordered := fun _ => List.Pairwise.nil
  called := fun _ _ => nofun

theorem Lined.inOrder {start : ι → Seqnum} (h : Lined start ep) : ep.InOrder start := by
  have hwaiting : ∀ i req, ep.Waiting i req →
      req.number ∈ numbers (ep.partner i).needSeqnumSendReqQ ++
        numbers (ep.needResourcesSendReqQ.filter fun req => req.partner = i) := by
    rintro i req ⟨hsend, hmem | ⟨hmem, hi⟩⟩
    · exact List.mem_append_left _ (mem_numbers.2 ⟨req, hmem, hsend, rfl⟩)
    · have hfilter : req ∈ ep.needResourcesSendReqQ.filter fun req => req.partner = i :=
        List.mem_filter.2 ⟨hmem, decide_eq_true hi⟩
      exact List.mem_append_right _ (mem_numbers.2 ⟨req, hfilter, hsend, rfl⟩)
  have hline : ∀ i, ep.line i = numbers (ep.partner i).submitted.reverse ++
      (numbers (ep.partner i).needSeqnumSendReqQ ++
        numbers (ep.needResourcesSendReqQ.filter fun req => req.partner = i)) :=
    fun _ => List.append_assoc ..
  refine ⟨h.consecutive, fun i => ?_, fun i req hreq n hn => ?_, fun i req hreq => ?_⟩
  · have hordered := h.ordered i
    rw [hline] at hordered
    exact (List.pairwise_append.1 hordered).1
  · have hordered := h.ordered i
    rw [hline] at hordered
    exact (List.pairwise_append.1 hordered).2.2 n hn _ (hwaiting i req hreq)
  · refine h.called i _ ?_
    rw [hline]
    exact List.mem_append_right _ (hwaiting i req hreq)

end Endpoint

/-- For every partner and every order of sends of all classes, pulls, notifies, acks, nacks and
attempts at what waits, with any shortage of resources: the sequence numbers are consecutive
and given to the sends in the order they were called, and no send that waits is overtaken. -/
theorem isend_inOrder [DecidableEq ι] (start : ι → Seqnum) {ep : Endpoint ι}
    {as : List (SendAction ι)} (h : (sendMachine start).exec (.connected start) as = some ep) :
    ep.InOrder start := by
  have hlined : Endpoint.Lined start ep :=
    Machine.exec_invariant (m := sendMachine start) (fun _ _ _ hlined hstep => hlined.sendStep hstep)
      (Endpoint.Lined.connected start) h
  exact hlined.inOrder

/-- A medium send lacks slots, and a tiny one waits behind it. -/
def mediumThenTiny : List (SendAction Unit) :=
  [.isend () .sendMediumsq false, .isend () .sendTiny true, .submitNotify () false,
    .processDelayedRequests [false], .processDelayedRequests [true]]

theorem isend_inOrder_two :
    ∃ ep, (sendMachine fun _ => 1).exec (.connected fun _ => 1) mediumThenTiny = some ep ∧
      (ep.partner ()).submitted.map (fun req => (req.number, req.type, req.sendSeqnum)) =
          [(1, .sendTiny, 3), (0, .sendMediumsq, 2), (0, .recvLarge, 1)] ∧
        ep.InOrder fun _ => 1 := by
  obtain ⟨ep, hep, hsubmitted⟩ : ∃ ep,
      (sendMachine fun _ => 1).exec (.connected fun _ => 1) mediumThenTiny = some ep ∧
        (ep.partner ()).submitted.map (fun req => (req.number, req.type, req.sendSeqnum)) =
          [(1, .sendTiny, 3), (0, .sendMediumsq, 2), (0, .recvLarge, 1)] := ⟨_, rfl, by decide⟩
  exact ⟨ep, hep, hsubmitted, isend_inOrder (fun _ => 1) hep⟩

end Xen2mx.Isend
