/-
# `Xen2mx.Xenback.Invariant` — what holds between any two steps of the ring

`req_cons`, the local copy `cons`, `rsp_prod_pvt` and `rsp_prod` count the same
thing, the requests executed, and are brought up to date at different moments.
`Inv n s c k` ties them together: `c` requests are recorded in `req_cons` and
`k` responses are pushed, and where the handler is decides which of the four
are level with the log.

The invariant is kept by every step that meets `Ok`: no request with `func = 0`
is published, no slot is handed out again before the request in it has been
answered, and no operation runs into a BUG_ON.
-/
import Xen2mx.Xenback.Handler

namespace Xen2mx.Xenback

variable {β δ : Type*} (n : RingSize) (ops : Ops β δ)

/-! ## The condition -/

/-- The endpoint that the operation in hand needs is open. -/
def EndpointReady (s : State β δ) : Pc → Prop
  | .exec _ _ _ func req _ =>
      func.needsEndpoint = true → ops.endpointOpen s.be (ringGet n s.sring req) = true
  | _ => True

/-- The requests of the frontend have a `func`, it never has more than a ring of
requests without an answer, and the endpoint a request needs is open when its
operation runs. -/
def Ok (s : State β δ) : Act δ → Prop
  | .getRequest r => r.func ≠ .null ∧ s.allocated.length < s.log.length + n.size
  | .handler => EndpointReady n ops s s.pc
  | .poke | .interrupt => True

instance (s : State β δ) (pc : Pc) : Decidable (EndpointReady n ops s pc) := by
  cases pc <;> unfold EndpointReady <;> infer_instance

instance (s : State β δ) (a : Act δ) : Decidable (Ok n ops s a) := by
  cases a <;> unfold Ok <;> infer_instance

/-! ## The invariant -/

/-- The three counters the handler brings up to date are level with the log. -/
structure Level (s : State β δ) (c k : ℕ) : Prop where
  consumed : c = s.log.length
  pushed : k = s.log.length
  rspProdPvt : s.back.rspProdPvt = BitVec.ofNat 32 s.log.length

/-- Inside a batch that runs up to request `p`. -/
structure InBatch (s : State β δ) (c k p : ℕ) (prod : RingIdx) : Prop where
  prod : prod = BitVec.ofNat 32 p
  pushed : k = c
  nonempty : c < p
  consumed_le : c ≤ s.log.length
  published : p ≤ s.published.length
  room : p ≤ c + n.size

/-- The part of the invariant that depends on where the handler is. -/
def PcInv (s : State β δ) (c k : ℕ) : Prop :=
  match s.pc with
  | .poll _ | .finalCheck _ => Level s c k
  | .idle | .finalRecheck _ => Level s c k ∧ s.sring.reqEvent = s.back.reqCons + 1
  | .enter _ => Level s c k ∧ s.log.length < s.published.length
  | .batch _ cons prod => ∃ p, InBatch n s c k p prod ∧ s.log.length ≤ p ∧
      cons = BitVec.ofNat 32 s.log.length ∧ s.back.rspProdPvt = BitVec.ofNat 32 s.log.length
  | .exec _ cons prod _ req resp => ∃ p, InBatch n s c k p prod ∧ s.log.length < p ∧
      cons = BitVec.ofNat 32 (s.log.length + 1) ∧
      s.back.rspProdPvt = BitVec.ofNat 32 (s.log.length + 1) ∧
      req = BitVec.ofNat 32 s.log.length ∧ resp = BitVec.ofNat 32 s.log.length
  | .push _ => c = s.log.length ∧ s.back.rspProdPvt = BitVec.ofNat 32 s.log.length
  | .crashed => False

/-- What ties the ring to the requests published and executed. -/
structure RingInv (s : State β δ) (c k : ℕ) : Prop where
  reqProdPvt : s.reqProdPvt = BitVec.ofNat 32 s.allocated.length
  reqProd : s.sring.reqProd = BitVec.ofNat 32 s.published.length
  reqCons : s.back.reqCons = BitVec.ofNat 32 c
  rspProd : s.sring.rspProd = BitVec.ofNat 32 k
  published : s.published <+: s.allocated
  pushed_le : k ≤ s.log.length
  executed_le : s.log.length ≤ s.published.length
  room : s.allocated.length ≤ s.log.length + n.size
  executed : s.log.map Prod.fst = s.allocated.take s.log.length
  waiting : ∀ j r, s.log.length ≤ j → s.allocated[j]? = some r → s.sring.ring (j % n.size) = r
  answered : ∀ j e, s.log[j]? = some e → s.allocated.length ≤ j + n.size →
    s.sring.ring (j % n.size) = e.2
  funcs : ∀ r ∈ s.allocated, r.func ≠ .null

/-- The invariant of the ring. -/
structure Inv (s : State β δ) (c k : ℕ) : Prop extends RingInv n s c k where
  pc : PcInv n s c k
  /-- The handler does not sleep over a published request. -/
  awake : s.pc = .idle → s.sring.reqProd ≠ s.back.reqCons → s.evtchn = true ∨ s.queued = true
  /-- The `func` in hand is that of the next request of the log. -/
  fetched : ∀ i cons prod func req resp, s.pc = .exec i cons prod func req resp →
    s.allocated[s.log.length]?.map Entry.func = some func

/-- The steps of the frontend and of the event channel keep what holds where the handler is. -/
theorem PcInv.mono {s t : State β δ} {c k : ℕ} (h : PcInv n s c k) (hpc : t.pc = s.pc)
    (hlog : t.log = s.log) (hback : t.back = s.back)
    (hev : t.sring.reqEvent = s.sring.reqEvent)
    (hpub : s.published.length ≤ t.published.length) : PcInv n t c k := by
  have hlevel : Level s c k → Level t c k := fun hl =>
    ⟨hlog ▸ hl.consumed, hlog ▸ hl.pushed, by rw [hback, hlog]; exact hl.rspProdPvt⟩
  have hbatch : ∀ {p prod}, InBatch n s c k p prod → InBatch n t c k p prod := fun hb =>
    ⟨hb.prod, hb.pushed, hb.nonempty, hlog ▸ hb.consumed_le, hb.published.trans hpub, hb.room⟩
  unfold PcInv at h ⊢
  rw [hpc]
  cases hs : s.pc with
  | idle | finalRecheck =>
      rw [hs] at h
      exact ⟨hlevel h.1, by rw [hev, hback]; exact h.2⟩
  | poll | finalCheck =>
      rw [hs] at h
      exact hlevel h
  | enter =>
      rw [hs] at h
      exact ⟨hlevel h.1, by rw [hlog]; exact h.2.trans_le hpub⟩
  | batch | exec =>
      rw [hs] at h
      obtain ⟨p, hb, hrest⟩ := h
      simp only [hlog, hback]
      exact ⟨p, hbatch hb, hrest⟩
  | push =>
      rw [hs] at h
      simp only [hlog, hback]
      exact h
  | crashed =>
      rw [hs] at h
      exact h

theorem RingInv.published_le {s : State β δ} {c k : ℕ} (h : RingInv n s c k) :
    s.published.length ≤ s.allocated.length := h.published.length_le

/-- Counted on level counters, the macro sees the published requests that are not executed. -/
theorem RingInv.hasUnconsumed {s : State β δ} {c k : ℕ} (h : RingInv n s c k)
    (hl : Level s c k) :
    ringHasUnconsumedRequests n s.back s.sring = s.published.length - s.log.length := by
  have hroom := h.room
  have hpub := h.published_le
  refine ringHasUnconsumedRequests_level n ?_ hl.rspProdPvt h.reqProd h.executed_le (by omega)
  rw [h.reqCons, hl.consumed]

/-- The request that the handler fetches next is in its slot. -/
theorem RingInv.next {s : State β δ} {c k : ℕ} (h : RingInv n s c k)
    (hlt : s.log.length < s.published.length) :
    ∃ r, s.allocated[s.log.length]? = some r ∧
      ringGet n s.sring (BitVec.ofNat 32 s.log.length) = r ∧ r.func ≠ .null := by
  have hlt' : s.log.length < s.allocated.length := hlt.trans_le h.published_le
  refine ⟨s.allocated[s.log.length], List.getElem?_eq_getElem hlt', ?_,
    h.funcs _ (List.getElem_mem hlt')⟩
  rw [ringGet_ofNat]
  exact h.waiting _ _ le_rfl (List.getElem?_eq_getElem hlt')

/-! ## The start -/

theorem Inv.init (be : β) (mem : ℕ → Entry δ) : Inv n (init be mem) 0 0 where
  reqProdPvt := rfl
  reqProd := rfl
  reqCons := rfl
  rspProd := rfl
  published := List.prefix_rfl
  pushed_le := le_rfl
  executed_le := le_rfl
  room := Nat.zero_le _
  executed := rfl
  waiting := by intro j r _ h; cases h
  answered := by intro j e h; cases h
  funcs := by intro r h; cases h
  pc := ⟨⟨rfl, rfl, rfl⟩, rfl⟩
  awake := fun _ h => absurd rfl h
  fetched := by intro i cons prod func req resp h; cases h

/-! ## The frontend and the event channel -/

/-- A request goes to a slot whose request has been answered. -/
theorem Inv.omxRingGetRequest {s : State β δ} {c k : ℕ} (h : Inv n s c k) {r : Entry δ}
    (hfunc : r.func ≠ .null) (hroom : s.allocated.length < s.log.length + n.size) :
    Inv n (omxRingGetRequest n s r) c k where
  reqProdPvt := by
    simp only [Xenback.omxRingGetRequest, h.reqProdPvt, List.length_append]
    exact RingIdx.ofNat_succ _
  reqProd := h.reqProd
  reqCons := h.reqCons
  rspProd := h.rspProd
  published := h.published.trans (List.prefix_append _ _)
  pushed_le := h.pushed_le
  executed_le := h.executed_le
  room := by
    simp only [Xenback.omxRingGetRequest, List.length_append, List.length_singleton]
    exact hroom
  executed := by
    have hle : s.log.length ≤ s.allocated.length := h.executed_le.trans h.published_le
    simpa [Xenback.omxRingGetRequest, List.take_append_of_le_length hle] using h.executed
  waiting := by
    intro j q hj hq
    simp only [Xenback.omxRingGetRequest, h.reqProdPvt, ringSet_ring_ofNat] at hj hq ⊢
    rcases Nat.lt_or_ge j s.allocated.length with hlt | hge
    · rw [List.getElem?_append_left hlt] at hq
      rw [if_neg (n.mod_ne hlt (by omega)).symm]
      exact h.waiting j q hj hq
    · obtain rfl : j = s.allocated.length := by
        have := (List.getElem?_eq_some_iff.1 hq).1
        simp only [List.length_append, List.length_singleton] at this
        omega
      simpa using hq
  answered := by
    intro j e hj hlen
    simp only [Xenback.omxRingGetRequest, h.reqProdPvt, ringSet_ring_ofNat,
      List.length_append, List.length_singleton] at hj hlen ⊢
    have hjlt : j < s.log.length := (List.getElem?_eq_some_iff.1 hj).1
    have hle : s.log.length ≤ s.allocated.length := h.executed_le.trans h.published_le
    rw [if_neg (n.mod_ne (by omega) (by omega)).symm]
    exact h.answered j e hj (by omega)
  funcs := by
    intro q hq
    rcases List.mem_append.1 hq with hq | hq
    · exact h.funcs q hq
    · rw [List.mem_singleton.1 hq]
      exact hfunc
  pc := h.pc.mono n rfl rfl rfl rfl le_rfl
  awake := h.awake
  fetched := by
    intro i cons prod func req resp hpc
    obtain ⟨q, hq, hqf⟩ := Option.map_eq_some_iff.1 (h.fetched i cons prod func req resp hpc)
    have hlt := (List.getElem?_eq_some_iff.1 hq).1
    refine Option.map_eq_some_iff.2 ⟨q, ?_, hqf⟩
    exact (List.getElem?_append_left hlt).trans hq

/-- Pushing to a ring the backend left idle and empty raises the event. -/
theorem omxPokeDom0_notify {s : State β δ} {c k : ℕ} (h : Inv n s c k) (hpc : s.pc = .idle)
    (hne : s.reqProdPvt ≠ s.back.reqCons) :
    (omxPokeDom0 s).evtchn = true ∨ (omxPokeDom0 s).queued = true := by
  have hinv := h.pc
  simp only [PcInv, hpc] at hinv
  obtain ⟨hl, hev⟩ := hinv
  by_cases heq : s.sring.reqProd = s.back.reqCons
  · left
    have hc : s.back.reqCons = BitVec.ofNat 32 s.log.length := by rw [h.reqCons, hl.consumed]
    have hle : s.log.length ≤ s.allocated.length := h.executed_le.trans h.published_le
    have hroom := h.room
    have hsize := n.size_lt
    have hlt : s.log.length < s.allocated.length := by
      rcases hle.lt_or_eq with hlt | heq'
      · exact hlt
      · exact absurd (by rw [h.reqProdPvt, hc, heq']) hne
    have hnew : (s.reqProdPvt - s.sring.reqProd).toNat =
        s.allocated.length - s.log.length := by
      rw [heq, h.reqProdPvt, hc]
      exact RingIdx.toNat_sub hle (by omega)
    have hold : (s.reqProdPvt - s.sring.reqEvent).toNat =
        s.allocated.length - (s.log.length + 1) := by
      rw [hev, h.reqProdPvt, hc, RingIdx.ofNat_succ]
      exact RingIdx.toNat_sub hlt (by omega)
    simp only [omxPokeDom0, ringPushRequestsAndCheckNotify, hnew, hold, Bool.or_eq_true,
      decide_eq_true_eq]
    omega
  · rcases h.awake hpc heq with hev | hq
    · left; simp [omxPokeDom0, hev]
    · right; exact hq

theorem Inv.omxPokeDom0 {s : State β δ} {c k : ℕ} (h : Inv n s c k) :
    Inv n (omxPokeDom0 s) c k where
  reqProdPvt := h.reqProdPvt
  reqProd := h.reqProdPvt
  reqCons := h.reqCons
  rspProd := h.rspProd
  published := List.prefix_rfl
  pushed_le := h.pushed_le
  executed_le := h.executed_le.trans h.published_le
  room := h.room
  executed := h.executed
  waiting := h.waiting
  answered := h.answered
  funcs := h.funcs
  pc := h.pc.mono n rfl rfl rfl rfl h.published_le
  awake := fun hpc hne => omxPokeDom0_notify n h hpc hne
  fetched := h.fetched

/-- The interrupt queues the handler when there is something to read. -/
theorem Inv.omxXenifBeInt {s t : State β δ} {c k : ℕ} (h : Inv n s c k)
    (ht : omxXenifBeInt n s = some t) : Inv n t c k := by
  unfold Xenback.omxXenifBeInt at ht
  split at ht
  · cases ht
    refine { h with
      pc := h.pc.mono n rfl rfl rfl rfl le_rfl
      awake := ?_ }
    intro hpc hne
    right
    have hinv := h.pc
    simp only [PcInv, show s.pc = .idle from hpc] at hinv
    have hcount := h.hasUnconsumed n hinv.1
    have hlt : s.log.length < s.published.length := by
      rcases h.executed_le.lt_or_eq with hlt | heq
      · exact hlt
      · exact absurd (by rw [h.reqProd, h.reqCons, hinv.1.consumed, heq]) hne
    simp only [Bool.or_eq_true, decide_eq_true_eq, hcount]
    omega
  · cases ht

end Xen2mx.Xenback
