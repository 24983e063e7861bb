/-
# `Xen2mx.Xenback.Progress` — the work handler keeps the invariant and comes to rest

`work` bounds the steps the backend can still take on its own.  A published
request costs more than the polls it saves, so it may restart the polling; an
empty poll, a wakeup and an interrupt each use up something that only the
frontend can restore.
-/
import Xen2mx.Xenback.Invariant

namespace Xen2mx.Xenback

variable {β δ : Type*} (n : RingSize) (ops : Ops β δ)

/-! ## The measure -/

/-- The empty polls the handler still makes before it gives up, and the steps around them. -/
def pollWork (i : ℕ) : ℕ := omxXenBackendTimeout + 1 - i + 5

/-- The steps left in this run of the handler when `w` requests are not yet
recorded in `req_cons`. -/
def pcWork (w : ℕ) (reqCons : RingIdx) : Pc → ℕ
  | .idle | .crashed => 8 * w
  | .poll i => 8 * w + pollWork i
  | .enter i => 8 * w + pollWork i - 1
  | .batch i cons _ => 8 * w + pollWork i - 2 - 2 * (cons - reqCons).toNat
  | .exec i _ _ _ req _ => 8 * w + pollWork i - 3 - 2 * (req - reqCons).toNat
  | .push i => 8 * w + pollWork i + 1
  | .finalCheck i => if w = 0 then 4 else 8 * w + pollWork i + 1
  | .finalRecheck i => if w = 0 then 3 else 8 * w + pollWork i + 1

/-- The steps the backend can take before it needs the frontend again. -/
def work (s : State β δ) : ℕ :=
  pcWork (s.sring.reqProd - s.back.reqCons).toNat s.back.reqCons s.pc
    + (if s.queued then pollWork 0 + 1 else 0) + (if s.evtchn then pollWork 0 + 2 else 0)

theorem five_le_pollWork (i : ℕ) : 5 ≤ pollWork i := Nat.le_add_left 5 _

/-- An empty poll short of the timeout is paid for. -/
theorem pollWork_succ {i : ℕ} (h : ¬ omxXenBackendTimeout < i + 1) :
    pollWork (i + 1) < pollWork i := by
  unfold pollWork
  omega

/-- What a step of the backend on its own does: some counters fit the state
after it, and there is less left to do. -/
def Advances (s t : State β δ) : Prop := ∃ c k, Inv n t c k ∧ work t < work s

section
variable {n}

theorem Inv.waiting_toNat {s : State β δ} {c k : ℕ} (h : Inv n s c k) (hc : c ≤ s.log.length)
    (hroom : s.log.length ≤ c + n.size) :
    (s.sring.reqProd - s.back.reqCons).toNat = s.published.length - c := by
  have hpub := h.published_le
  have hexec := h.executed_le
  have hsize := n.size_lt
  have hr := h.room
  rw [h.reqProd, h.reqCons]
  exact RingIdx.toNat_sub (by omega) (by omega)

/-! ## One step of the handler, by where it is -/

/-- A step that only moves the handler keeps what is tied to the ring. -/
theorem Inv.goto {s : State β δ} {c k : ℕ} {pc : Pc} (h : Inv n s c k)
    (hpc : PcInv n { s with pc } c k)
    (hidle : pc = .idle → s.sring.reqProd = s.back.reqCons)
    (hexec : ∀ i cons prod func req resp, pc ≠ .exec i cons prod func req resp) :
    Inv n { s with pc } c k :=
  { h with
    pc := hpc
    awake := fun hp hne => absurd (hidle hp) hne
    fetched := fun i cons prod func req resp hp => absurd hp (hexec i cons prod func req resp) }

theorem Level.goto {s : State β δ} {c k : ℕ} {pc : Pc} (h : Level s c k) :
    Level { s with pc } c k := ⟨h.consumed, h.pushed, h.rspProdPvt⟩

/-- With the counters level, the three tests of the ring see the requests left. -/
theorem Inv.level_waiting {s : State β δ} {c k : ℕ} (h : Inv n s c k) (hl : Level s c k) :
    (s.sring.reqProd - s.back.reqCons).toNat = ringHasUnconsumedRequests n s.back s.sring := by
  have hc := hl.consumed
  rw [h.hasUnconsumed n hl, h.waiting_toNat (by omega) (by omega), hc]

theorem Inv.wake {s : State β δ} {c k : ℕ} (h : Inv n s c k) (hpc : s.pc = .idle)
    (hq : s.queued = true) : Advances n s { s with queued := false, pc := .poll 0 } := by
  have hinv := h.pc
  simp only [PcInv, hpc] at hinv
  refine ⟨c, k, { h with
      pc := ⟨hinv.1.consumed, hinv.1.pushed, hinv.1.rspProdPvt⟩
      awake := (by rintro ⟨⟩)
      fetched := (by simp) }, ?_⟩
  simp only [work, pcWork, hpc, hq, if_true, Bool.false_eq_true, if_false]
  omega

theorem Inv.poll {s t : State β δ} {c k i : ℕ} (h : Inv n s c k) (hpc : s.pc = .poll i)
    (ht : msgWorkqHandler n ops s = some t) : Advances n s t := by
  have hl : Level s c k := by simpa only [PcInv, hpc] using h.pc
  have hw := h.level_waiting hl
  have hcount := h.hasUnconsumed n hl
  have hfive := five_le_pollWork i
  simp only [msgWorkqHandler, hpc] at ht
  split at ht
  case isTrue hne =>
    cases ht
    have hlt : s.log.length < s.published.length := by omega
    refine ⟨c, k, h.goto ⟨hl.goto, hlt⟩ (by rintro ⟨⟩) (by simp), ?_⟩
    simp only [work, pcWork, hpc]
    omega
  case isFalse hzero =>
    split at ht
    case isTrue =>
      cases ht
      refine ⟨c, k, h.goto hl.goto (by rintro ⟨⟩) (by simp), ?_⟩
      have hw0 : (s.sring.reqProd - s.back.reqCons).toNat = 0 := by omega
      simp only [work, pcWork, hpc, hw0, if_true]
      omega
    case isFalse hi =>
      cases ht
      refine ⟨c, k, h.goto hl.goto (by rintro ⟨⟩) (by simp), ?_⟩
      have hlt := pollWork_succ hi
      simp only [work, pcWork, hpc]
      omega

theorem Inv.enter {s t : State β δ} {c k i : ℕ} (h : Inv n s c k) (hpc : s.pc = .enter i)
    (ht : msgWorkqHandler n ops s = some t) : Advances n s t := by
  have hinv := h.pc
  simp only [PcInv, hpc] at hinv
  obtain ⟨hl, hlt⟩ := hinv
  have hc := hl.consumed
  have hfive := five_le_pollWork i
  have hpub := h.published_le
  have hroom := h.room
  simp only [msgWorkqHandler, hpc] at ht
  cases ht
  refine ⟨c, k, h.goto ⟨s.published.length, ⟨h.reqProd, ?_, ?_, ?_, le_rfl, ?_⟩, ?_, ?_, ?_⟩
    (by rintro ⟨⟩) (by simp), ?_⟩
  · rw [hl.pushed, hc]
  · omega
  · exact hc.le
  · omega
  · exact h.executed_le
  · rw [h.reqCons, hc]
  · exact hl.rspProdPvt
  · simp only [work, pcWork, hpc, BitVec.sub_self, BitVec.toNat_zero]
    omega

/-- The batch ends when the local copy reaches the `req_prod` it started from. -/
theorem Inv.batch_end {s : State β δ} {c k i : ℕ} {cons prod : RingIdx} (h : Inv n s c k)
    (hpc : s.pc = .batch i cons prod) (heq : cons = prod) :
    Advances n s { s with back := { s.back with reqCons := cons }, pc := .push i } := by
  have hinv := h.pc
  simp only [PcInv, hpc] at hinv
  obtain ⟨p, hb, hle, hcons, hrsp⟩ := hinv
  have hne := hb.nonempty
  have hroom := hb.room
  have hlec := hb.consumed_le
  have hpub := hb.published
  have hk := hb.pushed
  have hsize := n.size_lt
  have hp : s.log.length = p := by
    have := heq
    rw [hcons, hb.prod, eq_comm, RingIdx.ofNat_inj hle (by omega)] at this
    exact this.symm
  have hinv' : Inv n { s with back := { s.back with reqCons := cons }, pc := .push i }
      s.log.length k := { h with
    reqCons := hcons
    pc := ⟨rfl, hrsp⟩
    awake := (by rintro ⟨⟩)
    fetched := (by simp) }
  refine ⟨s.log.length, k, hinv', ?_⟩
  have hw := h.waiting_toNat hlec (by omega)
  have hw' := hinv'.waiting_toNat le_rfl (Nat.le_add_right _ _)
  have hd : (cons - s.back.reqCons).toNat = s.log.length - c := by
    rw [hcons, h.reqCons]
    exact RingIdx.toNat_sub hlec (by omega)
  have hfive := five_le_pollWork i
  simp only [work, pcWork, hpc, hw, hd]
  simp only at hw'
  rw [hw']
  omega

/-- Under the invariant no early exit of the loop is taken: the request is
within the ring and has a `func`. -/
theorem Inv.batch_fetch {s : State β δ} {c k i : ℕ} {cons prod : RingIdx} (h : Inv n s c k)
    (hpc : s.pc = .batch i cons prod) (hne : cons ≠ prod) :
    Advances n s (omxXenProcessMessage n s i cons prod) := by
  have hinv := h.pc
  simp only [PcInv, hpc] at hinv
  obtain ⟨p, hb, hle, hcons, hrsp⟩ := hinv
  have hlt : s.log.length < p := by
    rcases hle.lt_or_eq with hlt | heq
    · exact hlt
    · exact absurd (by rw [hcons, hb.prod, heq]) hne
  obtain ⟨r, hr, hget, hfunc⟩ := h.next n (hlt.trans_le hb.published)
  have hover : ringRequestConsOverflow n s.back cons = false := by
    rw [hcons]
    exact not_ringRequestConsOverflow n hrsp
  rw [← hcons] at hget
  simp only [omxXenProcessMessage, hne, hover, hget, hfunc, if_false, Bool.false_eq_true]
  refine ⟨c, k, { h with
    pc := ⟨p, ⟨hb.prod, hb.pushed, hb.nonempty, hb.consumed_le, hb.published, hb.room⟩, hlt,
      by rw [hcons]; exact RingIdx.ofNat_succ _, by simp only [hrsp]; exact RingIdx.ofNat_succ _,
      hcons, hrsp⟩
    awake := (by rintro ⟨⟩)
    fetched := ?_ }, ?_⟩
  · intro i' cons' prod' func req resp heq
    cases heq
    exact Option.map_eq_some_iff.2 ⟨r, hr, rfl⟩
  · have hroom := hb.room
    have hsize := n.size_lt
    have hlec := hb.consumed_le
    have hpub := hb.published
    have hfive := five_le_pollWork i
    have hw := h.waiting_toNat hlec (by omega)
    have hd : (cons - s.back.reqCons).toNat = s.log.length - c := by
      rw [hcons, h.reqCons]
      exact RingIdx.toNat_sub hlec (by omega)
    simp only [work, pcWork, hpc, hw, hd]
    omega

/-- The answer goes to the slot its request came from, and the log grows by the pair. -/
theorem RingInv.answer {s : State β δ} {c k : ℕ} {r a : Entry δ} (h : RingInv n s c k)
    (be : β) (pc : Pc) (hr : s.allocated[s.log.length]? = some r)
    (hlt : s.log.length < s.published.length) :
    RingInv n { s with
      sring := ringSet n s.sring (BitVec.ofNat 32 s.log.length) a
      be, pc, log := s.log ++ [(r, a)] } c k where
  reqProdPvt := h.reqProdPvt
  reqProd := h.reqProd
  reqCons := h.reqCons
  rspProd := h.rspProd
  published := h.published
  pushed_le := by
    have := h.pushed_le
    simp only [List.length_append, List.length_singleton]
    omega
  executed_le := by simpa using Nat.succ_le_of_lt hlt
  room := by
    have := h.room
    simp only [List.length_append, List.length_singleton]
    omega
  executed := by
    simp only [List.map_append, List.map_cons, List.map_nil, List.length_append,
      List.length_singleton, h.executed]
    rw [List.take_add_one, hr, Option.toList_some]
  waiting := by
    intro j q hj hq
    simp only [List.length_append, List.length_singleton, ringSet_ring_ofNat] at hj ⊢
    have hroom := h.room
    have hjlt : j < s.allocated.length := (List.getElem?_eq_some_iff.1 hq).1
    rw [if_neg (n.mod_ne (by omega) (by omega))]
    exact h.waiting j q (by omega) hq
  answered := by
    intro j e hj hlen
    simp only [ringSet_ring_ofNat] at hj hlen ⊢
    have hpub := h.published_le
    rcases Nat.lt_or_ge j s.log.length with hjlt | hge
    · rw [List.getElem?_append_left hjlt] at hj
      rw [if_neg (n.mod_ne hjlt (by omega)).symm]
      exact h.answered j e hj hlen
    · obtain rfl : j = s.log.length := by
        have := (List.getElem?_eq_some_iff.1 hj).1
        simp only [List.length_append, List.length_singleton] at this
        omega
      simp only [List.getElem?_concat_length, Option.some.injEq] at hj
      rw [if_pos rfl, ← hj]
  funcs := h.funcs

theorem Inv.exec {s : State β δ} {c k i : ℕ} {cons prod : RingIdx} {func : Func}
    {req resp : RingIdx} (h : Inv n s c k) (hpc : s.pc = .exec i cons prod func req resp)
    (hok : func.needsEndpoint = true → ops.endpointOpen s.be (ringGet n s.sring req) = true) :
    Advances n s (runRequest n ops s i cons prod func req resp) := by
  have hinv := h.pc
  simp only [PcInv, hpc] at hinv
  obtain ⟨p, hb, hlt, hcons, hrsp, hreq, hresp⟩ := hinv
  have hltpub : s.log.length < s.published.length := hlt.trans_le hb.published
  obtain ⟨r, hr, hget, -⟩ := h.next n hltpub
  obtain ⟨⟨a, be⟩, hproc⟩ := Option.isSome_iff_exists.1
    ((processRequest_isSome ops func _ (ringGet n s.sring resp) s.be).2 hok)
  rw [hreq] at hproc
  simp only [runRequest, hreq, hproc]
  rw [hget] at *
  rw [hresp]
  have hlec := hb.consumed_le
  refine ⟨c, k, { h.answer be (.batch i cons prod) hr hltpub with
    pc := ⟨p, ⟨hb.prod, hb.pushed, hb.nonempty, ?_, hb.published, hb.room⟩, ?_, ?_, ?_⟩
    awake := (by rintro ⟨⟩)
    fetched := (by simp) }, ?_⟩
  · simp only [List.length_append]
    omega
  · simpa using Nat.succ_le_of_lt hlt
  · simpa using hcons
  · simpa using hrsp
  · have hroom := hb.room
    have hsize := n.size_lt
    have hfive := five_le_pollWork i
    have hw := h.waiting_toNat hlec (by omega)
    have hd : (req - s.back.reqCons).toNat = s.log.length - c := by
      rw [hreq, h.reqCons]
      exact RingIdx.toNat_sub hlec (by omega)
    have hd' : (cons - s.back.reqCons).toNat = s.log.length + 1 - c := by
      rw [hcons, h.reqCons]
      exact RingIdx.toNat_sub (by omega) (by omega)
    simp only [work, pcWork, hpc, ringSet_reqProd, hw, hd, hd']
    omega

theorem Inv.push {s : State β δ} {c k i : ℕ} (h : Inv n s c k) (hpc : s.pc = .push i) :
    Advances n s { s with sring := ringPushResponses s.sring s.back, pc := .poll i } := by
  have hinv := h.pc
  simp only [PcInv, hpc] at hinv
  obtain ⟨hc, hrsp⟩ := hinv
  refine ⟨c, s.log.length, { h with
    rspProd := hrsp
    pushed_le := le_rfl
    pc := ⟨hc, rfl, hrsp⟩
    awake := (by rintro ⟨⟩)
    fetched := (by simp) }, ?_⟩
  simp only [work, pcWork, hpc, ringPushResponses]
  omega

theorem Inv.finalCheck {s t : State β δ} {c k i : ℕ} (h : Inv n s c k)
    (hpc : s.pc = .finalCheck i) (ht : msgWorkqHandler n ops s = some t) : Advances n s t := by
  have hl : Level s c k := by simpa only [PcInv, hpc] using h.pc
  have hw := h.level_waiting hl
  simp only [msgWorkqHandler, hpc] at ht
  split at ht
  case isTrue hne =>
    cases ht
    refine ⟨c, k, h.goto hl.goto (by rintro ⟨⟩) (by simp), ?_⟩
    have hw1 : ¬ (s.sring.reqProd - s.back.reqCons).toNat = 0 := by omega
    simp only [work, pcWork, hpc, if_neg hw1]
    omega
  case isFalse hzero =>
    cases ht
    refine ⟨c, k, { h with
      pc := ⟨⟨hl.consumed, hl.pushed, hl.rspProdPvt⟩, rfl⟩
      awake := (by rintro ⟨⟩)
      fetched := (by simp) }, ?_⟩
    have hw0 : (s.sring.reqProd - s.back.reqCons).toNat = 0 := by omega
    simp only [work, pcWork, hpc, hw0, if_true]
    omega

theorem Inv.finalRecheck {s t : State β δ} {c k i : ℕ} (h : Inv n s c k)
    (hpc : s.pc = .finalRecheck i) (ht : msgWorkqHandler n ops s = some t) :
    Advances n s t := by
  have hinv := h.pc
  simp only [PcInv, hpc] at hinv
  obtain ⟨hl, hev⟩ := hinv
  have hw := h.level_waiting hl
  have hcount := h.hasUnconsumed n hl
  have hle := h.executed_le
  simp only [msgWorkqHandler, hpc] at ht
  split at ht
  case isTrue hne =>
    cases ht
    refine ⟨c, k, h.goto hl.goto (by rintro ⟨⟩) (by simp), ?_⟩
    have hw1 : ¬ (s.sring.reqProd - s.back.reqCons).toNat = 0 := by omega
    simp only [work, pcWork, hpc, if_neg hw1]
    omega
  case isFalse hzero =>
    cases ht
    have hall : s.published.length = s.log.length := by omega
    have hempty : s.sring.reqProd = s.back.reqCons := by
      rw [h.reqProd, h.reqCons, hl.consumed, hall]
    refine ⟨c, k, h.goto ⟨hl.goto, hev⟩ (fun _ => hempty) (by simp), ?_⟩
    have hw0 : (s.sring.reqProd - s.back.reqCons).toNat = 0 := by omega
    simp only [work, pcWork, hpc, hw0, if_true]
    omega

/-! ## The steps of the backend -/

theorem Inv.msgWorkqHandler {s t : State β δ} {c k : ℕ} (h : Inv n s c k)
    (hok : Ok n ops s .handler) (ht : msgWorkqHandler n ops s = some t) : Advances n s t := by
  cases hpc : s.pc with
  | idle =>
      simp only [Xenback.msgWorkqHandler, hpc] at ht
      split at ht
      · cases ht
        exact h.wake hpc ‹_›
      · cases ht
  | poll i => exact h.poll ops hpc ht
  | enter i => exact h.enter ops hpc ht
  | batch i cons prod =>
      simp only [Xenback.msgWorkqHandler, hpc] at ht
      cases ht
      by_cases heq : cons = prod
      · have hend := h.batch_end hpc heq
        simpa only [omxXenProcessMessage, heq, if_true] using hend
      · exact h.batch_fetch hpc heq
  | exec i cons prod func req resp =>
      simp only [Xenback.msgWorkqHandler, hpc] at ht
      cases ht
      simp only [Ok, hpc, EndpointReady] at hok
      exact h.exec ops hpc hok
  | push i =>
      simp only [Xenback.msgWorkqHandler, hpc] at ht
      cases ht
      exact h.push hpc
  | finalCheck i => exact h.finalCheck ops hpc ht
  | finalRecheck i => exact h.finalRecheck ops hpc ht
  | crashed =>
      simp only [Xenback.msgWorkqHandler, hpc] at ht
      cases ht

theorem Inv.interrupt {s t : State β δ} {c k : ℕ} (h : Inv n s c k)
    (ht : Xenback.omxXenifBeInt n s = some t) : Advances n s t := by
  refine ⟨c, k, h.omxXenifBeInt n ht, ?_⟩
  unfold Xenback.omxXenifBeInt at ht
  split at ht
  case isTrue hev =>
    cases ht
    simp only [work, hev, if_true, Bool.false_eq_true, if_false]
    split <;> split <;> omega
  case isFalse => cases ht

end

/-- Every step that meets the condition keeps the invariant, for some counters. -/
theorem step_inv {s t : State β δ} {a : Act δ} (h : ∃ c k, Inv n s c k) (hok : Ok n ops s a)
    (ht : step n ops s a = some t) : ∃ c k, Inv n t c k := by
  obtain ⟨c, k, h⟩ := h
  cases a with
  | getRequest r =>
      cases ht
      exact ⟨c, k, h.omxRingGetRequest n hok.1 hok.2⟩
  | poke =>
      cases ht
      exact ⟨c, k, h.omxPokeDom0 n⟩
  | interrupt => exact ⟨c, k, h.omxXenifBeInt n ht⟩
  | handler =>
      obtain ⟨c', k', h', -⟩ := h.msgWorkqHandler ops hok ht
      exact ⟨c', k', h'⟩

end Xen2mx.Xenback
