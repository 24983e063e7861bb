/-
# `Xen2mx.Xenback.Delivery` — each request exactly once

In a run whose steps meet `Ok` the backend executes the published requests one
by one in the order of publication, answers each in its own slot, pushes one
response for each, and comes to rest only when nothing is left to execute or to
push.  A request whose `func` is 0 breaks this: the handler leaves it in the ring
and never stops looking at it.
-/
import Xen2mx.Xenback.Progress

namespace Xen2mx.Xenback

variable {β δ : Type*} (n : RingSize) (ops : Ops β δ)

/-! ## The statement -/

/-- The response slots claimed by a request whose operation is still running. -/
def Pc.inFlight : Pc → ℕ
  | .exec .. => 1
  | _ => 0

/-- What the frontend can rely on at any moment. -/
structure ExactlyOnce (s : State β δ) : Prop where
  /-- The requests executed are the first of those published, each once and in order. -/
  in_order : s.log.map Prod.fst <+: s.published
  /-- One response is prepared for each of them. -/
  prepared : s.back.rspProdPvt = BitVec.ofNat 32 (s.log.length + s.pc.inFlight)
  /-- Responses are pushed after their requests are executed, and none is pushed twice. -/
  pushed : ∃ k ≤ s.log.length, s.sring.rspProd = BitVec.ofNat 32 k
  /-- The response of a request is in the slot of the request until the slot is used again. -/
  answered : ∀ j e, s.log[j]? = some e → s.allocated.length ≤ j + n.size →
    s.sring.ring (j % n.size) = e.2
  /-- No operation stopped the machine. -/
  running : s.pc ≠ .crashed

/-- Nothing is left to do: the handler sleeps, every published request is
executed and its response pushed. -/
structure AtRest (s : State β δ) : Prop where
  idle : s.pc = .idle
  executed : s.log.map Prod.fst = s.published
  pushed : s.sring.rspProd = BitVec.ofNat 32 s.published.length

/-- The steps the backend takes on its own. -/
def Act.own : Act δ → Prop
  | .interrupt | .handler => True
  | .getRequest _ | .poke => False

/-! ## The invariant says so -/

theorem Inv.exactlyOnce {s : State β δ} {c k : ℕ} (h : Inv n s c k) : ExactlyOnce n s where
  in_order := by
    have hprefix : s.log.map Prod.fst <+: s.allocated := by
      rw [h.executed]
      exact List.take_prefix _ _
    exact List.prefix_of_prefix_length_le hprefix h.published
      (by rw [List.length_map]; exact h.executed_le)
  prepared := by
    have hpc := h.pc
    unfold PcInv at hpc
    cases hs : s.pc with
    | idle | finalRecheck | enter =>
        rw [hs] at hpc
        exact hpc.1.rspProdPvt
    | poll | finalCheck =>
        rw [hs] at hpc
        exact hpc.rspProdPvt
    | batch =>
        rw [hs] at hpc
        obtain ⟨p, -, -, -, hrsp⟩ := hpc
        exact hrsp
    | exec =>
        rw [hs] at hpc
        obtain ⟨p, -, -, -, hrsp, -⟩ := hpc
        exact hrsp
    | push =>
        rw [hs] at hpc
        exact hpc.2
    | crashed =>
        rw [hs] at hpc
        exact hpc.elim
  pushed := ⟨k, h.pushed_le, h.rspProd⟩
  answered := h.answered
  running := by
    intro hs
    have hpc := h.pc
    rw [PcInv, hs] at hpc
    exact hpc

/-- The backend has no step of its own only when it has handled everything. -/
theorem Inv.atRest {s : State β δ} {c k : ℕ} (h : Inv n s c k)
    (hstuck : ∀ a, Act.own a → step n ops s a = none) : AtRest s := by
  have hev : s.evtchn = false := by
    have hint := hstuck .interrupt trivial
    simp only [step, Xenback.omxXenifBeInt] at hint
    split at hint
    · cases hint
    · exact Bool.eq_false_iff.2 ‹_›
  have hidle : s.pc = .idle ∧ s.queued = false := by
    rcases msgWorkqHandler_eq_none n ops (hstuck .handler trivial) with hidle | hcrashed
    · exact hidle
    · exact absurd hcrashed h.exactlyOnce.running
  obtain ⟨hs, hq⟩ := hidle
  have hpc := h.pc
  simp only [PcInv, hs] at hpc
  have hall : s.sring.reqProd = s.back.reqCons := by
    by_contra hne
    rcases h.awake hs hne with he | he
    · rw [hev] at he; cases he
    · rw [hq] at he; cases he
  have hlen : s.published.length = s.log.length := by
    have hroom := h.room
    have hpub := h.published_le
    have hsize := n.size_lt
    rw [h.reqProd, h.reqCons, hpc.1.consumed,
      RingIdx.ofNat_inj h.executed_le (by omega)] at hall
    exact hall
  refine ⟨hs, ?_, ?_⟩
  · exact h.exactlyOnce.in_order.eq_of_length (by rw [List.length_map, hlen])
  · rw [h.rspProd, hpc.1.pushed, hlen]

/-! ## Every run -/

/-- A backend without endpoints to look up, whose operations answer with the request. -/
def echoOps : Ops Unit Unit :=
  { endpointOpen := fun _ _ => true
    misc := fun _ req _ be => (req, be)
    specific := fun _ req _ be => (req, be) }

/-- A ring of four requests served by `echoOps`. -/
def echoMachine : Machine (State Unit Unit) (Act Unit) :=
  machine ⟨2, by decide⟩ echoOps () fun _ => ⟨.sendTiny, ()⟩

/-- The handler is at work, level, and the next request of the ring has `func = 0`. -/
structure FacesNull (s : State β δ) : Prop where
  level : s.back.rspProdPvt = s.back.reqCons
  published : s.sring.reqProd ≠ s.back.reqCons
  null : (ringGet n s.sring s.back.reqCons).func = .null
  running : ∃ i, s.pc = .poll i ∨ s.pc = .enter i ∨
    s.pc = .batch i s.back.reqCons s.sring.reqProd ∨ s.pc = .push i

/-- The handler turns in a circle: the request is found, fetched and left where it is. -/
theorem FacesNull.step {s : State β δ} (h : FacesNull n s) :
    ∃ t, Xenback.step n ops s .handler = some t ∧ FacesNull n t ∧ t.log = s.log := by
  have hsome : ringHasUnconsumedRequests n s.back s.sring ≠ 0 := by
    have hne : (s.sring.reqProd - s.back.reqCons).toNat ≠ 0 := by
      intro hzero
      have := h.published
      simp only [BitVec.toNat_sub] at hzero
      exact this (BitVec.eq_of_toNat_eq (by omega))
    have hpos := n.size_pos
    have hlt := n.size_lt
    simp only [ringHasUnconsumedRequests, h.level, BitVec.sub_self, BitVec.sub_zero,
      BitVec.toNat_ofNat]
    omega
  obtain ⟨i, hpc | hpc | hpc | hpc⟩ := h.running
  · refine ⟨{ s with pc := .enter i }, ?_, ?_, rfl⟩
    · simp only [Xenback.step, msgWorkqHandler, hpc, if_pos hsome]
    · exact ⟨h.level, h.published, h.null, i, .inr (.inl rfl)⟩
  · refine ⟨{ s with pc := .batch i s.back.reqCons s.sring.reqProd }, ?_, ?_, rfl⟩
    · simp only [Xenback.step, msgWorkqHandler, hpc]
    · exact ⟨h.level, h.published, h.null, i, .inr (.inr (.inl rfl))⟩
  · refine ⟨{ s with pc := .push i }, ?_, ?_, rfl⟩
    · have hover : ringRequestConsOverflow n s.back s.back.reqCons = false := by
        have hpos := n.size_pos
        simp only [ringRequestConsOverflow, h.level, BitVec.sub_self, BitVec.toNat_zero]
        exact decide_eq_false (by omega)
      simp only [Xenback.step, msgWorkqHandler, hpc, omxXenProcessMessage, h.published.symm,
        if_false, hover, h.null, if_true, Bool.false_eq_true]
    · exact ⟨h.level, h.published, h.null, i, .inr (.inr (.inr rfl))⟩
  · refine ⟨{ s with sring := ringPushResponses s.sring s.back, pc := .poll i }, ?_, ?_, rfl⟩
    · simp only [Xenback.step, msgWorkqHandler, hpc]
    · exact ⟨h.level, h.published, h.null, i, .inl rfl⟩

end Xen2mx.Xenback
