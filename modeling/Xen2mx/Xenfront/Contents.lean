/-
# `Xen2mx.Xenfront.Contents` — what the slots of the ring hold

Where calls take turns, the slot of an index holds what its call wrote until the
backend executes it, and then the response, until the frontend has handled it.
-/
import Xen2mx.Xenfront.Slots

namespace Xen2mx.Xenfront

open Xenback (Func RingSize)

variable {ι D : Type*} [DecidableEq ι] {n : RingSize} {calls : ι → Call D}

/-! ## The statement -/

/-- `req` is the request that a call makes under the index `i`. -/
structure IsRequest (call : Call D) (i : ℕ) (req : Response D) : Prop where
  func : req.func = call.ioctl.func
  requestId : req.requestId = i % omxMaxInflightRequests
  eid : ∀ e ∈ call.eid, req.eid = e
  id : req.id = call.id
  data : req.data = call.args

/-- The header of the request is in the slot, then that of its response. -/
structure HeadedAt (n : RingSize) (sh : Shared D) (call : Call D) (i : ℕ) : Prop where
  func : sh.answered ≤ i → (sh.slot n i).func = call.ioctl.func
  requestId : sh.answered ≤ i → (sh.slot n i).requestId = i % omxMaxInflightRequests
  eid : sh.answered ≤ i → ∀ e ∈ call.eid, (sh.slot n i).eid = e
  answered : ∀ e, sh.log[i]? = some e → e.2.func = call.ioctl.func ∧
    e.2.requestId = i % omxMaxInflightRequests ∧ (sh.rspCons ≤ i → sh.slot n i = e.2)

/-- The request is in the slot until it is executed. -/
structure FilledAt (n : RingSize) (sh : Shared D) (call : Call D) (i : ℕ) : Prop where
  request : sh.answered ≤ i → IsRequest call i (sh.slot n i)
  executed : ∀ e, sh.log[i]? = some e → IsRequest call i e.1

variable (n calls) in
structure Contents (s : State ι D) : Prop where
  log_length : s.log.length = s.answered
  headed : ∀ c, ∀ i ∈ (s.pc c).headed, HeadedAt n s.toShared (calls c) i
  filled : ∀ c, ∀ i ∈ (s.pc c).filled, FilledAt n s.toShared (calls c) i

omit [DecidableEq ι] in
theorem Contents.init (fe : XenfrontInfo D) (mem : ℕ → Response D) :
    Contents n calls (Xenfront.init fe mem) where
  log_length := rfl
  headed := nofun
  filled := nofun

/-! ## Frames -/

omit [DecidableEq ι] in
/-- Indexes of requests without their response handled have slots of their own. -/
theorem Indexed.slot_ne {s : State ι D} (h : Indexed n s) {i j : ℕ} (hi : s.rspCons ≤ i)
    (hi' : i < s.reqProdPvt) (hj : s.rspCons ≤ j) (hj' : j < s.reqProdPvt) (hne : i ≠ j) :
    i % n.size ≠ j % n.size := by
  have hroom := h.room
  rcases Nat.lt_or_gt_of_ne hne with hlt | hlt
  · exact (n.mod_ne hlt (by omega)).symm
  · exact n.mod_ne hlt (by omega)

@[simp] theorem Shared.setSlot_self (sh : Shared D) (i : ℕ) (e : Response D) :
    (sh.setSlot n i e).slot n i = e := if_pos rfl

theorem Shared.setSlot_of_ne (sh : Shared D) {i j : ℕ} (e : Response D)
    (h : j % n.size ≠ i % n.size) : (sh.setSlot n i e).slot n j = sh.slot n j := if_neg h

theorem HeadedAt.frame {sh sh' : Shared D} {call : Call D} {i : ℕ} (h : HeadedAt n sh call i)
    (hans : sh'.answered = sh.answered) (hlog : sh'.log = sh.log) (hcons : sh.rspCons ≤ sh'.rspCons)
    (hle : sh.rspCons ≤ sh.answered) (hslot : sh.rspCons ≤ i → sh'.slot n i = sh.slot n i) :
    HeadedAt n sh' call i where
  func := by
    rw [hans]
    intro hi
    rw [hslot (Nat.le_trans hle hi)]
    exact h.func hi
  requestId := by
    rw [hans]
    intro hi
    rw [hslot (Nat.le_trans hle hi)]
    exact h.requestId hi
  eid := by
    rw [hans]
    intro hi
    rw [hslot (Nat.le_trans hle hi)]
    exact h.eid hi
  answered := by
    rw [hlog]
    intro e he
    obtain ⟨hf, hid, hs⟩ := h.answered e he
    refine ⟨hf, hid, fun hi => ?_⟩
    rw [hslot (Nat.le_trans hcons hi)]
    exact hs (Nat.le_trans hcons hi)

theorem FilledAt.frame {sh sh' : Shared D} {call : Call D} {i : ℕ} (h : FilledAt n sh call i)
    (hans : sh'.answered = sh.answered) (hlog : sh'.log = sh.log)
    (hle : sh.rspCons ≤ sh.answered) (hslot : sh.rspCons ≤ i → sh'.slot n i = sh.slot n i) :
    FilledAt n sh' call i where
  request := by
    rw [hans]
    intro hi
    rw [hslot (Nat.le_trans hle hi)]
    exact h.request hi
  executed := by
    rw [hlog]
    exact h.executed

/-- A step of a call that leaves the slots alone. -/
theorem Contents.keep {s : State ι D} {c : ι} {sh : Shared D} {pc : Pc D} (hI : Indexed n s)
    (h : Contents n calls s) (hans : sh.answered = s.answered) (hlog : sh.log = s.log)
    (hcons : sh.rspCons = s.rspCons) (hring : sh.ring = s.ring)
    (hhead : ∀ i ∈ pc.headed, i ∈ (s.pc c).headed) (hfill : ∀ i ∈ pc.filled, i ∈ (s.pc c).filled) :
    Contents n calls (s.moved c sh pc) := by
  have hle : s.rspCons ≤ s.answered := Nat.le_trans hI.rspCons_le hI.rspProd_le
  have hslot : ∀ i, sh.slot n i = s.slot n i := fun i => congrFun hring _
  exact
    { log_length := by
        rw [State.moved_toShared, hlog, hans]
        exact h.log_length
      headed := State.moved_forall
        (P := fun c' pc => ∀ i ∈ pc.headed, HeadedAt n sh (calls c') i)
        (fun i hi => (h.headed c i (hhead i hi)).frame hans hlog (le_of_eq hcons.symm) hle
          fun _ => hslot i)
        fun c' _ i hi => (h.headed c' i hi).frame hans hlog (le_of_eq hcons.symm) hle fun _ => hslot i
      filled := State.moved_forall
        (P := fun c' pc => ∀ i ∈ pc.filled, FilledAt n sh (calls c') i)
        (fun i hi => (h.filled c i (hfill i hi)).frame hans hlog hle fun _ => hslot i)
        fun c' _ i hi => (h.filled c' i hi).frame hans hlog hle fun _ => hslot i }

/-- A call writes the slot of its request while the request is not complete. -/
theorem Contents.write {s : State ι D} {c : ι} {i : ℕ} {fe : XenfrontInfo D} {e : Response D}
    {pc : Pc D} (hI : Indexed n s) (h : Contents n calls s) (hi : i ∈ (s.pc c).incomplete)
    (hhead : ∀ j ∈ pc.headed, j = i ∧ e.func = (calls c).ioctl.func ∧
      e.requestId = i % omxMaxInflightRequests ∧ ∀ eid ∈ (calls c).eid, e.eid = eid)
    (hfill : ∀ j ∈ pc.filled, j = i ∧ IsRequest (calls c) i e) :
    Contents n calls (s.moved c (Shared.setSlot n { s.toShared with fe } i e) pc) := by
  have hle : s.rspCons ≤ s.answered := Nat.le_trans hI.rspCons_le hI.rspProd_le
  have hprod : s.answered ≤ i := Nat.le_trans hI.answered_le (hI.incomplete c i hi)
  have hlt := hI.idx_lt c i (Pc.idx_of_live (Pc.live_of_incomplete hi))
  have hlog : s.log[i]? = none := List.getElem?_eq_none (h.log_length ▸ hprod)
  have hslot : ∀ c', c' ≠ c → ∀ j ∈ (s.pc c').idx, s.rspCons ≤ j →
      (Shared.setSlot n { s.toShared with fe } i e).slot n j = s.slot n j := by
    intro c' hc' j hj hcons
    refine Shared.setSlot_of_ne _ e ?_
    refine hI.slot_ne hcons (hI.idx_lt c' j hj) (Nat.le_trans hle hprod) hlt ?_
    rintro rfl
    exact hc' (hI.idx_inj c' c j hj (Pc.idx_of_live (Pc.live_of_incomplete hi)))
  exact
    { log_length := h.log_length
      headed := State.moved_forall
        (P := fun c' pc => ∀ j ∈ pc.headed,
          HeadedAt n (Shared.setSlot n { s.toShared with fe } i e) (calls c') j)
        (fun j hj => by
          obtain ⟨rfl, hf, hid, heid⟩ := hhead j hj
          refine ⟨fun _ => ?_, fun _ => ?_, fun _ => ?_, fun e' he' => ?_⟩
          · rw [Shared.setSlot_self]
            exact hf
          · rw [Shared.setSlot_self]
            exact hid
          · rw [Shared.setSlot_self]
            exact heid
          · cases hlog.symm.trans he')
        fun c' hc' j hj => (h.headed c' j hj).frame rfl rfl le_rfl hle
          (hslot c' hc' j (Pc.idx_of_headed hj))
      filled := State.moved_forall
        (P := fun c' pc => ∀ j ∈ pc.filled,
          FilledAt n (Shared.setSlot n { s.toShared with fe } i e) (calls c') j)
        (fun j hj => by
          obtain ⟨rfl, hreq⟩ := hfill j hj
          refine ⟨fun _ => ?_, fun e' he' => ?_⟩
          · rw [Shared.setSlot_self]
            exact hreq
          · cases hlog.symm.trans he')
        fun c' hc' j hj => (h.filled c' j hj).frame rfl rfl hle
          (hslot c' hc' j (Pc.idx_of_headed (Pc.headed_of_filled hj))) }

/-! ## Slots behind the request -/

theorem Call.spill_eq {call : Call D} {k j : ℕ} (e : Response D)
    (h : ∀ w ∈ call.ioctl.writes k, ¬ Touches j w) : call.spill k j e = e := by
  have hnone : (call.ioctl.writes k).filter (Touches j) = [] := by
    simpa [List.filter_eq_nil_iff] using h
  rw [Call.spill, hnone]
  rfl

/-- A slot that the writes do not touch is as it was. -/
theorem Shared.spill_slot {sh : Shared D} {call : Call D} {idx k i : ℕ}
    (h : ∀ w ∈ call.ioctl.writes k, ¬ Touches (i % n.size - idx % n.size) w) :
    (sh.spill n call idx k).slot n i = sh.slot n i := Call.spill_eq _ h

/-- A write behind the request, aside of the slots in use. -/
theorem Contents.spill {s : State ι D} {c : ι} {sh : Shared D} {pc : Pc D} {idx k : ℕ}
    (hI : Indexed n s) (h : Contents n calls (s.moved c sh pc))
    (hpc : ∀ i ∈ pc.idx, i ∈ (s.pc c).idx) (hcons : sh.rspCons = s.rspCons)
    (hans : sh.answered = s.answered)
    (hok : ∀ i < s.reqProdPvt, s.rspCons ≤ i →
      ∀ w ∈ (calls c).ioctl.writes k, ¬ Touches (i % n.size - idx % n.size) w) :
    Contents n calls (s.moved c (sh.spill n (calls c) idx k) pc) := by
  have hle : sh.rspCons ≤ sh.answered := by
    rw [hcons, hans]
    exact Nat.le_trans hI.rspCons_le hI.rspProd_le
  have hlt : ∀ c', ∀ i ∈ ((s.moved c sh pc).pc c').idx, i < s.reqProdPvt :=
    State.moved_forall (P := fun _ pc => ∀ i ∈ pc.idx, i < s.reqProdPvt)
      (fun i hi => hI.idx_lt c i (hpc i hi)) fun c' _ => hI.idx_lt c'
  have hslot : ∀ c', ∀ i ∈ ((s.moved c sh pc).pc c').idx, sh.rspCons ≤ i →
      (sh.spill n (calls c) idx k).slot n i = sh.slot n i :=
    fun c' i hi hge => Shared.spill_slot (hok i (hlt c' i hi) (hcons ▸ hge))
  exact
    { log_length := h.log_length
      headed := fun c' i hi => (h.headed c' i hi).frame rfl rfl le_rfl hle
        (hslot c' i (Pc.idx_of_headed hi))
      filled := fun c' i hi => (h.filled c' i hi).frame rfl rfl hle
        (hslot c' i (Pc.idx_of_headed (Pc.headed_of_filled hi))) }

/-! ## The backend and the handler -/

omit [DecidableEq ι] in
/-- The request executed next is that of a call, whose header at least is written. -/
theorem Indexed.headed_of_lt {s : State ι D} (h : Indexed n s) {c : ι} {i : ℕ}
    (hi : i ∈ (s.pc c).idx) (hlt : i < s.reqProd) : i ∈ (s.pc c).headed := by
  have hinc := h.incomplete c
  cases hpc : s.pc c <;> rw [hpc] at hi hinc
  case mark | identify | header => exact absurd (hinc i hi) (Nat.not_le_of_lt hlt)
  case check | load | store => cases hi
  all_goals exact hi

omit [DecidableEq ι] in
theorem Contents.answer {s : State ι D} {sh : Shared D} {x : Execution} {d : D} (hI : Indexed n s)
    (h : Contents n calls s) (hsh : s.answer n x d = some sh) :
    Contents n calls { s with toShared := sh } := by
  obtain ⟨⟨hlt, hfunc⟩, rfl⟩ := Shared.answer_eq_some hsh
  have hle : s.rspCons ≤ s.answered := Nat.le_trans hI.rspCons_le hI.rspProd_le
  have hltp : s.answered < s.reqProdPvt := Nat.lt_of_lt_of_le hlt hI.reqProd_le
  have hnew : (s.log ++ [(s.slot n s.answered, respond (s.slot n s.answered) d x)])[s.answered]? =
      some (s.slot n s.answered, respond (s.slot n s.answered) d x) := by
    rw [← h.log_length]
    exact List.getElem?_concat_length
  have hold : ∀ i, i ≠ s.answered → ∀ e,
      (s.log ++ [(s.slot n s.answered, respond (s.slot n s.answered) d x)])[i]? = some e →
      s.log[i]? = some e := by
    intro i hi e he
    have hlen : i < s.log.length := by
      have hlt' := (List.getElem?_eq_some_iff.1 he).1
      have hlen := h.log_length
      simp only [List.length_append, List.length_singleton] at hlt'
      omega
    rwa [List.getElem?_append_left hlen] at he
  have hslot : ∀ c, ∀ i ∈ (s.pc c).idx, i ≠ s.answered → s.rspCons ≤ i →
      (s.setSlot n s.answered (respond (s.slot n s.answered) d x)).slot n i = s.slot n i := by
    intro c i hi hne hcons
    exact Shared.setSlot_of_ne _ _ (hI.slot_ne hcons (hI.idx_lt c i hi) hle hltp hne)
  exact
    { log_length := by
        simp only [List.length_append, List.length_singleton]
        rw [h.log_length]
      headed := by
        intro c i hi
        have hat := h.headed c i hi
        by_cases hk : i = s.answered
        · subst hk
          refine ⟨fun hge => absurd hge (Nat.not_succ_le_self _),
            fun hge => absurd hge (Nat.not_succ_le_self _),
            fun hge => absurd hge (Nat.not_succ_le_self _), fun e he => ?_⟩
          obtain rfl := Option.some.inj (hnew.symm.trans he)
          refine ⟨?_, ?_, fun _ => Shared.setSlot_self _ _ _⟩
          · rw [respond_func, hfunc]
            exact hat.func le_rfl
          · rw [respond_requestId]
            exact hat.requestId le_rfl
        · have hidx := Pc.idx_of_headed hi
          refine ⟨fun hge => ?_, fun hge => ?_, fun hge => ?_, fun e he => ?_⟩
          · have hge' : s.answered ≤ i := Nat.le_of_succ_le hge
            exact (hslot c i hidx hk (Nat.le_trans hle hge')).symm ▸ hat.func hge'
          · have hge' : s.answered ≤ i := Nat.le_of_succ_le hge
            exact (hslot c i hidx hk (Nat.le_trans hle hge')).symm ▸ hat.requestId hge'
          · have hge' : s.answered ≤ i := Nat.le_of_succ_le hge
            exact (hslot c i hidx hk (Nat.le_trans hle hge')).symm ▸ hat.eid hge'
          · obtain ⟨hf, hid, hs⟩ := hat.answered e (hold i hk e he)
            exact ⟨hf, hid, fun hcons => (hslot c i hidx hk hcons).trans (hs hcons)⟩
      filled := by
        intro c i hi
        have hat := h.filled c i hi
        by_cases hk : i = s.answered
        · subst hk
          refine ⟨fun hge => absurd hge (Nat.not_succ_le_self _), fun e he => ?_⟩
          obtain rfl := Option.some.inj (hnew.symm.trans he)
          exact hat.request le_rfl
        · have hidx := Pc.idx_of_headed (Pc.headed_of_filled hi)
          refine ⟨fun hge => ?_, fun e he => hat.executed e (hold i hk e he)⟩
          have hge' : s.answered ≤ i := Nat.le_of_succ_le hge
          exact (hslot c i hidx hk (Nat.le_trans hle hge')).symm ▸ hat.request hge' }

/-! ## Every step -/

theorem Contents.callCode {s : State ι D} {c : ι} {junk : D} {r : Shared D × Pc D}
    (hI : Indexed n s) (h : Contents n calls s) (hok : SpillsAside n calls s c (s.pc c))
    (hr : Xenfront.callCode n (calls c) junk s.toShared (s.pc c) = some r) :
    Contents n calls (s.moved c r.1 r.2) := by
  cases hpc : s.pc c with
  | check k =>
      rw [hpc] at hr
      simp only [Xenfront.callCode] at hr
      split at hr
      · cases hr
        exact h.keep hI rfl rfl rfl rfl (by rintro _ ⟨⟩) (by rintro _ ⟨⟩)
      · split at hr <;> cases hr <;>
          exact h.keep hI rfl rfl rfl rfl (by simp [Pc.headed]) (by simp [Pc.filled])
  | load | store i | mark i | identify i =>
      rw [hpc] at hr
      cases hr
      exact h.keep hI rfl rfl rfl rfl (by simp [Pc.headed]) (by simp [Pc.filled])
  | header i id =>
      rw [hpc] at hr
      cases hr
      have hid : id = i % omxMaxInflightRequests := by
        obtain ⟨j, hj, hid⟩ := hI.requestId c id (by rw [hpc]; rfl)
        rw [hpc] at hj
        rw [hid, Option.mem_some_iff.1 hj]
      refine h.write hI (by rw [hpc]; rfl) (fun j hj => ?_) (by rintro _ ⟨⟩)
      refine ⟨(Option.mem_some_iff.1 hj).symm, rfl, hid, fun eid heid => ?_⟩
      rw [Call.header, Option.mem_def.1 heid]
      rfl
  | fill i id k =>
      rw [hpc] at hr
      have hat := h.headed c i (by rw [hpc]; rfl)
      have hge : s.answered ≤ i :=
        Nat.le_trans hI.answered_le (hI.incomplete c i (by rw [hpc]; rfl))
      have hidx : i ∈ (s.pc c).idx := by rw [hpc]; rfl
      rw [hpc] at hok
      simp only [Xenfront.callCode] at hr
      split at hr <;> cases hr
      · have hwrite : Contents n calls (s.moved c (Shared.setSlot n { s.toShared with fe := s.fe } i
            { s.slot n i with data := junk }) (.fill i id (k + 1))) :=
          h.write hI (by rw [hpc]; rfl) (fun j hj => ⟨(Option.mem_some_iff.1 hj).symm, hat.func hge, hat.requestId hge,
            hat.eid hge⟩) (by rintro _ ⟨⟩)
        exact hwrite.spill hI (fun j hj => Option.mem_some_iff.1 hj ▸ hidx) rfl rfl hok
      · have hwrite : Contents n calls (s.moved c (Shared.setSlot n { s.toShared with fe := s.fe } i
            ((calls c).complete (s.slot n i))) (.poke i id)) :=
          h.write hI (by rw [hpc]; rfl) (fun j hj => ⟨(Option.mem_some_iff.1 hj).symm,
            hat.func hge, hat.requestId hge, hat.eid hge⟩)
          (fun j hj => ⟨(Option.mem_some_iff.1 hj).symm,
            ⟨hat.func hge, hat.requestId hge, hat.eid hge, rfl, rfl⟩⟩)
        exact hwrite.spill hI (fun j hj => Option.mem_some_iff.1 hj ▸ hidx) rfl rfl hok
  | poke i id =>
      rw [hpc] at hr
      cases hr
      exact h.keep hI rfl rfl rfl rfl (by rw [hpc]; exact fun _ hj => hj)
        (by rw [hpc]; exact fun _ hj => hj)
  | wait i id =>
      rw [hpc] at hr
      simp only [Xenfront.callCode] at hr
      split at hr <;> cases hr
      exact h.keep hI rfl rfl rfl rfl (by rw [hpc]; exact fun _ hj => hj)
        (by rw [hpc]; exact fun _ hj => hj)
  | read i id st data =>
      rw [hpc] at hr
      cases st with
      | none =>
          cases hr
          exact h.keep hI rfl rfl rfl rfl (by rw [hpc]; exact fun _ hj => hj)
            (by rw [hpc]; exact fun _ hj => hj)
      | some st =>
          simp only [Xenfront.callCode] at hr
          split at hr <;> cases hr
          exact h.keep hI rfl rfl rfl rfl (by rw [hpc]; exact fun _ hj => hj)
            (by rw [hpc]; exact fun _ hj => hj)
  | failed | timedOut | returned =>
      rw [hpc] at hr
      cases hr

theorem Contents.failCode {s : State ι D} {c : ι} {junk : D} {r : Shared D × Pc D}
    (hI : Indexed n s) (h : Contents n calls s) (hok : SpillsAside n calls s c (s.pc c))
    (hr : Xenfront.failCode n (calls c) junk s.toShared (s.pc c) = some r) :
    Contents n calls (s.moved c r.1 r.2) := by
  cases hpc : s.pc c with
  | check k =>
      rw [hpc] at hr
      simp only [Xenfront.failCode] at hr
      split at hr <;> cases hr
      exact h.keep hI rfl rfl rfl rfl (by rintro _ ⟨⟩) (by rintro _ ⟨⟩)
  | fill i id k =>
      rw [hpc] at hr
      have hat := h.headed c i (by rw [hpc]; rfl)
      have hge : s.answered ≤ i :=
        Nat.le_trans hI.answered_le (hI.incomplete c i (by rw [hpc]; rfl))
      have hidx : i ∈ (s.pc c).idx := by rw [hpc]; rfl
      rw [hpc] at hok
      simp only [Xenfront.failCode] at hr
      split at hr <;> cases hr
      have hwrite : Contents n calls (s.moved c (Shared.setSlot n { s.toShared with fe := s.fe } i
          { s.slot n i with data := junk }) (.failed (some i))) :=
        h.write hI (by rw [hpc]; rfl) (fun j hj => ⟨(Option.mem_some_iff.1 hj).symm, hat.func hge, hat.requestId hge,
          hat.eid hge⟩) (by rintro _ ⟨⟩)
      exact hwrite.spill hI (fun j hj => Option.mem_some_iff.1 hj ▸ hidx) rfl rfl hok
  | _ =>
      rw [hpc] at hr
      cases hr

theorem Contents.step {s t : State ι D} {a : Act ι D} (hI : Indexed n s) (h : Contents n calls s)
    (hok : KeepsToSlots n calls s a) (ht : step n calls s a = some t) : Contents n calls t := by
  have hle : s.rspCons ≤ s.answered := Nat.le_trans hI.rspCons_le hI.rspProd_le
  cases a with
  | call c junk =>
      obtain ⟨r, hr, rfl⟩ := State.run_eq ht
      exact h.callCode hI hok hr
  | fail c junk =>
      obtain ⟨r, hr, rfl⟩ := State.run_eq ht
      exact h.failCode hI hok hr
  | timeout c =>
      obtain ⟨r, hr, rfl⟩ := State.run_eq ht
      unfold timeoutCode at hr
      split at hr <;> cases hr
      rename_i i id hpc
      exact h.keep hI rfl rfl rfl rfl (by rw [hpc]; exact fun _ hj => hj)
        (by rw [hpc]; exact fun _ hj => hj)
  | readData c =>
      obtain ⟨r, hr, rfl⟩ := State.run_eq ht
      unfold readDataCode at hr
      split at hr
      · rename_i i id st hpc
        obtain ⟨f, -, rfl⟩ := Option.map_eq_some_iff.1 hr
        exact h.keep hI rfl rfl rfl rfl (by rw [hpc]; exact fun _ hj => hj)
          (by rw [hpc]; exact fun _ hj => hj)
      · cases hr
  | answer x d =>
      obtain ⟨sh, hsh, rfl⟩ := Option.map_eq_some_iff.1 ht
      exact h.answer hI hsh
  | interrupt =>
      obtain ⟨sh, hsh, rfl⟩ := Option.map_eq_some_iff.1 ht
      obtain ⟨hlt, rfl⟩ := Shared.interrupt_eq_some hsh
      exact ⟨h.log_length,
        fun c i hi => (h.headed c i hi).frame rfl rfl (Nat.le_succ _) hle fun _ => rfl,
        fun c i hi => (h.filled c i hi).frame rfl rfl hle fun _ => rfl⟩
  | pushResponses | setEndpoint eid endpoint | setUserRegion endpoint id present =>
      cases ht
      exact ⟨h.log_length,
        fun c i hi => (h.headed c i hi).frame rfl rfl le_rfl hle fun _ => rfl,
        fun c i hi => (h.filled c i hi).frame rfl rfl hle fun _ => rfl⟩

end Xen2mx.Xenfront
