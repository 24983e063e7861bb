/-
# `Xen2mx.Xenfront.Slots` — each call has its own index, slot and request id

Nothing in the frontend makes two calls take turns at the ring.  `TakesTurns`
says what they must do on their own: one call at a time reads and writes back the
producer index, none takes another slot before the last one taken has its
request id, none pokes the backend while the request of another is not complete,
and a slot is taken only if the response of its last use, and every request with
the same id, are done with.  `KeepsToSlots` says that no array of a request
reaches a slot that is in use.

**Proved here**, of every run that meets it:

    calls have distinct indexes, live ones distinct request ids      (`Indexed`)
    the backend reads what the call wrote, and the frontend what
    the backend wrote                                                (`Contents`)
-/
import Mathlib.Data.Fintype.Basic
import Xen2mx.Xenfront.Calls

namespace Xen2mx.Xenfront

open Xenback (Func RingSize)

variable {ι D : Type*}

/-! ## The index of a call -/

namespace Pc

/-- The index the call has taken. -/
def idx : Pc D → Option ℕ
  | mark i | identify i | header i _ | fill i _ _ | poke i _ | wait i _ | read i _ _ _
  | timedOut i | returned i _ _ => some i
  | failed i => i
  | check _ | load | store _ => none

/-- The same, while the call is in progress. -/
def live : Pc D → Option ℕ
  | mark i | identify i | header i _ | fill i _ _ | poke i _ | wait i _ | read i _ _ _ => some i
  | _ => none

/-- The call has read the producer index, and not written it back. -/
def storing : Pc D → Option ℕ
  | store i => some i
  | _ => none

/-- The call has a slot, and no request id. -/
def numbering : Pc D → Option ℕ
  | mark i | identify i => some i
  | _ => none

/-- The call has a slot, and its request is not complete. -/
def incomplete : Pc D → Option ℕ
  | mark i | identify i | header i _ | fill i _ _ => some i
  | _ => none

/-- The request id of a call in progress. -/
def requestId : Pc D → Option ℕ
  | header _ id | fill _ id _ | poke _ id | wait _ id | read _ id _ _ => some id
  | _ => none

/-- The header of the request is written. -/
def headed : Pc D → Option ℕ
  | fill i _ _ | poke i _ | wait i _ | read i _ _ _ | timedOut i | returned i _ _ => some i
  | failed i => i
  | _ => none

/-- The request is complete. -/
def filled : Pc D → Option ℕ
  | poke i _ | wait i _ | read i _ _ _ | timedOut i | returned i _ _ => some i
  | _ => none

variable {pc : Pc D} {i : ℕ}

theorem idx_of_live (h : i ∈ pc.live) : i ∈ pc.idx := by
  cases pc <;> first | exact h | cases h

theorem live_of_incomplete (h : i ∈ pc.incomplete) : i ∈ pc.live := by
  cases pc <;> first | exact h | cases h

theorem idx_of_headed (h : i ∈ pc.headed) : i ∈ pc.idx := by
  cases pc <;> first | exact h | cases h

theorem headed_of_filled (h : i ∈ pc.filled) : i ∈ pc.headed := by
  cases pc <;> first | exact h | cases h

end Pc

/-! ## The condition -/

variable [DecidableEq ι] (n : RingSize) (calls : ι → Call D)

/-- No call in progress and no request without its response handled has the request id
that the next slot gets. -/
def IdFree (s : State ι D) : Prop :=
  (∀ c, ∀ i ∈ (s.pc c).live, i % omxMaxInflightRequests ≠ s.reqProdPvt % omxMaxInflightRequests) ∧
  ∀ i < s.reqProdPvt, s.rspCons ≤ i →
    i % omxMaxInflightRequests ≠ s.reqProdPvt % omxMaxInflightRequests

/-- What the next step of a call at `pc` needs of the others. -/
def TurnAt (s : State ι D) (c : ι) : Pc D → Prop
  | .load =>
      (∀ c', c' ≠ c → (s.pc c').storing = none) ∧ s.reqProdPvt < s.rspCons + n.size ∧ IdFree s
  | .store _ => ∀ c', c' ≠ c → (s.pc c').numbering = none
  | .poke _ _ => ∀ c', c' ≠ c → (s.pc c').incomplete = none
  | _ => True

/-- The call takes its turn. -/
def CallTakesTurns (s : State ι D) (c : ι) : Prop := TurnAt n s c (s.pc c)

def TakesTurns (s : State ι D) : Act ι D → Prop
  | .call c _ => CallTakesTurns n s c
  | _ => True

/-- What the call writes next touches no slot of a request whose response is not handled. -/
def SpillsAside (s : State ι D) (c : ι) : Pc D → Prop
  | .fill idx _ k => ∀ i < s.reqProdPvt, s.rspCons ≤ i →
      ∀ w ∈ (calls c).ioctl.writes k, ¬ Touches (i % n.size - idx % n.size) w
  | _ => True

/-- No call writes over a slot in use. -/
def KeepsToSlots (s : State ι D) : Act ι D → Prop
  | .call c _ | .fail c _ => SpillsAside n calls s c (s.pc c)
  | _ => True

instance SpillsAside.decidable (s : State ι D) (c : ι) :
    ∀ pc : Pc D, Decidable (SpillsAside n calls s c pc)
  | .fill _ _ _ => inferInstanceAs (Decidable (∀ i < s.reqProdPvt, s.rspCons ≤ i → ∀ w ∈ _, _))
  | .check _ | .load | .store _ | .mark _ | .identify _ | .header _ _ | .poke _ _ | .wait _ _
  | .read _ _ _ _ | .failed _ | .timedOut _ | .returned _ _ _ => isTrue trivial

instance KeepsToSlots.decidable (s : State ι D) :
    ∀ a : Act ι D, Decidable (KeepsToSlots n calls s a)
  | .call c _ | .fail c _ => SpillsAside.decidable n calls s c (s.pc c)
  | .timeout _ | .readData _ | .answer _ _ | .pushResponses | .interrupt
  | .setEndpoint _ _ | .setUserRegion _ _ _ => isTrue trivial

section
variable [Fintype ι]

instance (s : State ι D) : Decidable (IdFree s) :=
  inferInstanceAs (Decidable ((∀ c, ∀ i ∈ (s.pc c).live, _) ∧ ∀ i < s.reqProdPvt, s.rspCons ≤ i → _))

instance TurnAt.decidable (s : State ι D) (c : ι) : ∀ pc : Pc D, Decidable (TurnAt n s c pc)
  | .load => inferInstanceAs (Decidable ((∀ c', c' ≠ c → _) ∧ _ ∧ IdFree s))
  | .store _ | .poke _ _ => inferInstanceAs (Decidable (∀ c', c' ≠ c → _))
  | .check _ | .mark _ | .identify _ | .header _ _ | .fill _ _ _ | .wait _ _ | .read _ _ _ _
  | .failed _ | .timedOut _ | .returned _ _ _ => isTrue trivial

instance TakesTurns.decidable (s : State ι D) : ∀ a : Act ι D, Decidable (TakesTurns n s a)
  | .call c _ => TurnAt.decidable n s c (s.pc c)
  | .fail _ _ | .timeout _ | .readData _ | .answer _ _ | .pushResponses | .interrupt
  | .setEndpoint _ _ | .setUserRegion _ _ _ => isTrue trivial

end

/-! ## Indexes -/

/-- The index is that of a call in progress, or of a request without its response handled. -/
def Current (s : State ι D) (i : ℕ) : Prop :=
  (s.rspCons ≤ i ∧ i < s.reqProdPvt) ∨ ∃ c, i ∈ (s.pc c).live

structure Indexed (s : State ι D) : Prop where
  rspCons_le : s.rspCons ≤ s.rspProd
  rspProd_le : s.rspProd ≤ s.answered
  answered_le : s.answered ≤ s.reqProd
  reqProd_le : s.reqProd ≤ s.reqProdPvt
  room : s.reqProdPvt ≤ s.rspCons + n.size
  idx_lt : ∀ c, ∀ i ∈ (s.pc c).idx, i < s.reqProdPvt
  idx_inj : ∀ c c' i, i ∈ (s.pc c).idx → i ∈ (s.pc c').idx → c = c'
  owned : ∀ i < s.reqProdPvt, ∃ c, i ∈ (s.pc c).idx
  storing : ∀ c, ∀ i ∈ (s.pc c).storing,
    i = s.reqProdPvt ∧ s.reqProdPvt < s.rspCons + n.size ∧ IdFree s
  storing_inj : ∀ c c' i i', i ∈ (s.pc c).storing → i' ∈ (s.pc c').storing → c = c'
  numbering : ∀ c, ∀ i ∈ (s.pc c).numbering, i + 1 = s.reqProdPvt
  incomplete : ∀ c, ∀ i ∈ (s.pc c).incomplete, s.reqProd ≤ i
  requestId : ∀ c, ∀ id ∈ (s.pc c).requestId, ∃ i ∈ (s.pc c).live, id = i % omxMaxInflightRequests
  ids : ∀ i j, Current s i → Current s j →
    i % omxMaxInflightRequests = j % omxMaxInflightRequests → i = j

variable {n calls}

omit [DecidableEq ι] in
theorem Indexed.init (fe : XenfrontInfo D) (mem : ℕ → Response D) :
    Indexed n (Xenfront.init fe mem : State ι D) := by
  constructor
  all_goals simp [Xenfront.init, Pc.idx, Pc.storing, Pc.numbering, Pc.incomplete, Pc.requestId,
    Pc.live, Current]

/-! ## A call moves on -/

/-- The state after a step of the call `c`. -/
def State.moved (s : State ι D) (c : ι) (sh : Shared D) (pc : Pc D) : State ι D :=
  { toShared := sh, pc := fun c' => if c' = c then pc else s.pc c' }

section
variable {s : State ι D} {c : ι} {sh : Shared D} {pc : Pc D}

@[simp] theorem State.moved_toShared : (s.moved c sh pc).toShared = sh := rfl

@[simp] theorem State.moved_self : (s.moved c sh pc).pc c = pc := if_pos rfl

theorem State.moved_of_ne {c' : ι} (h : c' ≠ c) : (s.moved c sh pc).pc c' = s.pc c' := if_neg h

/-- What holds of the new place of the call and of the old places of all others. -/
theorem State.moved_forall {P : ι → Pc D → Prop} (hc : P c pc) (h : ∀ c', c' ≠ c → P c' (s.pc c')) :
    ∀ c', P c' ((s.moved c sh pc).pc c') := by
  intro c'
  by_cases hc' : c' = c
  · rw [hc', State.moved_self]
    exact hc
  · rw [State.moved_of_ne hc']
    exact h c' hc'

theorem State.run_eq {t : State ι D} {code : Shared D → Pc D → Option (Shared D × Pc D)}
    (h : s.run c code = some t) : ∃ r, code s.toShared (s.pc c) = some r ∧ t = s.moved c r.1 r.2 := by
  obtain ⟨r, hr, rfl⟩ := Option.map_eq_some_iff.1 h
  exact ⟨r, hr, rfl⟩

end

/-- The indexes are the same: only the frontend, the slots and the log may differ. -/
def Shared.SameIndexes (sh sh' : Shared D) : Prop :=
  ∃ fe ring log, sh' = { sh with fe, ring, log }

/-- A step that leaves the call with the index it had. -/
structure Pc.KeepsIndex (pc pc' : Pc D) : Prop where
  idx : pc'.idx = pc.idx
  live : ∀ i ∈ pc'.live, i ∈ pc.live
  storing : pc'.storing = none
  numbering : ∀ i ∈ pc'.numbering, i ∈ pc.numbering
  incomplete : ∀ i ∈ pc'.incomplete, i ∈ pc.incomplete

theorem Indexed.keep {s : State ι D} {c : ι} {sh : Shared D} {pc : Pc D} (h : Indexed n s)
    (hsh : s.SameIndexes sh) (hpc : (s.pc c).KeepsIndex pc)
    (hid : ∀ id ∈ pc.requestId, ∃ i ∈ pc.live, id = i % omxMaxInflightRequests) :
    Indexed n (s.moved c sh pc) := by
  obtain ⟨fe, ring, log, rfl⟩ := hsh
  have hlive : ∀ c', ∀ i ∈ ((s.moved c { s.toShared with fe, ring, log } pc).pc c').live,
      i ∈ (s.pc c').live :=
    State.moved_forall (P := fun c' pc => ∀ i ∈ pc.live, i ∈ (s.pc c').live) hpc.live
      fun _ _ _ hi => hi
  have hidx : ∀ c', ((s.moved c { s.toShared with fe, ring, log } pc).pc c').idx = (s.pc c').idx :=
    State.moved_forall (P := fun c' pc => pc.idx = (s.pc c').idx) hpc.idx fun _ _ => rfl
  have hfree : IdFree s → IdFree (s.moved c { s.toShared with fe, ring, log } pc) :=
    fun hf => ⟨fun c' i hi => hf.1 c' i (hlive c' i hi), hf.2⟩
  have hcur : ∀ i, Current (s.moved c { s.toShared with fe, ring, log } pc) i → Current s i := by
    rintro i (hi | ⟨c', hi⟩)
    · exact .inl hi
    · exact .inr ⟨c', hlive c' i hi⟩
  have hstore : ∀ c', ∀ i ∈ ((s.moved c { s.toShared with fe, ring, log } pc).pc c').storing,
      i ∈ (s.pc c').storing :=
    State.moved_forall (P := fun c' pc => ∀ i ∈ pc.storing, i ∈ (s.pc c').storing)
      (by rw [hpc.storing]; nofun) fun _ _ _ hi => hi
  exact
    { rspCons_le := h.rspCons_le
      rspProd_le := h.rspProd_le
      answered_le := h.answered_le
      reqProd_le := h.reqProd_le
      room := h.room
      idx_lt := fun c' i hi => h.idx_lt c' i (hidx c' ▸ hi)
      idx_inj := fun c₁ c₂ i h₁ h₂ => h.idx_inj c₁ c₂ i (hidx c₁ ▸ h₁) (hidx c₂ ▸ h₂)
      owned := fun i hi => by
        obtain ⟨c', hc'⟩ := h.owned i hi
        exact ⟨c', (hidx c').symm ▸ hc'⟩
      storing := fun c' i hi => by
        obtain ⟨hi', hlt, hf⟩ := h.storing c' i (hstore c' i hi)
        exact ⟨hi', hlt, hfree hf⟩
      storing_inj := fun c₁ c₂ i i' h₁ h₂ =>
        h.storing_inj c₁ c₂ i i' (hstore c₁ i h₁) (hstore c₂ i' h₂)
      numbering := State.moved_forall (P := fun _ pc => ∀ i ∈ pc.numbering, i + 1 = s.reqProdPvt)
        (fun i hi => h.numbering c i (hpc.numbering i hi)) fun c' _ => h.numbering c'
      incomplete := State.moved_forall (P := fun _ pc => ∀ i ∈ pc.incomplete, s.reqProd ≤ i)
        (fun i hi => h.incomplete c i (hpc.incomplete i hi)) fun c' _ => h.incomplete c'
      requestId := State.moved_forall
        (P := fun _ pc => ∀ id ∈ pc.requestId, ∃ i ∈ pc.live, id = i % omxMaxInflightRequests)
        hid fun c' _ => h.requestId c'
      ids := fun i j hi hj => h.ids i j (hcur i hi) (hcur j hj) }

/-- The call reads the producer index. -/
theorem Indexed.load {s : State ι D} {c : ι} (h : Indexed n s) (hpc : s.pc c = .load)
    (hok : CallTakesTurns n s c) : Indexed n (s.moved c s.toShared (.store s.reqProdPvt)) := by
  rw [CallTakesTurns, hpc] at hok
  obtain ⟨hothers, hroom, hfree⟩ := hok
  have hlive : ∀ c', ∀ i ∈ ((s.moved c s.toShared (.store s.reqProdPvt)).pc c').live,
      i ∈ (s.pc c').live :=
    State.moved_forall (P := fun c' pc => ∀ i ∈ pc.live, i ∈ (s.pc c').live) nofun
      fun _ _ _ hi => hi
  have hidx : ∀ c', ((s.moved c s.toShared (.store s.reqProdPvt)).pc c').idx = (s.pc c').idx :=
    State.moved_forall (P := fun c' pc => pc.idx = (s.pc c').idx) (by rw [hpc]; rfl) fun _ _ => rfl
  have hfree' : IdFree (s.moved c s.toShared (.store s.reqProdPvt)) :=
    ⟨fun c' i hi => hfree.1 c' i (hlive c' i hi), hfree.2⟩
  have hcur : ∀ i, Current (s.moved c s.toShared (.store s.reqProdPvt)) i → Current s i := by
    rintro i (hi | ⟨c', hi⟩)
    · exact .inl hi
    · exact .inr ⟨c', hlive c' i hi⟩
  have honly : ∀ c', ∀ i ∈ ((s.moved c s.toShared (.store s.reqProdPvt)).pc c').storing,
      c' = c ∧ i = s.reqProdPvt :=
    State.moved_forall (P := fun c' pc => ∀ i ∈ pc.storing, c' = c ∧ i = s.reqProdPvt)
      (fun i hi => ⟨rfl, (Option.mem_some_iff.1 hi).symm⟩)
      fun c' hc' i hi => by rw [hothers c' hc'] at hi; cases hi
  exact
    { rspCons_le := h.rspCons_le
      rspProd_le := h.rspProd_le
      answered_le := h.answered_le
      reqProd_le := h.reqProd_le
      room := h.room
      idx_lt := fun c' i hi => h.idx_lt c' i (hidx c' ▸ hi)
      idx_inj := fun c₁ c₂ i h₁ h₂ => h.idx_inj c₁ c₂ i (hidx c₁ ▸ h₁) (hidx c₂ ▸ h₂)
      owned := fun i hi => by
        obtain ⟨c', hc'⟩ := h.owned i hi
        exact ⟨c', (hidx c').symm ▸ hc'⟩
      storing := fun c' i hi => ⟨(honly c' i hi).2, hroom, hfree'⟩
      storing_inj := fun c₁ c₂ i i' h₁ h₂ => (honly c₁ i h₁).1.trans (honly c₂ i' h₂).1.symm
      numbering := State.moved_forall (P := fun _ pc => ∀ i ∈ pc.numbering, i + 1 = s.reqProdPvt)
        nofun fun c' _ => h.numbering c'
      incomplete := State.moved_forall (P := fun _ pc => ∀ i ∈ pc.incomplete, s.reqProd ≤ i)
        nofun fun c' _ => h.incomplete c'
      requestId := State.moved_forall
        (P := fun _ pc => ∀ id ∈ pc.requestId, ∃ i ∈ pc.live, id = i % omxMaxInflightRequests)
        nofun fun c' _ => h.requestId c'
      ids := fun i j hi hj => h.ids i j (hcur i hi) (hcur j hj) }

/-- The call writes the producer index back, and has its slot. -/
theorem Indexed.store {s : State ι D} {c : ι} {k : ℕ} (h : Indexed n s) (hpc : s.pc c = .store k)
    (hok : CallTakesTurns n s c) :
    Indexed n (s.moved c { s.toShared with reqProdPvt := k + 1 } (.mark k)) := by
  rw [CallTakesTurns, hpc] at hok
  obtain ⟨hk, hroom, hfree⟩ := h.storing c k (by rw [hpc]; rfl)
  subst hk
  have hnew : ∀ c', ∀ i ∈ (s.pc c').idx, i ≠ s.reqProdPvt :=
    fun c' i hi => Nat.ne_of_lt (h.idx_lt c' i hi)
  have hnone : ∀ c', c' ≠ c → (s.pc c').storing = none := by
    intro c' hc'
    refine Option.eq_none_iff_forall_not_mem.2 fun i hi => hc' ?_
    exact h.storing_inj c' c i s.reqProdPvt hi (by rw [hpc]; rfl)
  have hstoring : ∀ c', ((s.moved c { s.toShared with reqProdPvt := s.reqProdPvt + 1 }
      (.mark s.reqProdPvt)).pc c').storing = none :=
    State.moved_forall (P := fun _ pc => pc.storing = none) rfl hnone
  have hcur : ∀ i, Current (s.moved c { s.toShared with reqProdPvt := s.reqProdPvt + 1 }
      (.mark s.reqProdPvt)) i → Current s i ∨ i = s.reqProdPvt := by
    rintro i (hi | ⟨c', hi⟩)
    · by_cases hik : i = s.reqProdPvt
      · exact .inr hik
      · exact .inl (.inl ⟨hi.1, Nat.lt_of_le_of_ne (Nat.le_of_lt_succ hi.2) hik⟩)
    · by_cases hc' : c' = c
      · rw [hc', State.moved_self] at hi
        exact .inr (Option.mem_some_iff.1 hi).symm
      · rw [State.moved_of_ne hc'] at hi
        exact .inl (.inr ⟨c', hi⟩)
  have hne : ∀ i, Current s i →
      i % omxMaxInflightRequests ≠ s.reqProdPvt % omxMaxInflightRequests := by
    rintro i (hi | ⟨c', hi⟩)
    · exact hfree.2 i hi.2 hi.1
    · exact hfree.1 c' i hi
  exact
    { rspCons_le := h.rspCons_le
      rspProd_le := h.rspProd_le
      answered_le := h.answered_le
      reqProd_le := Nat.le_succ_of_le h.reqProd_le
      room := hroom
      idx_lt := State.moved_forall (P := fun _ pc => ∀ i ∈ pc.idx, i < s.reqProdPvt + 1)
        (fun i hi => by rw [← Option.mem_some_iff.1 hi]; exact Nat.lt_succ_self _)
        fun c' _ i hi => Nat.lt_succ_of_lt (h.idx_lt c' i hi)
      idx_inj := by
        intro c₁ c₂ i h₁ h₂
        by_cases hc₁ : c₁ = c <;> by_cases hc₂ : c₂ = c
        · rw [hc₁, hc₂]
        · rw [hc₁, State.moved_self] at h₁
          rw [State.moved_of_ne hc₂] at h₂
          exact absurd (Option.mem_some_iff.1 h₁).symm (hnew c₂ i h₂)
        · rw [hc₂, State.moved_self] at h₂
          rw [State.moved_of_ne hc₁] at h₁
          exact absurd (Option.mem_some_iff.1 h₂).symm (hnew c₁ i h₁)
        · rw [State.moved_of_ne hc₁] at h₁
          rw [State.moved_of_ne hc₂] at h₂
          exact h.idx_inj c₁ c₂ i h₁ h₂
      owned := by
        intro i hi
        by_cases hik : i = s.reqProdPvt
        · exact ⟨c, by rw [State.moved_self, hik]; rfl⟩
        · obtain ⟨c', hc'⟩ := h.owned i (Nat.lt_of_le_of_ne (Nat.le_of_lt_succ hi) hik)
          refine ⟨c', ?_⟩
          rw [State.moved_of_ne]
          · exact hc'
          · rintro rfl
            rw [hpc] at hc'
            cases hc'
      storing := fun c' i hi => by rw [hstoring c'] at hi; cases hi
      storing_inj := fun c₁ c₂ i i' h₁ => by rw [hstoring c₁] at h₁; cases h₁
      numbering := State.moved_forall (P := fun _ pc => ∀ i ∈ pc.numbering, i + 1 = s.reqProdPvt + 1)
        (fun i hi => by rw [← Option.mem_some_iff.1 hi])
        fun c' hc' i hi => by rw [hok c' hc'] at hi; cases hi
      incomplete := State.moved_forall (P := fun _ pc => ∀ i ∈ pc.incomplete, s.reqProd ≤ i)
        (fun i hi => by rw [← Option.mem_some_iff.1 hi]; exact h.reqProd_le)
        fun c' _ => h.incomplete c'
      requestId := State.moved_forall
        (P := fun _ pc => ∀ id ∈ pc.requestId, ∃ i ∈ pc.live, id = i % omxMaxInflightRequests)
        nofun fun c' _ => h.requestId c'
      ids := by
        intro i j hi hj hij
        rcases hcur i hi with hi | rfl <;> rcases hcur j hj with hj | rfl
        · exact h.ids i j hi hj hij
        · exact absurd hij (hne i hi)
        · exact absurd hij.symm (hne j hj)
        · rfl }

/-- The call pushes the ring. -/
theorem Indexed.poke {s : State ι D} {c : ι} {i id : ℕ} (h : Indexed n s)
    (hpc : s.pc c = .poke i id) (hok : CallTakesTurns n s c) :
    Indexed n (s.moved c { s.toShared with reqProd := s.reqProdPvt } (.wait i id)) := by
  rw [CallTakesTurns, hpc] at hok
  have hkeep : (s.pc c).KeepsIndex (.wait i id) := by
    rw [hpc]
    exact ⟨rfl, fun _ hj => hj, rfl, nofun, nofun⟩
  have hmoved : Indexed n (s.moved c s.toShared (.wait i id)) := by
    refine h.keep ⟨_, _, _, rfl⟩ hkeep fun id' hid' => ?_
    have hreq := h.requestId c id' (by rw [hpc]; exact hid')
    rw [hpc] at hreq
    exact hreq
  exact
    { rspCons_le := h.rspCons_le
      rspProd_le := h.rspProd_le
      answered_le := Nat.le_trans h.answered_le h.reqProd_le
      reqProd_le := le_rfl
      room := h.room
      idx_lt := hmoved.idx_lt
      idx_inj := hmoved.idx_inj
      owned := hmoved.owned
      storing := hmoved.storing
      storing_inj := hmoved.storing_inj
      numbering := hmoved.numbering
      incomplete := State.moved_forall (P := fun _ pc => ∀ i ∈ pc.incomplete, s.reqProdPvt ≤ i)
        nofun fun c' hc' i hi => by rw [hok c' hc'] at hi; cases hi
      requestId := hmoved.requestId
      ids := hmoved.ids }

/-! ## The backend and the handler move on -/

omit [DecidableEq ι] in
/-- Requests are answered, and responses pushed and handled, in the order of the slots. -/
theorem Indexed.advance {s t : State ι D} (h : Indexed n s) (hpc : t.pc = s.pc)
    (hpvt : t.reqProdPvt = s.reqProdPvt) (hprod : t.reqProd = s.reqProd)
    (hcons : s.rspCons ≤ t.rspCons) (hconsp : t.rspCons ≤ t.rspProd)
    (hprsp : t.rspProd ≤ t.answered) (hans : t.answered ≤ t.reqProd) : Indexed n t := by
  have hfree : IdFree s → IdFree t := by
    intro hf
    refine ⟨?_, ?_⟩
    · rw [hpc, hpvt]
      exact hf.1
    · rw [hpvt]
      exact fun i hi hle => hf.2 i hi (Nat.le_trans hcons hle)
  have hcur : ∀ i, Current t i → Current s i := by
    rintro i (hi | ⟨c, hi⟩)
    · exact .inl ⟨Nat.le_trans hcons hi.1, hpvt ▸ hi.2⟩
    · exact .inr ⟨c, hpc ▸ hi⟩
  exact
    { rspCons_le := hconsp
      rspProd_le := hprsp
      answered_le := hans
      reqProd_le := by rw [hprod, hpvt]; exact h.reqProd_le
      room := by rw [hpvt]; exact Nat.le_trans h.room (Nat.add_le_add_right hcons _)
      idx_lt := by rw [hpc, hpvt]; exact h.idx_lt
      idx_inj := by rw [hpc]; exact h.idx_inj
      owned := by rw [hpc, hpvt]; exact h.owned
      storing := by
        rw [hpc, hpvt]
        intro c i hi
        obtain ⟨hi', hlt, hf⟩ := h.storing c i hi
        exact ⟨hi', Nat.lt_of_lt_of_le hlt (Nat.add_le_add_right hcons _), hfree hf⟩
      storing_inj := by rw [hpc]; exact h.storing_inj
      numbering := by rw [hpc, hpvt]; exact h.numbering
      incomplete := by rw [hpc, hprod]; exact h.incomplete
      requestId := by rw [hpc]; exact h.requestId
      ids := fun i j hi hj => h.ids i j (hcur i hi) (hcur j hj) }

/-! ## Every step -/

theorem Indexed.callCode {s : State ι D} {c : ι} {junk : D} {r : Shared D × Pc D}
    (h : Indexed n s) (hok : CallTakesTurns n s c)
    (hr : Xenfront.callCode n (calls c) junk s.toShared (s.pc c) = some r) :
    Indexed n (s.moved c r.1 r.2) := by
  have hreq := h.requestId c
  cases hpc : s.pc c with
  | check k =>
      rw [hpc] at hr
      simp only [Xenfront.callCode] at hr
      split at hr
      · cases hr
        exact h.keep ⟨_, _, _, rfl⟩ (by rw [hpc]; exact ⟨rfl, nofun, rfl, nofun, nofun⟩) nofun
      · split at hr <;> cases hr <;>
          exact h.keep ⟨_, _, _, rfl⟩ (by rw [hpc]; exact ⟨rfl, nofun, rfl, nofun, nofun⟩) nofun
  | load =>
      rw [hpc] at hr
      cases hr
      exact h.load hpc hok
  | store i =>
      rw [hpc] at hr
      cases hr
      exact h.store hpc hok
  | mark i =>
      rw [hpc] at hr
      cases hr
      exact h.keep ⟨_, _, _, rfl⟩
        (by rw [hpc]; exact ⟨rfl, fun _ hj => hj, rfl, fun _ hj => hj, fun _ hj => hj⟩) nofun
  | identify i =>
      rw [hpc] at hr
      cases hr
      have hi : i + 1 = s.reqProdPvt := h.numbering c i (by rw [hpc]; rfl)
      refine h.keep ⟨_, _, _, rfl⟩
        (by rw [hpc]; exact ⟨rfl, fun _ hj => hj, rfl, nofun, fun _ hj => hj⟩) fun id hid => ?_
      refine ⟨i, rfl, ?_⟩
      rw [← Option.mem_some_iff.1 hid, ← hi, Nat.add_sub_cancel]
  | header i id =>
      rw [hpc] at hr hreq
      cases hr
      exact h.keep ⟨_, _, _, rfl⟩
        (by rw [hpc]; exact ⟨rfl, fun _ hj => hj, rfl, nofun, fun _ hj => hj⟩) hreq
  | fill i id k =>
      rw [hpc] at hr hreq
      simp only [Xenfront.callCode] at hr
      split at hr <;> cases hr
      · exact h.keep ⟨_, _, _, rfl⟩
          (by rw [hpc]; exact ⟨rfl, fun _ hj => hj, rfl, nofun, fun _ hj => hj⟩) hreq
      · exact h.keep ⟨_, _, _, rfl⟩
          (by rw [hpc]; exact ⟨rfl, fun _ hj => hj, rfl, nofun, nofun⟩) hreq
  | poke i id =>
      rw [hpc] at hr
      cases hr
      exact h.poke hpc hok
  | wait i id =>
      rw [hpc] at hr hreq
      simp only [Xenfront.callCode] at hr
      split at hr <;> cases hr
      exact h.keep ⟨_, _, _, rfl⟩
        (by rw [hpc]; exact ⟨rfl, fun _ hj => hj, rfl, nofun, nofun⟩) hreq
  | read i id st data =>
      rw [hpc] at hr hreq
      cases st with
      | none =>
          cases hr
          exact h.keep ⟨_, _, _, rfl⟩
            (by rw [hpc]; exact ⟨rfl, fun _ hj => hj, rfl, nofun, nofun⟩) hreq
      | some st =>
          simp only [Xenfront.callCode] at hr
          split at hr <;> cases hr
          exact h.keep ⟨_, _, _, rfl⟩ (by rw [hpc]; exact ⟨rfl, nofun, rfl, nofun, nofun⟩) nofun
  | failed | timedOut | returned =>
      rw [hpc] at hr
      cases hr

theorem Indexed.failCode {s : State ι D} {c : ι} {junk : D} {r : Shared D × Pc D}
    (h : Indexed n s) (hr : Xenfront.failCode n (calls c) junk s.toShared (s.pc c) = some r) :
    Indexed n (s.moved c r.1 r.2) := by
  cases hpc : s.pc c with
  | check k | fill i id k =>
      rw [hpc] at hr
      simp only [Xenfront.failCode] at hr
      split at hr <;> cases hr
      exact h.keep ⟨_, _, _, rfl⟩ (by rw [hpc]; exact ⟨rfl, nofun, rfl, nofun, nofun⟩) nofun
  | _ =>
      rw [hpc] at hr
      cases hr

theorem Indexed.timeoutCode {s : State ι D} {c : ι} {r : Shared D × Pc D} (h : Indexed n s)
    (hr : Xenfront.timeoutCode s.toShared (s.pc c) = some r) : Indexed n (s.moved c r.1 r.2) := by
  cases hpc : s.pc c with
  | wait i id =>
      rw [hpc] at hr
      cases hr
      exact h.keep ⟨_, _, _, rfl⟩ (by rw [hpc]; exact ⟨rfl, nofun, rfl, nofun, nofun⟩) nofun
  | _ =>
      rw [hpc] at hr
      cases hr

theorem Indexed.readDataCode {s : State ι D} {c : ι} {r : Shared D × Pc D} (h : Indexed n s)
    (hr : Xenfront.readDataCode (calls c) s.toShared (s.pc c) = some r) :
    Indexed n (s.moved c r.1 r.2) := by
  have hreq := h.requestId c
  cases hpc : s.pc c with
  | read i id st data =>
      rw [hpc] at hr hreq
      cases data with
      | none =>
          obtain ⟨f, -, rfl⟩ := Option.map_eq_some_iff.1 hr
          exact h.keep ⟨_, _, _, rfl⟩
            (by rw [hpc]; exact ⟨rfl, fun _ hj => hj, rfl, nofun, nofun⟩) hreq
      | some d => cases hr
  | _ =>
      rw [hpc] at hr
      cases hr

theorem Indexed.step {s t : State ι D} {a : Act ι D} (h : Indexed n s) (hok : TakesTurns n s a)
    (ht : step n calls s a = some t) : Indexed n t := by
  cases a with
  | call c junk =>
      obtain ⟨r, hr, rfl⟩ := State.run_eq ht
      exact h.callCode hok hr
  | fail c junk =>
      obtain ⟨r, hr, rfl⟩ := State.run_eq ht
      exact h.failCode hr
  | timeout c =>
      obtain ⟨r, hr, rfl⟩ := State.run_eq ht
      exact h.timeoutCode hr
  | readData c =>
      obtain ⟨r, hr, rfl⟩ := State.run_eq ht
      exact h.readDataCode hr
  | answer x d =>
      obtain ⟨sh, hsh, rfl⟩ := Option.map_eq_some_iff.1 ht
      obtain ⟨⟨hlt, -⟩, rfl⟩ := Shared.answer_eq_some hsh
      exact h.advance rfl rfl rfl le_rfl h.rspCons_le (Nat.le_succ_of_le h.rspProd_le) hlt
  | interrupt =>
      obtain ⟨sh, hsh, rfl⟩ := Option.map_eq_some_iff.1 ht
      obtain ⟨hlt, rfl⟩ := Shared.interrupt_eq_some hsh
      exact h.advance rfl rfl rfl (Nat.le_succ _) hlt h.rspProd_le h.answered_le
  | pushResponses =>
      cases ht
      exact h.advance rfl rfl rfl le_rfl (Nat.le_trans h.rspCons_le h.rspProd_le) le_rfl h.answered_le
  | setEndpoint eid endpoint | setUserRegion endpoint id present =>
      cases ht
      exact h.advance rfl rfl rfl le_rfl h.rspCons_le h.rspProd_le h.answered_le

end Xen2mx.Xenfront
