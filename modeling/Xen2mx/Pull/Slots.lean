/-
# `Xen2mx.Pull.Slots` — the ids of the pull handles

A pull request carries a number by which its replies find the handle: the index of a slot, in the
upper 10 bits, and a generation of it in the lower 22.  A slot that is given back goes to the end of
the free list with the next generation, so that a late reply finds another number there.

    create      the first free slot gets the handle, the handle the number of the slot
    complete    the slot loses the handle and goes on to the next generation
    acquire     the handle of the slot, if the number is that of the slot now

The status of a handle says whether it has a slot: `OK` from the creation to the completion, to the
end of the endpoint or to a header that cannot be filled, whichever comes first.

**Proved here.**

    the next number has the same index and the next generation      (`indexFromId_inc`, `toNat_generation_iterate`)
    a slot is free or has a handle, and the handle has its number   (`Coherent.step`)
    a number is found  ⟺  it is that of an occupied slot now        (`Coherent.acquireFromSlot_eq_some_iff`)
    numbers of former occupants are not found                       (`acquireFromSlot_spec`)
-/
import Mathlib.Logic.Function.Iterate
import Xen2mx.Lib.Runs
import Xen2mx.Pull.Handle

namespace Xen2mx.Pull

/-! ## Numbers -/

/-- `OMX_PULL_HANDLE_SLOT_INDEX_BITS`. -/
def slotIndexBits : ℕ := 10

/-- `OMX_PULL_HANDLE_SLOT_GENERATION_BITS`. -/
def slotGenerationBits : ℕ := 32 - slotIndexBits

/-- `OMX_PULL_HANDLE_SLOT_INDEX_MAX`. -/
def slotIndexMax : ℕ := 1 <<< slotIndexBits

/-- `OMX_PULL_HANDLE_SLOT_INDEX_MASK`. -/
def slotIndexMask : BitVec 32 := BitVec.ofNat 32 (slotIndexMax - 1) <<< slotGenerationBits

/-- `OMX_PULL_HANDLE_SLOT_GENERATION_MASK`. -/
def slotGenerationMask : BitVec 32 := 1#32 <<< slotGenerationBits - 1#32

/-- `OMX_PULL_HANDLE_SLOT_GENERATION_FIRST`. -/
def slotGenerationFirst : BitVec 32 := 0x23#32

/-- `OMX_PULL_HANDLE_SLOT_ID_FIRST`. -/
def slotIdFirst (index : ℕ) : BitVec 32 :=
  (slotGenerationFirst &&& slotGenerationMask) + BitVec.ofNat 32 index <<< slotGenerationBits

/-- `OMX_PULL_HANDLE_SLOT_ID_INC`. -/
def slotIdInc (id : BitVec 32) : BitVec 32 :=
  (id &&& slotIndexMask) ||| ((id + 1#32) &&& slotGenerationMask)

/-- `OMX_PULL_HANDLE_SLOT_INDEX_FROM_ID`. -/
def indexFromId (id : BitVec 32) : ℕ := (id >>> slotGenerationBits).toNat

/-- `OMX_PULL_HANDLE_SLOT_GENERATION_FROM_ID`. -/
def generationFromId (id : BitVec 32) : BitVec 32 := id &&& slotGenerationMask

theorem indexFromId_lt (id : BitVec 32) : indexFromId id < slotIndexMax := by
  have hlt : id.toNat < 2 ^ 32 := id.isLt
  rw [indexFromId, BitVec.toNat_ushiftRight, Nat.shiftRight_eq_div_pow]
  exact Nat.div_lt_of_lt_mul hlt

theorem slotGenerationMask_toNat : slotGenerationMask.toNat = 2 ^ slotGenerationBits - 1 := by decide

theorem toNat_generationFromId (id : BitVec 32) :
    (generationFromId id).toNat = id.toNat % 2 ^ slotGenerationBits := by
  rw [generationFromId, BitVec.toNat_and, slotGenerationMask_toNat, Nat.and_two_pow_sub_one_eq_mod]

theorem indexFromId_first {index : ℕ} (h : index < slotIndexMax) :
    indexFromId (slotIdFirst index) = index := by
  have hfirst : (slotGenerationFirst &&& slotGenerationMask).toNat = 0x23 := by decide
  have hlt : index < 1024 := h
  rw [indexFromId, slotIdFirst, BitVec.toNat_ushiftRight, BitVec.toNat_add, hfirst,
    BitVec.toNat_shiftLeft, BitVec.toNat_ofNat, Nat.shiftLeft_eq, Nat.shiftRight_eq_div_pow]
  change (35 + index % 2 ^ 32 * 2 ^ 22 % 2 ^ 32) % 2 ^ 32 / 2 ^ 22 = index
  omega

/-- The next generation stays in the slot. -/
theorem indexFromId_inc (id : BitVec 32) : indexFromId (slotIdInc id) = indexFromId id := by
  have hmask : slotIndexMask >>> slotGenerationBits = 0x3ff#32 := by decide
  have hgen : ((id + 1#32) &&& slotGenerationMask) >>> slotGenerationBits = 0#32 := by
    have hzero : slotGenerationMask >>> slotGenerationBits = 0#32 := by decide
    rw [BitVec.ushiftRight_and_distrib, hzero, BitVec.and_zero]
  have hindex : (id >>> slotGenerationBits).toNat < 2 ^ 10 := indexFromId_lt id
  rw [indexFromId, slotIdInc, BitVec.ushiftRight_or_distrib, hgen, BitVec.or_zero,
    BitVec.ushiftRight_and_distrib, hmask, BitVec.toNat_and]
  exact (Nat.and_two_pow_sub_one_eq_mod _ 10).trans (Nat.mod_eq_of_lt hindex)

theorem generationFromId_inc (id : BitVec 32) :
    generationFromId (slotIdInc id) = generationFromId (id + 1#32) := by
  have hmask : slotIndexMask &&& slotGenerationMask = 0#32 := by decide
  rw [generationFromId, slotIdInc, BitVec.and_or_distrib_right, BitVec.and_assoc, hmask,
    BitVec.and_zero, BitVec.zero_or, BitVec.and_assoc, BitVec.and_self]
  rfl

theorem toNat_generation_inc (id : BitVec 32) :
    (generationFromId (slotIdInc id)).toNat =
      ((generationFromId id).toNat + 1) % 2 ^ slotGenerationBits := by
  rw [generationFromId_inc, toNat_generationFromId, toNat_generationFromId, BitVec.toNat_add]
  change (id.toNat + 1) % 2 ^ 32 % 2 ^ 22 = (id.toNat % 2 ^ 22 + 1) % 2 ^ 22
  omega

/-- The generations go round. -/
theorem toNat_generation_iterate (id : BitVec 32) (k : ℕ) :
    (generationFromId (slotIdInc^[k] id)).toNat =
      ((generationFromId id).toNat + k) % 2 ^ slotGenerationBits := by
  induction k with
  | zero =>
      have hlt : (generationFromId id).toNat < 2 ^ slotGenerationBits := by
        rw [toNat_generationFromId]
        exact Nat.mod_lt _ (Nat.two_pow_pos _)
      exact (Nat.mod_eq_of_lt hlt).symm
  | succ k ih =>
      rw [Function.iterate_succ_apply', toNat_generation_inc, ih, Nat.mod_add_mod, Nat.add_assoc]

/-- A number comes back only after all generations. -/
theorem iterate_slotIdInc_ne {k : ℕ} (id : BitVec 32) (hpos : 0 < k)
    (hlt : k < 2 ^ slotGenerationBits) : slotIdInc^[k] id ≠ id := by
  intro heq
  have hgen := toNat_generation_iterate id k
  rw [heq] at hgen
  have hself : (generationFromId id).toNat = id.toNat % 2 ^ slotGenerationBits :=
    toNat_generationFromId id
  change k < 2 ^ 22 at hlt
  change _ = (_ + k) % 2 ^ 22 at hgen
  change _ = id.toNat % 2 ^ 22 at hself
  omega

/-! ## Slots -/

/-- `struct omx_pull_handle_slot`; `list_elt` links the slots of the free list. -/
structure Slot (η : Type*) where
  handle : Option η
  id : BitVec 32

/-- What the slots see of a handle: `slot_id` and `status`. -/
structure SlotHandle where
  slotId : BitVec 32
  status : Status

/-- `pull_handle_slots_array` and `pull_handle_slots_free_list` of an endpoint, and the handles that
are allocated. -/
structure Slots (η : Type*) where
  array : ℕ → Slot η
  freeList : List ℕ
  handles : η → Option SlotHandle

variable {η : Type*} [DecidableEq η]

namespace Slots

/-- `omx_pull_handle_slots_init`. -/
def init : Slots η where
  array := fun i => ⟨none, slotIdFirst i⟩
  freeList := List.range slotIndexMax
  handles := fun _ => none

/-- `omx_pull_handle_alloc_slot`, for a handle that was just allocated: `none` is `-ENOMEM`. -/
def allocSlot (s : Slots η) (handle : η) : Option (Slots η) :=
  match s.freeList with
  | [] => none
  | slot :: freeList => some
      { array := Function.update s.array slot { s.array slot with handle := some handle }
        freeList
        handles := Function.update s.handles handle (some ⟨(s.array slot).id, .ok⟩) }

/-- `omx_pull_handle_free_slot`, for a handle with that number. -/
def freeSlot (s : Slots η) (slotId : BitVec 32) : Slots η :=
  let index := indexFromId slotId
  { s with
    array := Function.update s.array index ⟨none, slotIdInc (s.array index).id⟩
    freeList := s.freeList ++ [index] }

/-- `omx_pull_handle_acquire_from_slot`. -/
def acquireFromSlot (s : Slots η) (slotId : BitVec 32) : Option η :=
  let index := indexFromId slotId
  if slotIndexMax ≤ index then none
  else
    match (s.array index).handle with
    | none => none
    | some handle => if slotId ≠ (s.array index).id then none else some handle

def setHandle (s : Slots η) (handle : η) (p : Option SlotHandle) : Slots η :=
  { s with handles := Function.update s.handles handle p }

end Slots

/-! ## The machine -/

/-- What happens to the handles of an endpoint. -/
inductive SlotAction (η : Type*) where
  /-- `omx_pull_handle_create`; the memory allocator chooses the handle, and the header is filled,
  or not. -/
  | create (handle : η) (filled : Bool)
  /-- `omx_pull_handle_mark_completed`, and the first part of `omx_endpoint_pull_handles_exit` for a
  handle that is `OK`. -/
  | complete (handle : η)
  /-- the timer exits -/
  | timerExit (handle : η)
  /-- `__omx_pull_handle_last_release` -/
  | lastRelease (handle : η)
  /-- `omx_pull_handle_acquire_from_slot`, with a number from the wire -/
  | acquire (slotId : BitVec 32)

/-- The step of an action; `none` where it cannot happen. -/
def slotStep (s : Slots η) : SlotAction η → Option (Slots η)
  | .create handle filled =>
      match s.handles handle with
      | some _ => none
      | none =>
          match s.allocSlot handle with
          | none => some s
          | some s' =>
              if filled then some s'
              else (s'.handles handle).map fun p => (s'.freeSlot p.slotId).setHandle handle none
  | .complete handle =>
      match s.handles handle with
      | some ⟨slotId, .ok⟩ =>
          some ((s.freeSlot slotId).setHandle handle (some ⟨slotId, .timerMustExit⟩))
      | _ => none
  | .timerExit handle =>
      match s.handles handle with
      | some ⟨slotId, .timerMustExit⟩ =>
          some (s.setHandle handle (some ⟨slotId, .timerExited⟩))
      | _ => none
  | .lastRelease handle =>
      match s.handles handle with
      | some ⟨_, .timerExited⟩ => some (s.setHandle handle none)
      | _ => none
  | .acquire _ => some s

/-- The slots of an endpoint. -/
def slotMachine (η : Type*) [DecidableEq η] : Machine (Slots η) (SlotAction η) where
  init := .init
  step := slotStep

/-! ## Free and occupied slots -/

/-- A slot is in the free list once, or has a handle that is `OK` and has its number. -/
structure Coherent (s : Slots η) : Prop where
  nodup : s.freeList.Nodup
  mem_iff : ∀ i, i ∈ s.freeList ↔ i < slotIndexMax ∧ (s.array i).handle = none
  index : ∀ i, i < slotIndexMax → indexFromId (s.array i).id = i
  occupied : ∀ i handle, i < slotIndexMax → (s.array i).handle = some handle →
    s.handles handle = some ⟨(s.array i).id, .ok⟩
  slot : ∀ handle slotId, s.handles handle = some ⟨slotId, .ok⟩ →
    s.array (indexFromId slotId) = ⟨some handle, slotId⟩

namespace Coherent

variable {s s' : Slots η} {handle : η} {slotId : BitVec 32}

omit [DecidableEq η] in
theorem init : Coherent (Slots.init : Slots η) where
  nodup := by
    dsimp only [Slots.init]
    exact List.nodup_range
  mem_iff := fun i => by
    dsimp only [Slots.init]
    exact List.mem_range.trans (and_iff_left rfl).symm
  index := fun _ hi => indexFromId_first hi
  occupied := fun _ _ _ h => nomatch h
  slot := fun _ _ h => nomatch h

omit [DecidableEq η] in
/-- The number that is found is that of an occupied slot. -/
theorem acquireFromSlot_eq_some_iff (h : Coherent s) :
    s.acquireFromSlot slotId = some handle ↔
      ∃ i, i < slotIndexMax ∧ (s.array i).handle = some handle ∧ (s.array i).id = slotId := by
  have hlt := indexFromId_lt slotId
  rw [Slots.acquireFromSlot, if_neg (Nat.not_le.2 hlt)]
  constructor
  · intro hfound
    split at hfound
    · exact nomatch hfound
    · next handle' hhandle =>
        obtain ⟨hid, hfound⟩ := Option.ite_none_left_eq_some.1 hfound
        cases hfound
        exact ⟨_, hlt, hhandle, (not_not.1 hid).symm⟩
  · rintro ⟨i, hi, hhandle, rfl⟩
    rw [h.index i hi, hhandle]
    exact if_neg (not_not.2 rfl)

/-- A handle that has no slot comes or goes, and the slots are as before. -/
theorem setHandle (h : Coherent s) {p : Option SlotHandle}
    (hbefore : ∀ slotId, s.handles handle ≠ some ⟨slotId, .ok⟩)
    (hafter : ∀ slotId, p ≠ some ⟨slotId, .ok⟩) : Coherent (s.setHandle handle p) where
  nodup := h.nodup
  mem_iff := h.mem_iff
  index := h.index
  occupied := fun i handle' hi hocc => by
    have hok := h.occupied i handle' hi hocc
    have hne : handle' ≠ handle := by
      rintro rfl
      exact hbefore _ hok
    exact (Function.update_of_ne hne _ _).trans hok
  slot := fun handle' slotId' hok => by
    rcases eq_or_ne handle' handle with rfl | hne
    · exact absurd ((Function.update_self ..).symm.trans hok) (hafter _)
    · exact h.slot handle' slotId' ((Function.update_of_ne hne _ _).symm.trans hok)

theorem allocSlot (h : Coherent s) (hnew : s.handles handle = none)
    (halloc : s.allocSlot handle = some s') :
    Coherent s' ∧ (∀ i, (s'.array i).id = (s.array i).id) ∧
      ∃ slotId, s'.handles handle = some ⟨slotId, .ok⟩ ∧
        s.freeList.head? = some (indexFromId slotId) := by
  unfold Slots.allocSlot at halloc
  cases hfree : s.freeList with
  | nil => rw [hfree] at halloc; exact nomatch halloc
  | cons slot freeList =>
      rw [hfree] at halloc
      cases halloc
      have hnodup : (slot :: freeList).Nodup := hfree ▸ h.nodup
      obtain ⟨hslot, hnone⟩ := (h.mem_iff slot).1 (hfree ▸ List.mem_cons_self ..)
      have hid : ∀ i, (Function.update s.array slot
          { s.array slot with handle := some handle } i).id = (s.array i).id := fun i => by
        rcases eq_or_ne i slot with rfl | hne
        · rw [Function.update_self]
        · rw [Function.update_of_ne hne]
      refine ⟨⟨(List.nodup_cons.1 hnodup).2, fun i => ?_, fun i hi => ?_, fun i handle' hi hocc => ?_,
        fun handle' slotId' hok => ?_⟩, hid, (s.array slot).id, Function.update_self .., ?_⟩
      · -- the slot leaves the list and gets a handle
        change i ∈ freeList ↔ i < slotIndexMax ∧ (Function.update s.array slot _ i).handle = none
        rcases eq_or_ne i slot with rfl | hne
        · rw [Function.update_self]
          exact iff_of_false (List.nodup_cons.1 hnodup).1 fun hno => nomatch hno.2
        · have hmem := h.mem_iff i
          rw [hfree, List.mem_cons, or_iff_right hne] at hmem
          rw [Function.update_of_ne hne, hmem]
      · exact (congrArg indexFromId (hid i)).trans (h.index i hi)
      · change Function.update s.handles handle _ handle' =
          some ⟨(Function.update s.array slot _ i).id, _⟩
        rw [hid]
        rcases eq_or_ne i slot with rfl | hne
        · change (Function.update s.array i _ i).handle = _ at hocc
          rw [Function.update_self] at hocc
          cases hocc
          rw [Function.update_self]
        · change (Function.update s.array slot _ i).handle = _ at hocc
          rw [Function.update_of_ne hne] at hocc
          have hok := h.occupied i handle' hi hocc
          have hne' : handle' ≠ handle := by
            rintro rfl
            exact nomatch hnew.symm.trans hok
          rw [Function.update_of_ne hne', hok]
      · change Function.update s.handles handle _ handle' = _ at hok
        change Function.update s.array slot _ _ = _
        rcases eq_or_ne handle' handle with rfl | hne
        · rw [Function.update_self] at hok
          cases hok
          rw [h.index slot hslot, Function.update_self]
        · rw [Function.update_of_ne hne] at hok
          have hat := h.slot handle' slotId' hok
          have hne' : indexFromId slotId' ≠ slot := by
            rintro rfl
            rw [hat] at hnone
            exact nomatch hnone
          rw [Function.update_of_ne hne', hat]
      · exact congrArg some (h.index slot hslot).symm

/-- The slot of a handle is given back, and the handle is no longer `OK`. -/
theorem freeSlot (h : Coherent s) (hok : s.handles handle = some ⟨slotId, .ok⟩)
    {p : Option SlotHandle} (hafter : ∀ slotId, p ≠ some ⟨slotId, .ok⟩) :
    Coherent ((s.freeSlot slotId).setHandle handle p) := by
  have hlt := indexFromId_lt slotId
  have hslot := h.slot handle slotId hok
  have hnot : indexFromId slotId ∉ s.freeList := fun hmem => by
    have hnone := ((h.mem_iff _).1 hmem).2
    rw [hslot] at hnone
    exact nomatch hnone
  refine ⟨?_, fun i => ?_, fun i hi => ?_, fun i handle' hi hocc => ?_, fun handle' slotId' hok' => ?_⟩
  · change (s.freeList ++ [indexFromId slotId]).Nodup
    refine List.nodup_append.2 ⟨h.nodup, List.pairwise_singleton .., ?_⟩
    intro i hi j hj heq
    rw [List.mem_singleton] at hj
    exact hnot (hj ▸ heq ▸ hi)
  · change i ∈ s.freeList ++ [indexFromId slotId] ↔
      i < slotIndexMax ∧ (Function.update s.array (indexFromId slotId) _ i).handle = none
    rw [List.mem_append, List.mem_singleton]
    rcases eq_or_ne i (indexFromId slotId) with rfl | hne
    · rw [Function.update_self]
      exact iff_of_true (Or.inr rfl) ⟨hlt, rfl⟩
    · rw [Function.update_of_ne hne, or_iff_left hne]
      exact h.mem_iff i
  · change indexFromId (Function.update s.array (indexFromId slotId) _ i).id = i
    rcases eq_or_ne i (indexFromId slotId) with rfl | hne
    · rw [Function.update_self, hslot]
      exact indexFromId_inc slotId
    · rw [Function.update_of_ne hne]
      exact h.index i hi
  · change (Function.update s.array (indexFromId slotId) _ i).handle = _ at hocc
    change Function.update s.handles handle p handle' =
      some ⟨(Function.update s.array (indexFromId slotId) _ i).id, _⟩
    have hne : i ≠ indexFromId slotId := by
      rintro rfl
      rw [Function.update_self] at hocc
      exact nomatch hocc
    rw [Function.update_of_ne hne] at hocc ⊢
    have hok' := h.occupied i handle' hi hocc
    have hne' : handle' ≠ handle := by
      rintro rfl
      cases hok.symm.trans hok'
      exact hne (h.index i hi).symm
    rw [Function.update_of_ne hne', hok']
  · change Function.update s.handles handle p handle' = _ at hok'
    have hne : handle' ≠ handle := by
      rintro rfl
      rw [Function.update_self] at hok'
      exact hafter _ hok'
    rw [Function.update_of_ne hne] at hok'
    have hat := h.slot handle' slotId' hok'
    have hne' : indexFromId slotId' ≠ indexFromId slotId := by
      intro heq
      rw [heq, hslot] at hat
      cases hat
      exact hne rfl
    exact (Function.update_of_ne hne' _ _).trans hat

end Coherent

/-! ## Runs -/

/-- The slot that a step gives back. -/
def Slots.freedSlot (s : Slots η) : SlotAction η → Option ℕ
  | .create handle filled =>
      match s.handles handle with
      | some _ => none
      | none => if filled then none else s.freeList.head?
  | .complete handle =>
      match s.handles handle with
      | some ⟨slotId, .ok⟩ => some (indexFromId slotId)
      | _ => none
  | _ => none

/-- How many times a slot is given back. -/
def releases (i : ℕ) (s : Slots η) (as : List (SlotAction η)) : ℕ :=
  (slotMachine η).count (fun s a => s.freedSlot a = some i) s as

omit [DecidableEq η] in
/-- The number of a slot that is given back goes on, the others stay. -/
theorem freeSlot_id (s : Slots η) (slotId : BitVec 32) (i : ℕ) :
    ((s.freeSlot slotId).array i).id =
      if some (indexFromId slotId) = some i then slotIdInc (s.array i).id else (s.array i).id := by
  change (Function.update s.array (indexFromId slotId) _ i).id = _
  rcases eq_or_ne i (indexFromId slotId) with rfl | hne
  · rw [Function.update_self, if_pos rfl]
  · rw [Function.update_of_ne hne, if_neg fun heq => hne (Option.some.inj heq).symm]

/-- A step keeps the slots coherent, and the numbers are those from before but for the slot that is
given back. -/
theorem Coherent.step {s s' : Slots η} {a : SlotAction η} (h : Coherent s)
    (hstep : slotStep s a = some s') :
    Coherent s' ∧ ∀ i, (s'.array i).id =
      if s.freedSlot a = some i then slotIdInc (s.array i).id else (s.array i).id := by
  cases a with
  | create handle filled =>
      simp only [slotStep] at hstep
      cases hnew : s.handles handle with
      | some p => rw [hnew] at hstep; exact nomatch hstep
      | none =>
          rw [hnew] at hstep
          have hfreed : s.freedSlot (.create handle filled) =
              if filled then none else s.freeList.head? := by
            simp only [Slots.freedSlot, hnew]
          rw [hfreed]
          cases halloc : s.allocSlot handle with
          | none =>
              rw [halloc] at hstep
              cases hstep
              have hempty : s.freeList.head? = none := by
                unfold Slots.allocSlot at halloc
                split at halloc
                · next hfree => rw [hfree]; rfl
                · exact nomatch halloc
              rw [hempty, ite_self]
              exact ⟨h, fun i => (if_neg nofun).symm⟩
          | some s₁ =>
              obtain ⟨hcoh, hid, slotId, hok, hhead⟩ := h.allocSlot hnew halloc
              rw [halloc] at hstep
              cases filled with
              | true =>
                  cases hstep
                  exact ⟨hcoh, fun i => (hid i).trans (if_neg nofun).symm⟩
              | false =>
                  change (s₁.handles handle).map _ = some s' at hstep
                  rw [hok] at hstep
                  cases hstep
                  refine ⟨hcoh.freeSlot hok nofun, fun i => ?_⟩
                  change ((s₁.freeSlot slotId).array i).id =
                    if s.freeList.head? = some i then slotIdInc (s.array i).id else (s.array i).id
                  rw [freeSlot_id, hid, hhead]
  | complete handle =>
      simp only [slotStep] at hstep
      split at hstep
      · next slotId hok =>
          cases hstep
          have hfreed : s.freedSlot (.complete handle) = some (indexFromId slotId) := by
            simp only [Slots.freedSlot, hok]
          rw [hfreed]
          exact ⟨h.freeSlot hok (fun _ heq => nomatch heq), fun i => freeSlot_id s slotId i⟩
      · exact nomatch hstep
  | timerExit handle =>
      simp only [slotStep] at hstep
      split at hstep
      · next slotId hexit =>
          cases hstep
          refine ⟨h.setHandle (fun slotId' heq => ?_) (fun _ heq => nomatch heq),
            fun i => (if_neg nofun).symm⟩
          exact nomatch hexit.symm.trans heq
      · exact nomatch hstep
  | lastRelease handle =>
      simp only [slotStep] at hstep
      split at hstep
      · next slotId hexited =>
          cases hstep
          refine ⟨h.setHandle (fun slotId' heq => ?_) (fun _ heq => nomatch heq),
            fun i => (if_neg nofun).symm⟩
          exact nomatch hexited.symm.trans heq
      · exact nomatch hstep
  | acquire slotId =>
      cases hstep
      exact ⟨h, fun i => (if_neg nofun).symm⟩

/-- The slots are coherent in every run. -/
theorem Coherent.exec {s s' : Slots η} {as : List (SlotAction η)} (h : Coherent s)
    (hexec : (slotMachine η).exec s as = some s') : Coherent s' :=
  Machine.exec_invariant (I := Coherent) (fun _ _ _ hcoh hstep => (hcoh.step hstep).1) h hexec

/-- A run takes the number of a slot as far as it gives the slot back. -/
theorem Coherent.exec_id {s s' : Slots η} {as : List (SlotAction η)} (h : Coherent s)
    (hexec : (slotMachine η).exec s as = some s') (i : ℕ) :
    (s'.array i).id = slotIdInc^[releases i s as] (s.array i).id :=
  Machine.exec_iterate (I := Coherent) (f := fun s => (s.array i).id)
    (fun _ _ _ hcoh hstep => ⟨(hcoh.step hstep).1, (hcoh.step hstep).2 i⟩) h hexec

/-- In every run the slots are free or occupied, a number finds the handle of the slot that has it
now, and the number of a former occupant finds none until all generations have passed. -/
theorem acquireFromSlot_spec {as : List (SlotAction η)} {s : Slots η}
    (hexec : (slotMachine η).exec .init as = some s) :
    (s.freeList.Nodup ∧
      (∀ i, i ∈ s.freeList ↔ i < slotIndexMax ∧ (s.array i).handle = none) ∧
      ∀ i j handle, i < slotIndexMax → j < slotIndexMax → (s.array i).handle = some handle →
        (s.array j).handle = some handle → i = j) ∧
    (∀ slotId handle, s.acquireFromSlot slotId = some handle ↔
      ∃ i, i < slotIndexMax ∧ (s.array i).handle = some handle ∧ (s.array i).id = slotId) ∧
    ∀ i handle bs s', i < slotIndexMax → (s.array i).handle = some handle →
      (slotMachine η).exec s bs = some s' → 0 < releases i s bs →
      releases i s bs < 2 ^ slotGenerationBits → s'.acquireFromSlot (s.array i).id = none := by
  have h : Coherent s := Coherent.init.exec hexec
  refine ⟨⟨h.nodup, h.mem_iff, fun i j handle hi hj hocc hocc' => ?_⟩,
    fun slotId handle => h.acquireFromSlot_eq_some_iff,
    fun i handle bs s' hi hocc hexec' hpos hlt => ?_⟩
  · have hid := (h.occupied i handle hi hocc).symm.trans (h.occupied j handle hj hocc')
    have hid' : (s.array i).id = (s.array j).id := congrArg SlotHandle.slotId (Option.some.inj hid)
    rw [← h.index i hi, ← h.index j hj, hid']
  · refine Option.eq_none_iff_forall_ne_some.2 fun handle' hfound => ?_
    have h' := h.exec hexec'
    obtain ⟨j, hj, -, hid⟩ := h'.acquireFromSlot_eq_some_iff.1 hfound
    -- the number leads to its slot only, and that has another generation
    have hji : j = i := by rw [← h'.index j hj, hid, h.index i hi]
    rw [hji, h.exec_id hexec' i] at hid
    exact iterate_slotIdInc_ne _ hpos hlt hid

/-- The first handle of an endpoint gets the slot 0. -/
def firstCreated : Slots ℕ where
  array := Function.update (Slots.init : Slots ℕ).array 0 ⟨some 7, slotIdFirst 0⟩
  freeList := (List.range slotIndexMax).tail
  handles := Function.update (fun _ => none) 7 (some ⟨slotIdFirst 0, .ok⟩)

set_option maxRecDepth 20000 in
/-- The first handle of an endpoint is created and completed; its number does not find a handle
then. -/
theorem acquireFromSlot_spec_completed :
    ∃ s s' : Slots ℕ, (slotMachine ℕ).exec .init [.create 7 true] = some s ∧
      (slotMachine ℕ).exec s [.complete 7] = some s' ∧
      s'.acquireFromSlot (s.array 0).id = none := by
  have hrun : (slotMachine ℕ).exec .init [.create 7 true] = some firstCreated := by rfl
  have hrun' : (slotMachine ℕ).exec firstCreated [.complete 7] =
      some ((firstCreated.freeSlot (slotIdFirst 0)).setHandle 7
        (some ⟨slotIdFirst 0, .timerMustExit⟩)) := by rfl
  refine ⟨_, _, hrun, hrun', ?_⟩
  exact (acquireFromSlot_spec hrun).2.2 0 7 [.complete 7] _
    (by decide) rfl hrun' (by decide) (by decide)

end Xen2mx.Pull
