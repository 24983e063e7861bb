/-
# `Xen2mx.Eventq.Slots` — what the slots of a ring hold

As long as the indices handed out for good are distinct and less than a ring ahead of the
reader (`RingInv`), the slot of an index in the window of the reader holds

    nothing new, by its id         until the event of the index is stored,
    the event and the id 0         until the id is,
    the event and its id           from then on until the reader has it;

so the reader takes the event of each index, in order, once it is complete and never
before.  Handing out an index is the business of the counters (`RingInv.hand`); the stores,
the reader and the release keep the invariant by themselves (`RingInv.step`).
-/
import Mathlib.Data.List.Nodup
import Xen2mx.Eventq.Queue

namespace Xen2mx.Eventq

open Word

universe u

variable {ε : Type u} {z : RingSize}

/-! ## Slots and ids -/

theorem RingSize.slot_eq (index : ℕ) : z.slot index = index % z.entryNr :=
  Nat.mod_mod_of_dvd index z.dvd

/-- Two indices less than a ring apart have different slots. -/
theorem RingSize.slot_inj {r i j : ℕ} (hi : r ≤ i) (hi' : i < r + z.entryNr) (hj : r ≤ j)
    (hj' : j < r + z.entryNr) (h : z.slot i = z.slot j) : i = j := by
  rw [RingSize.slot_eq, RingSize.slot_eq] at h
  have hshift : ∀ k, r ≤ k → k < r + z.entryNr → (k - r) % z.entryNr = k - r := fun k hk hk' =>
    Nat.mod_eq_of_lt (by omega)
  have hmod : (i - r) % z.entryNr = (j - r) % z.entryNr := by
    have hcongr : (i - r + r) % z.entryNr = (j - r + r) % z.entryNr := by
      rw [Nat.sub_add_cancel hi, Nat.sub_add_cancel hj, h]
    exact Nat.ModEq.add_right_cancel' r hcongr
  rw [hshift i hi hi', hshift j hj hj'] at hmod
  omega

/-- The index a ring later has the same slot. -/
theorem RingSize.slot_add (index : ℕ) : z.slot (index + z.entryNr) = z.slot index := by
  rw [RingSize.slot_eq, RingSize.slot_eq, Nat.add_mod_right]

theorem eventId_pos (index : ℕ) : eventId index ≠ 0 := by
  rw [eventId]
  omega

/-- "the same slot of the eventq will not use the same id during two consecutive fills",
also where the index wraps. -/
theorem eventId_add_ne (index : ℕ) : eventId (index + z.entryNr) ≠ eventId index := by
  have hlt := z.lt
  obtain ⟨hzero, hone⟩ := z.ids
  have hmod : (index + z.entryNr) % 2 ^ 32 = (index % 2 ^ 32 + z.entryNr) % 2 ^ 32 :=
    (Nat.mod_add_mod ..).symm
  have hw := Nat.mod_lt index (Nat.two_pow_pos 32)
  simp only [eventId, wrap, hmod]
  rcases Nat.lt_or_ge (index % 2 ^ 32 + z.entryNr) (2 ^ 32) with hin | hover
  · rw [Nat.mod_eq_of_lt hin]
    omega
  · obtain ⟨k, hk⟩ := Nat.exists_eq_add_of_le hover
    have hlow : k % 2 ^ 32 = k := Nat.mod_eq_of_lt (by omega)
    rw [hk, Nat.add_mod_left, hlow]
    omega

variable (z) in
/-- The id found in the slot of an index whose event is not there yet. -/
def staleId (index : ℕ) : ℕ := if index < z.entryNr then 0 else eventId (index - z.entryNr)

theorem eventId_ne_staleId (index : ℕ) : eventId index ≠ staleId z index := by
  unfold staleId
  split
  · exact eventId_pos index
  · rename_i hge
    have hne := eventId_add_ne (z := z) (index - z.entryNr)
    rwa [Nat.sub_add_cancel (not_lt.1 hge)] at hne

theorem staleId_add (index : ℕ) : staleId z (index + z.entryNr) = eventId index := by
  rw [staleId, if_neg (by omega), Nat.add_sub_cancel]

theorem RingSize.batch_mul : 4 * z.batchNr = z.entryNr := Nat.mul_div_cancel' z.four_dvd

theorem RingSize.batch_pos : 0 < z.batchNr := by
  have := z.batch_mul
  have := z.pos
  omega

theorem RingSize.batch_dvd : z.batchNr ∣ 2 ^ 32 := (Nat.div_dvd_of_dvd z.four_dvd).trans z.dvd

/-! ## The invariant -/

/-- The event of `n` and its id are in place. -/
def Ring.Published (r : Ring ε) (n : Notification ε) : Prop :=
  n ∈ r.handed ∧ n ∉ r.writing ∧ n ∉ r.stored

variable (z) in
structure RingInv (r : Ring ε) : Prop where
  nodup : (r.handed.map Notification.index).Nodup
  capacity : ∀ n ∈ r.handed, n.index < r.nextEventIndex + z.entryNr
  pending_nodup : (r.writing ++ r.stored).Nodup
  pending_handed : ∀ n ∈ r.writing ++ r.stored, n ∈ r.handed
  unread : ∀ n ∈ r.writing ++ r.stored, r.nextEventIndex ≤ n.index
  slot_stale : ∀ i, r.nextEventIndex ≤ i → i < r.nextEventIndex + z.entryNr →
    (∀ n ∈ r.handed, n.index = i → n ∈ r.writing) → (r.slots (z.slot i)).id = staleId z i
  slot_stored : ∀ n ∈ r.stored, r.slots (z.slot n.index) = ⟨0, n.event⟩
  slot_published : ∀ n, r.Published n → r.nextEventIndex ≤ n.index →
    r.slots (z.slot n.index) = ⟨eventId n.index, n.event⟩
  processing : r.pc = .processing → ∃ n, r.Published n ∧ n.index = r.nextEventIndex
  batch : z.batchNr ∣ r.nextreleased
  released : r.nextreleased ≤ r.nextEventIndex
  releasing : r.pc = .releasing → r.nextEventIndex = r.nextreleased + z.batchNr
  reading : r.pc ≠ .releasing → r.nextEventIndex < r.nextreleased + z.batchNr
  log : r.log.length = r.nextEventIndex
  log_get : ∀ k < r.nextEventIndex, ∃ n ∈ r.handed, n.index = k ∧ r.log[k]? = some n.event
  alive : r.aborted = false

namespace RingInv

variable {r : Ring ε} {n n' : Notification ε}

theorem init : RingInv z (Ring.init : Ring ε) where
  nodup := .nil
  capacity := nofun
  pending_nodup := .nil
  pending_handed := nofun
  unread := nofun
  slot_stale := by
    intro i _ hi _
    have hlt : i < z.entryNr := by
      rwa [Ring.init, Nat.zero_add] at hi
    exact (if_pos hlt).symm
  slot_stored := nofun
  slot_published := fun _ h => absurd h.1 List.not_mem_nil
  processing := nofun
  batch := Nat.dvd_zero _
  released := le_rfl
  releasing := nofun
  reading := fun _ => by
    rw [Ring.init, Nat.zero_add]
    exact z.batch_pos
  log := rfl
  log_get := fun k hk => absurd hk (Nat.not_lt_zero k)
  alive := rfl

/-- An index was handed out once. -/
theorem index_inj (hr : RingInv z r) (hn : n ∈ r.handed) (hn' : n' ∈ r.handed)
    (h : n.index = n'.index) : n = n' :=
  List.inj_on_of_nodup_map hr.nodup hn hn' h

theorem not_stored_of_writing (hr : RingInv z r) (hn : n ∈ r.writing) : n ∉ r.stored := fun h =>
  (List.nodup_append.1 hr.pending_nodup).2.2 n hn n h rfl

theorem window (hr : RingInv z r) (hn : n ∈ r.writing ++ r.stored) :
    r.nextEventIndex ≤ n.index ∧ n.index < r.nextEventIndex + z.entryNr :=
  ⟨hr.unread n hn, hr.capacity n (hr.pending_handed n hn)⟩

/-- The indices below the reader were all handed out. -/
theorem le_of_fresh (hr : RingInv z r) {i : ℕ} (hfresh : i ∉ r.handed.map Notification.index) :
    r.nextEventIndex ≤ i := by
  by_contra hlt
  obtain ⟨n, hn, rfl, -⟩ := hr.log_get i (not_le.1 hlt)
  exact hfresh (List.mem_map_of_mem hn)

/-- A new index is handed out, less than a ring ahead of the reader. -/
theorem hand (hr : RingInv z r) (hfresh : n.index ∉ r.handed.map Notification.index)
    (hlt : n.index < r.nextEventIndex + z.entryNr) : RingInv z (r.hand n) where
  nodup := List.nodup_cons.2 ⟨hfresh, hr.nodup⟩
  capacity := List.forall_mem_cons.2 ⟨hlt, hr.capacity⟩
  pending_nodup := by
    refine List.nodup_cons.2 ⟨fun hn => ?_, hr.pending_nodup⟩
    exact hfresh (List.mem_map_of_mem (hr.pending_handed n hn))
  pending_handed := by
    intro n' hn'
    rcases List.mem_cons.1 hn' with rfl | hn'
    · exact List.mem_cons_self
    · exact List.mem_cons_of_mem _ (hr.pending_handed n' hn')
  unread := by
    intro n' hn'
    rcases List.mem_cons.1 hn' with rfl | hn'
    · exact hr.le_of_fresh hfresh
    · exact hr.unread n' hn'
  slot_stale := by
    intro i hlo hhi hwriting
    refine hr.slot_stale i hlo hhi fun n' hn' hi => ?_
    rcases List.mem_cons.1 (hwriting n' (List.mem_cons_of_mem _ hn') hi) with rfl | h
    · exact absurd (List.mem_map_of_mem hn') hfresh
    · exact h
  slot_stored := hr.slot_stored
  slot_published := by
    intro n' hpub hle
    obtain ⟨hn', hwriting, hstored⟩ := hpub
    rcases List.mem_cons.1 hn' with rfl | hn'
    · exact absurd List.mem_cons_self hwriting
    · exact hr.slot_published n' ⟨hn', fun h => hwriting (List.mem_cons_of_mem _ h), hstored⟩ hle
  processing := by
    intro hpc
    obtain ⟨n', ⟨hn', hwriting, hstored⟩, hi⟩ := hr.processing hpc
    refine ⟨n', ⟨List.mem_cons_of_mem _ hn', fun h => ?_, hstored⟩, hi⟩
    rcases List.mem_cons.1 h with rfl | h
    · exact hfresh (List.mem_map_of_mem hn')
    · exact hwriting h
  batch := hr.batch
  released := hr.released
  releasing := hr.releasing
  reading := hr.reading
  log := hr.log
  log_get := by
    intro k hk
    obtain ⟨n', hn', hget⟩ := hr.log_get k hk
    exact ⟨n', List.mem_cons_of_mem _ hn', hget⟩
  alive := hr.alive

/-- The slot of an unread index other than `n`'s is another one. -/
theorem slot_ne (hr : RingInv z r) (hn : n ∈ r.writing ++ r.stored) {i : ℕ}
    (hlo : r.nextEventIndex ≤ i) (hhi : i < r.nextEventIndex + z.entryNr) (hne : i ≠ n.index) :
    z.slot i ≠ z.slot n.index := by
  obtain ⟨hlo', hhi'⟩ := hr.window hn
  exact fun h => hne (RingSize.slot_inj hlo hhi hlo' hhi' h)

section
variable [DecidableEq ε]

theorem mem_erase_iff (hr : RingInv z r) (n : Notification ε) :
    n' ∈ r.writing.erase n ↔ n' ≠ n ∧ n' ∈ r.writing :=
  (List.nodup_append.1 hr.pending_nodup).1.mem_erase_iff

theorem mem_erase_stored_iff (hr : RingInv z r) (n : Notification ε) :
    n' ∈ r.stored.erase n ↔ n' ≠ n ∧ n' ∈ r.stored :=
  (List.nodup_append.1 hr.pending_nodup).2.1.mem_erase_iff

theorem store (hr : RingInv z r) (hn : n ∈ r.writing) : RingInv z (r.store z n) := by
  have hpending : n ∈ r.writing ++ r.stored := List.mem_append_left _ hn
  have hperm : (r.writing.erase n ++ n :: r.stored).Perm (r.writing ++ r.stored) :=
    List.perm_middle.trans ((List.perm_cons_erase hn).symm.append_right r.stored)
  constructor
  · exact hr.nodup
  · exact hr.capacity
  · exact hperm.nodup_iff.2 hr.pending_nodup
  · exact fun n' hn' => hr.pending_handed n' (hperm.subset hn')
  · exact fun n' hn' => hr.unread n' (hperm.subset hn')
  · intro i hlo hhi hwriting
    have hne : i ≠ n.index := by
      rintro rfl
      exact ((hr.mem_erase_iff n).1 (hwriting n (hr.pending_handed n hpending) rfl)).1 rfl
    show (if z.slot i = z.slot n.index then _ else r.slots (z.slot i) : Slot ε).id = _
    rw [if_neg (hr.slot_ne hpending hlo hhi hne)]
    exact hr.slot_stale i hlo hhi fun n' hn' hi => ((hr.mem_erase_iff n).1 (hwriting n' hn' hi)).2
  · intro n' hn'
    show (if z.slot n'.index = z.slot n.index then _ else r.slots (z.slot n'.index) : Slot ε) = _
    rcases List.mem_cons.1 hn' with rfl | hmem
    · exact if_pos rfl
    · have hpending' : n' ∈ r.writing ++ r.stored := List.mem_append_right _ hmem
      have hne : n'.index ≠ n.index := by
        intro h
        obtain rfl := hr.index_inj (hr.pending_handed n' hpending') (hr.pending_handed n hpending) h
        exact hr.not_stored_of_writing hn hmem
      obtain ⟨hlo, hhi⟩ := hr.window hpending'
      rw [if_neg (hr.slot_ne hpending hlo hhi hne)]
      exact hr.slot_stored n' hmem
  · intro n' hpub hle
    obtain ⟨hn', hwriting, hstored⟩ := hpub
    have hne : n' ≠ n := by
      rintro rfl
      exact hstored List.mem_cons_self
    have hidx : n'.index ≠ n.index := fun h =>
      hne (hr.index_inj hn' (hr.pending_handed n hpending) h)
    show (if z.slot n'.index = z.slot n.index then _ else r.slots (z.slot n'.index) : Slot ε) = _
    rw [if_neg (hr.slot_ne hpending hle (hr.capacity n' hn') hidx)]
    exact hr.slot_published n' ⟨hn', fun h => hwriting ((hr.mem_erase_iff n).2 ⟨hne, h⟩),
      fun h => hstored (List.mem_cons_of_mem _ h)⟩ hle
  · intro hpc
    obtain ⟨n', ⟨hn', hwriting, hstored⟩, hi⟩ := hr.processing hpc
    refine ⟨n', ⟨hn', fun h => hwriting ((hr.mem_erase_iff n).1 h).2, fun h => ?_⟩, hi⟩
    rcases List.mem_cons.1 h with rfl | h
    · exact hwriting hn
    · exact hstored h
  · exact hr.batch
  · exact hr.released
  · exact hr.releasing
  · exact hr.reading
  · exact hr.log
  · exact hr.log_get
  · exact hr.alive

theorem publish (hr : RingInv z r) (hn : n ∈ r.stored) : RingInv z (r.publish z n) := by
  have hpending : n ∈ r.writing ++ r.stored := List.mem_append_right _ hn
  have hsub : ∀ n' ∈ r.writing ++ r.stored.erase n, n' ∈ r.writing ++ r.stored := by
    intro n' hn'
    rcases List.mem_append.1 hn' with h | h
    · exact List.mem_append_left _ h
    · exact List.mem_append_right _ (List.mem_of_mem_erase h)
  have hnotwriting : n ∉ r.writing := fun h => hr.not_stored_of_writing h hn
  constructor
  · exact hr.nodup
  · exact hr.capacity
  · exact (List.Sublist.append (List.Sublist.refl _) List.erase_sublist).nodup hr.pending_nodup
  · exact fun n' hn' => hr.pending_handed n' (hsub n' hn')
  · exact fun n' hn' => hr.unread n' (hsub n' hn')
  · intro i hlo hhi hwriting
    have hne : i ≠ n.index := by
      rintro rfl
      exact hnotwriting (hwriting n (hr.pending_handed n hpending) rfl)
    show (if z.slot i = z.slot n.index then _ else r.slots (z.slot i) : Slot ε).id = _
    rw [if_neg (hr.slot_ne hpending hlo hhi hne)]
    exact hr.slot_stale i hlo hhi hwriting
  · intro n' hn'
    obtain ⟨hne, hn'⟩ := (hr.mem_erase_stored_iff n).1 hn'
    have hpending' : n' ∈ r.writing ++ r.stored := List.mem_append_right _ hn'
    have hidx : n'.index ≠ n.index := fun h =>
      hne (hr.index_inj (hr.pending_handed n' hpending') (hr.pending_handed n hpending) h)
    obtain ⟨hlo, hhi⟩ := hr.window hpending'
    show (if z.slot n'.index = z.slot n.index then _ else r.slots (z.slot n'.index) : Slot ε) = _
    rw [if_neg (hr.slot_ne hpending hlo hhi hidx)]
    exact hr.slot_stored n' hn'
  · intro n' hpub hle
    obtain ⟨hn', hwriting, hstored⟩ := hpub
    show (if z.slot n'.index = z.slot n.index then _ else r.slots (z.slot n'.index) : Slot ε) = _
    by_cases heq : n' = n
    · subst heq
      rw [if_pos rfl, hr.slot_stored n' hn]
    · have hidx : n'.index ≠ n.index := fun h =>
        heq (hr.index_inj hn' (hr.pending_handed n hpending) h)
      rw [if_neg (hr.slot_ne hpending hle (hr.capacity n' hn') hidx)]
      exact hr.slot_published n' ⟨hn', hwriting, fun h =>
        hstored ((hr.mem_erase_stored_iff n).2 ⟨heq, h⟩)⟩ hle
  · intro hpc
    obtain ⟨n', ⟨hn', hwriting, hstored⟩, hi⟩ := hr.processing hpc
    exact ⟨n', ⟨hn', hwriting, fun h => hstored (List.mem_of_mem_erase h)⟩, hi⟩
  · exact hr.batch
  · exact hr.released
  · exact hr.releasing
  · exact hr.reading
  · exact hr.log
  · exact hr.log_get
  · exact hr.alive

end

/-- The id of the next index is there only once its event is. -/
theorem published_of_hasEvent (hr : RingInv z r) (h : r.HasEvent z) :
    ∃ n, r.Published n ∧ n.index = r.nextEventIndex := by
  have hpos := z.pos
  by_contra hno
  by_cases hwriting : ∀ n ∈ r.handed, n.index = r.nextEventIndex → n ∈ r.writing
  · have hstale := hr.slot_stale _ le_rfl (by omega) hwriting
    exact eventId_ne_staleId r.nextEventIndex (h.symm.trans hstale)
  · obtain ⟨n, hn⟩ := not_forall.1 hwriting
    obtain ⟨hmem, hn⟩ := Classical.not_imp.1 hn
    obtain ⟨hi, hnot⟩ := Classical.not_imp.1 hn
    refine hno ⟨n, ⟨hmem, hnot, fun hstored => ?_⟩, hi⟩
    have hslot := hr.slot_stored n hstored
    rw [hi] at hslot
    rw [Ring.HasEvent, hslot] at h
    exact eventId_pos r.nextEventIndex h.symm

/-- And from then on. -/
theorem hasEvent_of_published (hr : RingInv z r) (hn : r.Published n)
    (hi : n.index = r.nextEventIndex) : r.HasEvent z := by
  have hslot := hr.slot_published n hn hi.ge
  rw [hi] at hslot
  rw [Ring.HasEvent, hslot]

theorem peek (hr : RingInv z r) (hpc : r.pc = .idle) (h : r.HasEvent z) :
    RingInv z { r with pc := .processing } :=
  { hr with
    processing := fun _ => hr.published_of_hasEvent h
    releasing := nofun
    reading := fun _ => hr.reading (by rw [hpc]; exact nofun) }

theorem process (hr : RingInv z r) (hpc : r.pc = .processing) : RingInv z (r.process z) := by
  obtain ⟨n, hpub, hi⟩ := hr.processing hpc
  obtain ⟨hn, hwriting, hstored⟩ := hpub
  have hslot := hr.slot_published n ⟨hn, hwriting, hstored⟩ hi.ge
  rw [hi] at hslot
  have hreading := hr.reading (by rw [hpc]; exact nofun)
  have hreleased := hr.released
  have hbatch := z.batch_pos
  have hmod : wrap 32 (r.nextEventIndex + 1) % z.batchNr = 0 ↔
      r.nextEventIndex + 1 = r.nextreleased + z.batchNr := by
    obtain ⟨k, hk⟩ := hr.batch
    rw [wrap, Nat.mod_mod_of_dvd _ z.batch_dvd]
    rw [hk] at hreading hreleased ⊢
    rw [show r.nextEventIndex + 1 =
      z.batchNr * k + (r.nextEventIndex + 1 - z.batchNr * k) by omega, Nat.mul_add_mod]
    rcases Nat.lt_or_ge (r.nextEventIndex + 1 - z.batchNr * k) z.batchNr with hlt | hge
    · rw [Nat.mod_eq_of_lt hlt]
      omega
    · rw [show r.nextEventIndex + 1 - z.batchNr * k = z.batchNr by omega, Nat.mod_self]
      omega
  constructor
  · exact hr.nodup
  · intro n' hn'
    have := hr.capacity n' hn'
    show n'.index < r.nextEventIndex + 1 + z.entryNr
    omega
  · exact hr.pending_nodup
  · exact hr.pending_handed
  · intro n' hn'
    have hle := hr.unread n' hn'
    have hne : n'.index ≠ r.nextEventIndex := by
      intro h
      obtain rfl := hr.index_inj (hr.pending_handed n' hn') hn (h.trans hi.symm)
      rcases List.mem_append.1 hn' with h | h
      · exact hwriting h
      · exact hstored h
    show r.nextEventIndex + 1 ≤ n'.index
    omega
  · intro i hlo hhi hall
    replace hlo : r.nextEventIndex + 1 ≤ i := hlo
    replace hhi : i < r.nextEventIndex + 1 + z.entryNr := hhi
    rcases Nat.lt_or_ge i (r.nextEventIndex + z.entryNr) with hlt | hge
    · exact hr.slot_stale i (by omega) hlt hall
    · obtain rfl : i = r.nextEventIndex + z.entryNr := by omega
      show (r.slots (z.slot (r.nextEventIndex + z.entryNr))).id = _
      rw [RingSize.slot_add, staleId_add, hslot]
  · exact hr.slot_stored
  · intro n' hpub hle
    exact hr.slot_published n' hpub (Nat.le_of_succ_le hle)
  · intro h
    replace h : (if wrap 32 (r.nextEventIndex + 1) % z.batchNr = 0 then ReaderPc.releasing
      else .idle) = .processing := h
    split at h <;> cases h
  · exact hr.batch
  · exact hreleased.trans (Nat.le_succ _)
  · intro h
    replace h : (if wrap 32 (r.nextEventIndex + 1) % z.batchNr = 0 then ReaderPc.releasing
      else .idle) = .releasing := h
    split at h
    · exact hmod.1 ‹_›
    · cases h
  · intro h
    replace h : (if wrap 32 (r.nextEventIndex + 1) % z.batchNr = 0 then ReaderPc.releasing
      else .idle) ≠ .releasing := h
    show r.nextEventIndex + 1 < r.nextreleased + z.batchNr
    split at h
    · exact absurd rfl h
    · rename_i hno
      have hne := mt hmod.2 hno
      omega
  · show (r.log ++ [_]).length = r.nextEventIndex + 1
    rw [List.length_append, hr.log, List.length_singleton]
  · intro k hk
    replace hk : k < r.nextEventIndex + 1 := hk
    show ∃ n ∈ r.handed, n.index = k ∧ (r.log ++ [_])[k]? = some n.event
    rcases Nat.lt_succ_iff_lt_or_eq.1 hk with hlt | rfl
    · obtain ⟨n', hn', hi', hget⟩ := hr.log_get k hlt
      refine ⟨n', hn', hi', ?_⟩
      rw [List.getElem?_append_left (by rw [hr.log]; exact hlt)]
      exact hget
    · refine ⟨n, hn, hi, ?_⟩
      rw [← hr.log, List.getElem?_concat_length, hr.log, hslot]
  · exact hr.alive

/-- The reader gives back the batch it has read. -/
theorem release (hr : RingInv z r) {top : ℕ} (hpc : r.pc = .releasing)
    (htop : r.nextEventIndex ≤ top) (hlt : top < r.nextreleased + 2 ^ 32) :
    RingInv z (r.release z top) := by
  have hnext := hr.releasing hpc
  have hreleased := hr.released
  have hbatch := z.batch_pos
  have hroom : ¬ sub 32 top r.nextreleased < z.batchNr := by
    rw [sub_eq_of_le_of_lt (by omega) (by omega)]
    omega
  rw [Ring.release, if_neg hroom]
  exact {
    hr with
    processing := nofun
    batch := Nat.dvd_add hr.batch (Nat.dvd_refl _)
    released := hnext.ge
    releasing := nofun
    reading := fun _ => by
      show r.nextEventIndex < r.nextreleased + z.batchNr + z.batchNr
      omega }

variable [DecidableEq ε]

/-- The stores, the reader and the release. -/
theorem step (hr : RingInv z r) {top : ℕ} {a : RingAction ε} {r' : Ring ε}
    (htop : r.nextEventIndex ≤ top) (hlt : top < r.nextreleased + 2 ^ 32)
    (h : r.step z top a = some r') : RingInv z r' ∧ r'.handed = r.handed := by
  cases a with
  | store n =>
      obtain ⟨hn, heq⟩ := Option.ite_none_right_eq_some.1 h
      cases heq
      exact ⟨hr.store hn, rfl⟩
  | publish n =>
      obtain ⟨hn, heq⟩ := Option.ite_none_right_eq_some.1 h
      cases heq
      exact ⟨hr.publish hn, rfl⟩
  | peek =>
      obtain ⟨⟨hpc, -, hevent⟩, heq⟩ := Option.ite_none_right_eq_some.1 h
      cases heq
      exact ⟨hr.peek hpc hevent, rfl⟩
  | process =>
      obtain ⟨hpc, heq⟩ := Option.ite_none_right_eq_some.1 h
      cases heq
      exact ⟨hr.process hpc, rfl⟩
  | release =>
      obtain ⟨hpc, heq⟩ := Option.ite_none_right_eq_some.1 h
      cases heq
      refine ⟨hr.release hpc htop hlt, ?_⟩
      unfold Ring.release
      split <;> rfl

end RingInv

end Xen2mx.Eventq
