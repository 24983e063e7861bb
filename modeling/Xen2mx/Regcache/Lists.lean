/-
# `Xen2mx.Regcache.Lists` — a slot of the map is free or its region in one of the lists

Between a slot's leaving the free list and its region's entering a list the slot is in neither; `out`
has those slots.

**Proved here.**

    the slots: free, out, in `reg_list`, in `reg_vect_list`        (`Listed`)
    it holds at the start                                          (`Listed.init`)
    a slot is taken, given back, enters a list, leaves it          (`.take`, `.free`, `.addReg`, `.addVect`, `.destroy`)
    an allocation is an eviction, if one is needed, and a try      (`Endpoint.alloc_eq`)
    what a region has after it is created, or not                  (`createRegion_eq`, `Created`, `SameCache`)
-/
import Xen2mx.Regcache.Cache

namespace Xen2mx.Regcache

/-- Where the slots of the map are: `l` is the free list. -/
structure Listed (ep : Endpoint) (l out : List ℕ) : Prop where
  threaded : Threaded ep.largeRegionMap.nextFree ep.largeRegionMap.firstFree l
  nrFree : ep.largeRegionMap.nrFree = l.length
  perm : (l ++ out ++ ep.regList ++ ep.regVectList).Perm (List.range userRegionMax)

namespace Listed

variable {ep ep' : Endpoint} {l out : List ℕ} {id : ℕ}

theorem init (malloc : ℕ → LargeRegion) :
    Listed (.init malloc) (List.range userRegionMax) [] where
  threaded := .range (by decide)
  nrFree := List.length_range.symm
  perm := by
    change (List.range userRegionMax ++ [] ++ [] ++ []).Perm _
    simp only [List.append_nil]
    exact List.Perm.refl _

theorem nodup (h : Listed ep l out) : (l ++ out ++ ep.regList ++ ep.regVectList).Nodup :=
  h.perm.nodup_iff.2 List.nodup_range

theorem length_eq (h : Listed ep l out) :
    ep.largeRegionMap.nrFree + out.length + ep.regList.length + ep.regVectList.length =
      userRegionMax := by
  have hlen := h.perm.length_eq
  rw [List.length_range] at hlen
  simp only [List.length_append] at hlen
  rw [h.nrFree]
  exact hlen

/-- A free slot has no region in a list. -/
theorem not_mem (h : Listed ep l out) (hid : id ∈ l ++ out) :
    id ∉ ep.regList ∧ id ∉ ep.regVectList := by
  have hnodup := h.nodup
  rw [List.append_assoc] at hnodup
  have hdisj := (List.nodup_append'.1 hnodup).2.2
  have hnot : id ∉ ep.regList ++ ep.regVectList := fun hmem => hdisj hid hmem
  rw [List.mem_append] at hnot
  exact not_or.1 hnot

/-- A region is in one of the lists only. -/
theorem not_mem_vect (h : Listed ep l out) (hid : id ∈ ep.regList) : id ∉ ep.regVectList :=
  fun hmem => (List.nodup_append'.1 h.nodup).2.2 (List.mem_append_right _ hid) hmem

theorem nodup_reg (h : Listed ep l out) : ep.regList.Nodup :=
  (List.nodup_append'.1 (List.nodup_append'.1 h.nodup).1).2.1

theorem nodup_vect (h : Listed ep l out) : ep.regVectList.Nodup :=
  (List.nodup_append'.1 h.nodup).2.1

/-- The first of the free slots is taken. -/
theorem take (h : Listed ep (id :: l) out)
    (hnext : ep'.largeRegionMap.nextFree = ep.largeRegionMap.nextFree)
    (hfirst : ep'.largeRegionMap.firstFree = ep.largeRegionMap.nextFree id)
    (hnr : ep'.largeRegionMap.nrFree = ep.largeRegionMap.nrFree - 1)
    (hreg : ep'.regList = ep.regList) (hvect : ep'.regVectList = ep.regVectList) :
    Listed ep' l (id :: out) where
  threaded := by
    rw [hnext, hfirst]
    have hthreaded := h.threaded
    generalize ep.largeRegionMap.firstFree = first at hthreaded
    cases hthreaded with
    | cons hl => exact hl
  nrFree := by rw [hnr, h.nrFree, List.length_cons, Nat.add_sub_cancel]
  perm := by
    rw [hreg, hvect]
    refine List.Perm.trans ?_ h.perm
    have hmiddle : (l ++ id :: out).Perm (id :: l ++ out) := List.perm_middle
    exact (hmiddle.append_right _).append_right _

/-- A slot is given back. -/
theorem free (h : Listed ep l (id :: out))
    (hmap : ep'.largeRegionMap = ep.largeRegionMap.free id) (hreg : ep'.regList = ep.regList)
    (hvect : ep'.regVectList = ep.regVectList) : Listed ep' (id :: l) out where
  threaded := by
    rw [hmap, LargeRegionMap.nextFree_free, LargeRegionMap.firstFree_free]
    refine h.threaded.push fun hid => ?_
    have hnodup := (List.nodup_append'.1 (List.nodup_append'.1 h.nodup).1).1
    exact (List.nodup_append'.1 hnodup).2.2 hid (List.mem_cons_self ..)
  nrFree := by rw [hmap, LargeRegionMap.nrFree_free, h.nrFree, List.length_cons]
  perm := by
    rw [hreg, hvect]
    refine List.Perm.trans ?_ h.perm
    have hmiddle : (id :: l ++ out).Perm (l ++ id :: out) := List.perm_middle.symm
    exact (hmiddle.append_right _).append_right _

/-- The region of a slot enters `reg_list`. -/
theorem addReg (h : Listed ep l (id :: out)) (hmap : ep'.largeRegionMap.nextFree =
      ep.largeRegionMap.nextFree) (hfirst : ep'.largeRegionMap.firstFree =
      ep.largeRegionMap.firstFree) (hnr : ep'.largeRegionMap.nrFree = ep.largeRegionMap.nrFree)
    (hreg : ep'.regList = ep.regList ++ [id]) (hvect : ep'.regVectList = ep.regVectList) :
    Listed ep' l out where
  threaded := by rw [hmap, hfirst]; exact h.threaded
  nrFree := by rw [hnr]; exact h.nrFree
  perm := by
    rw [hreg, hvect]
    refine List.Perm.trans ?_ h.perm
    refine List.Perm.append_right _ ?_
    rw [List.append_assoc, List.append_assoc]
    refine List.Perm.append_left _ ?_
    rw [← List.append_assoc]
    exact List.perm_append_singleton _ _

/-- The region of a slot enters `reg_vect_list`. -/
theorem addVect (h : Listed ep l (id :: out)) (hmap : ep'.largeRegionMap.nextFree =
      ep.largeRegionMap.nextFree) (hfirst : ep'.largeRegionMap.firstFree =
      ep.largeRegionMap.firstFree) (hnr : ep'.largeRegionMap.nrFree = ep.largeRegionMap.nrFree)
    (hreg : ep'.regList = ep.regList) (hvect : ep'.regVectList = ep.regVectList ++ [id]) :
    Listed ep' l out where
  threaded := by rw [hmap, hfirst]; exact h.threaded
  nrFree := by rw [hnr]; exact h.nrFree
  perm := by
    rw [hreg, hvect]
    refine List.Perm.trans ?_ h.perm
    rw [List.append_assoc, List.append_assoc, List.append_assoc, List.append_assoc]
    refine List.Perm.append_left _ ?_
    rw [← List.append_assoc, ← List.append_assoc]
    exact (List.perm_append_singleton _ _).trans (by rw [List.append_assoc]; rfl)

/-- A region leaves its list, and its slot is free. -/
theorem destroy (h : Listed ep l out) (hid : id ∈ ep.regList ++ ep.regVectList) :
    Listed (ep.destroyRegion id) (id :: l) out := by
  have hperm : (id :: (l ++ out ++ (ep.destroyRegion id).regList ++
      (ep.destroyRegion id).regVectList)).Perm (List.range userRegionMax) := by
    refine List.Perm.trans ?_ h.perm
    rw [List.append_assoc, List.append_assoc (l ++ out)]
    refine List.perm_middle.symm.trans (List.Perm.append_left _ ?_)
    change (id :: (ep.regList.erase id ++ ep.regVectList.erase id)).Perm _
    by_cases hreg : id ∈ ep.regList
    · rw [List.erase_of_not_mem (h.not_mem_vect hreg)]
      exact (List.perm_cons_erase hreg).symm.append_right ep.regVectList
    · have hvect : id ∈ ep.regVectList := (List.mem_append.1 hid).resolve_left hreg
      rw [List.erase_of_not_mem hreg]
      exact List.perm_middle.symm.trans (List.Perm.append_left _ (List.perm_cons_erase hvect).symm)
  refine ⟨?_, ?_, ?_⟩
  · change Threaded (ep.largeRegionMap.free id).nextFree (some id) (id :: l)
    rw [LargeRegionMap.nextFree_free]
    refine h.threaded.push fun hmem => ?_
    have hnot := h.not_mem (List.mem_append_left _ hmem)
    exact (List.mem_append.1 hid).elim hnot.1 hnot.2
  · change ep.largeRegionMap.nrFree + 1 = _
    rw [h.nrFree, List.length_cons]
  · simpa only [List.cons_append] using hperm

end Listed

/-! ## An allocation -/

/-- What an allocation does first: where no slot is free, the oldest of the unused regions goes. -/
def Endpoint.makeRoom (g : Globals) (ep : Endpoint) : Endpoint :=
  match ep.largeRegionMap.firstFree with
  | some _ => ep
  | none =>
      if g.regcache then
        match ep.regUnusedList with
        | [] => ep
        | id :: unused => destroyRegion { ep with regUnusedList := unused } id
      else ep

variable {g : Globals} {ep ep' : Endpoint} {id : ℕ} {reqsegs : ReqSegs} {reserver : Option ℕ}

theorem Endpoint.tryAlloc_none (h : ep.largeRegionMap.firstFree = none) :
    ep.tryAlloc = (none, ep) := by
  rw [tryAlloc, LargeRegionMap.tryAlloc, h]

theorem Endpoint.tryAlloc_some (h : ep.largeRegionMap.firstFree = some id) :
    ep.tryAlloc = (some id, { ep with largeRegionMap := ep.largeRegionMap.pop id }) := by
  rw [tryAlloc, LargeRegionMap.tryAlloc, h]

theorem Endpoint.alloc_eq (g : Globals) (ep : Endpoint) :
    ep.alloc g = (ep.makeRoom g).tryAlloc := by
  cases hfirst : ep.largeRegionMap.firstFree with
  | some id =>
      have hroom : ep.makeRoom g = ep := by rw [makeRoom, hfirst]
      rw [hroom, alloc, tryAlloc_some hfirst]
  | none =>
      rw [alloc, tryAlloc_none hfirst, makeRoom, hfirst]
      cases g.regcache with
      | false => exact (tryAlloc_none hfirst).symm
      | true =>
          cases hunused : ep.regUnusedList with
          | nil =>
              simp only [hunused, if_true]
              exact (tryAlloc_none hfirst).symm
          | cons id unused => simp only [hunused, if_true]

/-- The region that was created in a slot, and is in no list yet. -/
structure Created (ep : Endpoint) (id : ℕ) (reqsegs : ReqSegs) (ep' : Endpoint) : Prop where
  nextFree : ep'.largeRegionMap.nextFree = ep.largeRegionMap.nextFree
  firstFree : ep'.largeRegionMap.firstFree = ep.largeRegionMap.nextFree id
  nrFree : ep'.largeRegionMap.nrFree = ep.largeRegionMap.nrFree - 1
  region : ep'.region = Function.update ep.region id ⟨0, reqsegs, none⟩
  regList : ep'.regList = ep.regList
  regUnusedList : ep'.regUnusedList = ep.regUnusedList
  regVectList : ep'.regVectList = ep.regVectList

/-- The region that was created has its first user. -/
theorem Created.use {ep₂ : Endpoint} (h : Created ep id reqsegs ep')
    (hmap : ep₂.largeRegionMap = ep'.largeRegionMap) (reserver : Option ℕ) :
    (ep₂.use id reserver).region =
      Function.update ep.region id ⟨1, reqsegs, if reserver.isSome then reserver else none⟩ := by
  have hregion : ep'.largeRegionMap.region = Function.update ep.region id ⟨0, reqsegs, none⟩ :=
    h.region
  funext i
  simp only [Endpoint.region, Endpoint.region_use, hmap, hregion, Function.update_self,
    Function.update_idem, Nat.zero_add]

/-- The same lists, free slots and regions in the lists. -/
structure SameCache (ep ep' : Endpoint) : Prop where
  nextFree : ep'.largeRegionMap.nextFree = ep.largeRegionMap.nextFree
  firstFree : ep'.largeRegionMap.firstFree = ep.largeRegionMap.firstFree
  nrFree : ep'.largeRegionMap.nrFree = ep.largeRegionMap.nrFree
  region : ∀ id ∈ ep.regList ++ ep.regVectList, ep'.region id = ep.region id
  regList : ep'.regList = ep.regList
  regUnusedList : ep'.regUnusedList = ep.regUnusedList
  regVectList : ep'.regVectList = ep.regVectList

theorem SameCache.refl (ep : Endpoint) : SameCache ep ep :=
  ⟨rfl, rfl, rfl, fun _ _ => rfl, rfl, rfl, rfl⟩

/-- No slot to create a region in. -/
theorem createRegion_none (h : (ep.makeRoom g).largeRegionMap.firstFree = none)
    (registers : Bool) : ep.createRegion g reqsegs registers = (none, ep.makeRoom g) := by
  rw [Endpoint.createRegion, Endpoint.alloc_eq, Endpoint.tryAlloc_none h]

/-- The driver registers the region. -/
theorem createRegion_true (reqsegs : ReqSegs)
    (h : (ep.makeRoom g).largeRegionMap.firstFree = some id) :
    ∃ ep', ep.createRegion g reqsegs true = (some id, ep') ∧
      Created (ep.makeRoom g) id reqsegs ep' := by
  rw [Endpoint.createRegion, Endpoint.alloc_eq, Endpoint.tryAlloc_some h]
  refine ⟨_, rfl, ?_, rfl, rfl, ?_, rfl, rfl, rfl⟩
  · simp only [Endpoint.modify, LargeRegionMap.nextFree_modify, LargeRegionMap.nextFree_pop]
  · funext i
    simp only [Endpoint.modify, Endpoint.region, LargeRegionMap.region_modify,
      LargeRegionMap.region_pop, Function.update_idem, Function.update_self]

/-- The driver does not. -/
theorem createRegion_false {l : List ℕ} (reqsegs : ReqSegs)
    (h : (ep.makeRoom g).largeRegionMap.firstFree = some id) (hl : Listed (ep.makeRoom g) l []) :
    ∃ ep', ep.createRegion g reqsegs false = (none, ep') ∧ SameCache (ep.makeRoom g) ep' := by
  have hthreaded := hl.threaded
  rw [h] at hthreaded
  have hmem : id ∈ l := by
    cases hthreaded with
    | cons _ => exact List.mem_cons_self ..
  have hnr : (ep.makeRoom g).largeRegionMap.nrFree ≠ 0 := by
    rw [hl.nrFree]
    exact fun hlen => List.not_mem_nil (List.length_eq_zero_iff.1 hlen ▸ hmem)
  rw [Endpoint.createRegion, Endpoint.alloc_eq, Endpoint.tryAlloc_some h]
  refine ⟨_, rfl, ?_, ?_, ?_, fun i hi => ?_, rfl, rfl, rfl⟩
  · simp only [Endpoint.modify, LargeRegionMap.nextFree_free, LargeRegionMap.nextFree_modify,
      LargeRegionMap.nextFree_pop, LargeRegionMap.firstFree_modify, LargeRegionMap.firstFree_pop,
      Function.update_eq_self]
  · exact h.symm
  · change (ep.makeRoom g).largeRegionMap.nrFree - 1 + 1 = _
    omega
  · have hne : i ≠ id := by
      rintro rfl
      have hnot := hl.not_mem (List.mem_append_left _ hmem)
      exact (List.mem_append.1 hi).elim hnot.1 hnot.2
    simp only [Endpoint.modify, Endpoint.region, LargeRegionMap.region_free,
      LargeRegionMap.region_modify, LargeRegionMap.region_pop, Function.update_of_ne hne]

end Xen2mx.Regcache
