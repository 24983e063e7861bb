/-
# `Xen2mx.Regcache.Coherent` — the lists, the counts and the slots agree

The library gets and puts regions, the driver registers them or not, and the application frees memory
that regions were made of.

    get                 a region of the cache, or a new one; the oldest unused may go for its slot
    put                 by who got it, with the reserver it was got with
    clean               the unused regions in the memory that is freed

An eviction comes before the driver is asked.  When the driver does not register the region, the
evicted one does not come back: the slot stays free.

**Proved here.**

    a region may leave, a new one come, one may be used more or less      (`Coherent.leave`, `.add`, `.touch`)
    every step keeps the lists, the counts and the slots                  (`Coherent.step`)
    they agree in every state of every run, and a get that fails changes nothing but an eviction
                                                                          (`machine_kept`)
    that eviction it does not take back                                   (`machine_not_unchanged`)
-/
import Xen2mx.Lib.Runs
import Xen2mx.Regcache.Holders
import Xen2mx.Regcache.Lists

namespace Xen2mx.Regcache

/-- The endpoint, and who uses its regions. -/
structure State where
  ep : Endpoint
  holders : List Holder

inductive Action where
  | get (reqsegs : ReqSegs) (reserver : Option ℕ) (registers : Bool)
  | put (holder : Holder)
  | clean (ptr size : ℕ)

def State.step (g : Globals) (s : State) : Action → Option State
  | .get reqsegs reserver registers =>
      match s.ep.getRegion g reqsegs reserver registers with
      | (some id, ep) => some ⟨ep, ⟨id, reqsegs, reserver⟩ :: s.holders⟩
      | (none, ep) => some ⟨ep, s.holders⟩
  | .put holder =>
      if holder ∈ s.holders then
        some ⟨s.ep.putRegion g holder.region holder.reserver, s.holders.erase holder⟩
      else none
  | .clean ptr size => (s.ep.regcacheClean g ptr size).map fun ep => ⟨ep, s.holders⟩

/-- An endpoint, from `omx__endpoint_large_region_map_init` on. -/
def machine (g : Globals) (malloc : ℕ → LargeRegion) : Machine State Action where
  init := ⟨.init malloc, []⟩
  step := State.step g

/-- The lists, the counts and the slots agree. -/
structure Coherent (g : Globals) (ep : Endpoint) (holders : List Holder) : Prop where
  /-- A slot is free, or its region is in one of the lists. -/
  listed : ∃ l, Listed ep l []
  nodup : ep.regUnusedList.Nodup
  /-- The unused list has the contigous regions without users. -/
  mem_unused : ∀ id, id ∈ ep.regUnusedList ↔ id ∈ ep.regList ∧ (ep.region id).useCount = 0
  held : ∀ id ∈ ep.regList ++ ep.regVectList, Held holders id (ep.region id)
  /-- What is used is in one of the lists. -/
  mem : ∀ h ∈ holders, h.region ∈ ep.regList ++ ep.regVectList
  contigous : ∀ id ∈ ep.regList, (ep.region id).segs.nseg = 1
  vectorial : ∀ id ∈ ep.regVectList,
    (ep.region id).segs.nseg ≠ 1 ∧ (ep.region id).useCount = 1
  /-- Without the regcache no region is shared. -/
  uncached : g.regcache = false → ∀ id ∈ ep.regList, (ep.region id).useCount = 1

namespace Coherent

variable {g : Globals} {ep ep' : Endpoint} {holders holders' : List Holder} {id : ℕ}

theorem init (g : Globals) (malloc : ℕ → LargeRegion) : Coherent g (.init malloc) [] where
  listed := ⟨_, .init malloc⟩
  nodup := List.nodup_nil
  mem_unused := fun _ => iff_of_false List.not_mem_nil fun h => List.not_mem_nil h.1
  held := fun _ h => absurd h List.not_mem_nil
  mem := fun _ h => absurd h List.not_mem_nil
  contigous := fun _ h => absurd h List.not_mem_nil
  vectorial := fun _ h => absurd h List.not_mem_nil
  uncached := fun _ _ h => absurd h List.not_mem_nil

/-- A region without users leaves. -/
theorem leave (h : Coherent g ep holders) (ep' : Endpoint) (hid : id ∈ ep.regList ++ ep.regVectList)
    (hmap : ep'.largeRegionMap.nextFree = ep.largeRegionMap.nextFree ∧
      ep'.largeRegionMap.firstFree = ep.largeRegionMap.firstFree ∧
      ep'.largeRegionMap.nrFree = ep.largeRegionMap.nrFree)
    (hregion : ∀ i ≠ id, ep'.region i = ep.region i)
    (hreg : ep'.regList = ep.regList) (hvect : ep'.regVectList = ep.regVectList)
    (hunused : ep'.regUnusedList = ep.regUnusedList.erase id)
    (hheld : ∀ i ≠ id, ∀ region, Held holders i region → Held holders' i region)
    (hmem : ∀ h ∈ holders', h ∈ holders ∧ h.region ≠ id) :
    Coherent g (ep'.destroyRegion id) holders' := by
  obtain ⟨l, hl⟩ := h.listed
  have hl' : Listed ep' l [] :=
    ⟨by rw [hmap.1, hmap.2.1]; exact hl.threaded, by rw [hmap.2.2]; exact hl.nrFree,
      by rw [hreg, hvect]; exact hl.perm⟩
  -- what is left in the lists is not the region
  have hreg' : ∀ i, i ∈ (ep'.destroyRegion id).regList ↔ i ≠ id ∧ i ∈ ep.regList := fun i => by
    change i ∈ ep'.regList.erase id ↔ _
    rw [hreg]
    exact hl.nodup_reg.mem_erase_iff
  have hvect' : ∀ i, i ∈ (ep'.destroyRegion id).regVectList ↔ i ≠ id ∧ i ∈ ep.regVectList :=
    fun i => by
      change i ∈ ep'.regVectList.erase id ↔ _
      rw [hvect]
      exact hl.nodup_vect.mem_erase_iff
  have hlists : ∀ i, i ∈ (ep'.destroyRegion id).regList ++ (ep'.destroyRegion id).regVectList ↔
      i ≠ id ∧ i ∈ ep.regList ++ ep.regVectList := fun i => by
    rw [List.mem_append, List.mem_append, hreg', hvect', and_or_left]
  have hsame : ∀ i ≠ id, (ep'.destroyRegion id).region i = ep.region i := fun i hne => by
    rw [← hregion i hne]
    exact congrFun (LargeRegionMap.region_free _ _) i
  refine
    { listed := ⟨_, hl'.destroy (by rw [hreg, hvect]; exact hid)⟩
      nodup := ?_
      mem_unused := fun i => ?_
      held := fun i hi => ?_
      mem := fun h' hh' => (hlists _).2 ⟨(hmem h' hh').2, h.mem h' (hmem h' hh').1⟩
      contigous := fun i hi => ?_
      vectorial := fun i hi => ?_
      uncached := fun hcache i hi => ?_ }
  · change ep'.regUnusedList.Nodup
    rw [hunused]
    exact h.nodup.erase id
  · change i ∈ ep'.regUnusedList ↔ _
    rw [hunused, h.nodup.mem_erase_iff, h.mem_unused i, hreg' i]
    by_cases hne : i = id
    · exact iff_of_false (fun hn => hn.1 hne) fun hn => hn.1.1 hne
    · rw [hsame i hne, and_assoc]
  · obtain ⟨hne, hi⟩ := (hlists i).1 hi
    rw [hsame i hne]
    exact hheld i hne _ (h.held i hi)
  · obtain ⟨hne, hi⟩ := (hreg' i).1 hi
    rw [hsame i hne]
    exact h.contigous i hi
  · obtain ⟨hne, hi⟩ := (hvect' i).1 hi
    rw [hsame i hne]
    exact h.vectorial i hi
  · obtain ⟨hne, hi⟩ := (hreg' i).1 hi
    rw [hsame i hne]
    exact h.uncached hcache i hi

/-- The oldest unused region goes. -/
theorem makeRoom (h : Coherent g ep holders) : Coherent g (ep.makeRoom g) holders := by
  unfold Endpoint.makeRoom
  split
  · exact h
  · split
    · split
      · exact h
      · rename_i id unused hunused
        have hid := (h.mem_unused id).1 (hunused ▸ List.mem_cons_self ..)
        have hlists : id ∈ ep.regList ++ ep.regVectList := List.mem_append_left _ hid.1
        refine h.leave _ hlists ⟨rfl, rfl, rfl⟩ (fun _ _ => rfl) rfl rfl ?_
          (fun _ _ _ hheld => hheld) fun h' hh' => ⟨hh', ?_⟩
        · rw [hunused, List.erase_cons_head]
        · exact users_eq_zero.1 ((h.held id hlists).useCount.symm.trans hid.2) h' hh'
    · exact h

/-- What is in no list does not matter. -/
theorem congr (h : Coherent g ep holders) (hsame : SameCache ep ep') : Coherent g ep' holders := by
  obtain ⟨l, hl⟩ := h.listed
  have hreg : ∀ i ∈ ep.regList, ep'.region i = ep.region i := fun i hi =>
    hsame.region i (List.mem_append_left _ hi)
  have hvect : ∀ i ∈ ep.regVectList, ep'.region i = ep.region i := fun i hi =>
    hsame.region i (List.mem_append_right _ hi)
  refine
    { listed :=
        ⟨l, by rw [hsame.nextFree, hsame.firstFree]; exact hl.threaded,
          by rw [hsame.nrFree]; exact hl.nrFree,
          by rw [hsame.regList, hsame.regVectList]; exact hl.perm⟩
      nodup := by rw [hsame.regUnusedList]; exact h.nodup
      mem_unused := fun i => ?_
      held := fun i hi => ?_
      mem := fun h' hh' => by rw [hsame.regList, hsame.regVectList]; exact h.mem h' hh'
      contigous := fun i hi => ?_
      vectorial := fun i hi => ?_
      uncached := fun hcache i hi => ?_ }
  · rw [hsame.regUnusedList, hsame.regList, h.mem_unused i]
    exact and_congr_right fun hi => by rw [hreg i hi]
  · rw [hsame.regList, hsame.regVectList] at hi
    rw [hsame.region i hi]
    exact h.held i hi
  · rw [hsame.regList] at hi
    rw [hreg i hi]
    exact h.contigous i hi
  · rw [hsame.regVectList] at hi
    rw [hvect i hi]
    exact h.vectorial i hi
  · rw [hsame.regList] at hi
    rw [hreg i hi]
    exact h.uncached hcache i hi

/-- A region of the cache has one user more or less. -/
theorem touch (h : Coherent g ep holders) (hcache : g.regcache = true) (hid : id ∈ ep.regList)
    (hmap : ep'.largeRegionMap.nextFree = ep.largeRegionMap.nextFree ∧
      ep'.largeRegionMap.firstFree = ep.largeRegionMap.firstFree ∧
      ep'.largeRegionMap.nrFree = ep.largeRegionMap.nrFree)
    (hregion : ∀ i ≠ id, ep'.region i = ep.region i)
    (hsegs : (ep'.region id).segs = (ep.region id).segs)
    (hreg : ep'.regList = ep.regList) (hvect : ep'.regVectList = ep.regVectList)
    (hnodup : ep'.regUnusedList.Nodup)
    (hunused : ∀ i ≠ id, i ∈ ep'.regUnusedList ↔ i ∈ ep.regUnusedList)
    (hid' : id ∈ ep'.regUnusedList ↔ (ep'.region id).useCount = 0)
    (hheld : ∀ i ≠ id, ∀ region, Held holders i region → Held holders' i region)
    (hheld' : Held holders' id (ep'.region id))
    (hmem : ∀ h ∈ holders', h ∈ holders ∨ h.region = id) : Coherent g ep' holders' := by
  obtain ⟨l, hl⟩ := h.listed
  refine
    { listed :=
        ⟨l, by rw [hmap.1, hmap.2.1]; exact hl.threaded, by rw [hmap.2.2]; exact hl.nrFree,
          by rw [hreg, hvect]; exact hl.perm⟩
      nodup := hnodup
      mem_unused := fun i => ?_
      held := fun i hi => ?_
      mem := fun h' hh' => ?_
      contigous := fun i hi => ?_
      vectorial := fun i hi => ?_
      uncached := fun hno => absurd (hcache.symm.trans hno) nofun }
  · rw [hreg]
    by_cases hne : i = id
    · rw [hne, hid']
      exact (and_iff_right hid).symm
    · rw [hunused i hne, hregion i hne]
      exact h.mem_unused i
  · rw [hreg, hvect] at hi
    by_cases hne : i = id
    · rw [hne]
      exact hheld'
    · rw [hregion i hne]
      exact hheld i hne _ (h.held i hi)
  · rw [hreg, hvect]
    rcases hmem h' hh' with hh' | heq
    · exact h.mem h' hh'
    · rw [heq]
      exact List.mem_append_left _ hid
  · rw [hreg] at hi
    by_cases hne : i = id
    · rw [hne, hsegs]
      exact h.contigous id hid
    · rw [hregion i hne]
      exact h.contigous i hi
  · rw [hvect] at hi
    have hne : i ≠ id := by
      rintro rfl
      exact hl.not_mem_vect hid hi
    rw [hregion i hne]
    exact h.vectorial i hi

/-- A region that was created enters its list with the user it was created for. -/
theorem add {l : List ℕ} (h : Coherent g ep holders) (h' : Holder) (hl : Listed ep (id :: l) [])
    (hlisted : Listed ep' l [])
    (hregion : ep'.region = Function.update ep.region id
      ⟨1, h'.segs, if h'.reserver.isSome then h'.reserver else none⟩)
    (hlists : (ep'.regList = ep.regList ++ [id] ∧ ep'.regVectList = ep.regVectList ∧
        h'.segs.nseg = 1) ∨
      (ep'.regList = ep.regList ∧ ep'.regVectList = ep.regVectList ++ [id] ∧ h'.segs.nseg ≠ 1))
    (hunused : ep'.regUnusedList = ep.regUnusedList) (hh' : h'.region = id) :
    Coherent g ep' (h' :: holders) := by
  have hnot := hl.not_mem (List.mem_append_left _ (List.mem_cons_self ..))
  have hnew : id ∉ ep.regList ++ ep.regVectList := fun hmem =>
    (List.mem_append.1 hmem).elim hnot.1 hnot.2
  have hself : ep'.region id =
      ⟨1, h'.segs, if h'.reserver.isSome then h'.reserver else none⟩ := by
    rw [hregion, Function.update_self]
  have hother : ∀ i ≠ id, ep'.region i = ep.region i := fun i hne => by
    rw [hregion, Function.update_of_ne hne]
  have hreg : ∀ i ≠ id, i ∈ ep'.regList ↔ i ∈ ep.regList := fun i hne => by
    rcases hlists with ⟨heq, -⟩ | ⟨heq, -⟩
    · rw [heq, List.mem_append, List.mem_singleton]
      exact or_iff_left hne
    · rw [heq]
  have hvect : ∀ i ≠ id, i ∈ ep'.regVectList ↔ i ∈ ep.regVectList := fun i hne => by
    rcases hlists with ⟨-, heq, -⟩ | ⟨-, heq, -⟩
    · rw [heq]
    · rw [heq, List.mem_append, List.mem_singleton]
      exact or_iff_left hne
  have hmem : ∀ i ≠ id,
      i ∈ ep'.regList ++ ep'.regVectList ↔ i ∈ ep.regList ++ ep.regVectList := fun i hne => by
    rw [List.mem_append, List.mem_append, hreg i hne, hvect i hne]
  have hid : id ∈ ep'.regList ++ ep'.regVectList := by
    rcases hlists with ⟨heq, -⟩ | ⟨-, heq, -⟩
    · rw [heq]
      exact List.mem_append_left _ (List.mem_append_right _ (List.mem_singleton_self id))
    · rw [heq]
      exact List.mem_append_right _ (List.mem_append_right _ (List.mem_singleton_self id))
  refine
    { listed := ⟨l, hlisted⟩
      nodup := by rw [hunused]; exact h.nodup
      mem_unused := fun i => ?_
      held := fun i hi => ?_
      mem := fun x hx => ?_
      contigous := fun i hi => ?_
      vectorial := fun i hi => ?_
      uncached := fun hcache i hi => ?_ }
  · rw [hunused]
    by_cases hne : i = id
    · rw [hne, hself]
      exact iff_of_false (fun hmem => hnot.1 ((h.mem_unused id).1 hmem).1) fun hn => nomatch hn.2
    · rw [hother i hne, hreg i hne]
      exact h.mem_unused i
  · by_cases hne : i = id
    · subst hne
      subst hh'
      rw [hself]
      refine Held.use (Held.created ?_ h'.segs) (fun _ => rfl) List.prefix_rfl
      intro x hx heq
      exact hnew (heq ▸ h.mem x hx)
    · rw [hother i hne]
      exact (Held.cons_iff_of_ne fun heq => hne (heq.symm.trans hh')).2
        (h.held i ((hmem i hne).1 hi))
  · rcases List.mem_cons.1 hx with rfl | hx
    · rw [hh']
      exact hid
    · have hne : x.region ≠ id := fun heq => hnew (heq ▸ h.mem x hx)
      exact (hmem _ hne).2 (h.mem x hx)
  · by_cases hne : i = id
    · subst hne
      rw [hself]
      rcases hlists with ⟨-, -, hone⟩ | ⟨heq, -⟩
      · exact hone
      · exact absurd (heq ▸ hi) hnot.1
    · rw [hother i hne]
      exact h.contigous i ((hreg i hne).1 hi)
  · by_cases hne : i = id
    · subst hne
      rw [hself]
      rcases hlists with ⟨-, heq, -⟩ | ⟨-, -, hmany⟩
      · exact absurd (heq ▸ hi) hnot.2
      · exact ⟨hmany, rfl⟩
    · rw [hother i hne]
      exact h.vectorial i ((hvect i hne).1 hi)
  · by_cases hne : i = id
    · rw [hne, hself]
    · rw [hother i hne]
      exact h.uncached hcache i ((hreg i hne).1 hi)

/-! ## A get -/

variable {reqsegs : ReqSegs} {reserver : Option ℕ} {registers : Bool}

theorem createRegion_some (h : Coherent g ep holders)
    (hcreate : ep.createRegion g reqsegs registers = (some id, ep')) :
    ∃ l, Listed (ep.makeRoom g) (id :: l) [] ∧ Created (ep.makeRoom g) id reqsegs ep' := by
  obtain ⟨l, hl⟩ := h.makeRoom.listed
  cases hfirst : (ep.makeRoom g).largeRegionMap.firstFree with
  | none =>
      rw [createRegion_none hfirst] at hcreate
      exact nomatch hcreate
  | some first =>
      cases registers with
      | false =>
          obtain ⟨_, hfalse, -⟩ := createRegion_false reqsegs hfirst hl
          rw [hfalse] at hcreate
          exact nomatch hcreate
      | true =>
          obtain ⟨_, htrue, hcreated⟩ := createRegion_true reqsegs hfirst
          rw [htrue] at hcreate
          cases hcreate
          have hthreaded := hl.threaded
          rw [hfirst] at hthreaded
          cases hthreaded with
          | cons _ => exact ⟨_, hl, hcreated⟩

theorem createRegion_none (h : Coherent g ep holders)
    (hcreate : ep.createRegion g reqsegs registers = (none, ep')) :
    SameCache (ep.makeRoom g) ep' ∧
      (registers = true → (ep.makeRoom g).largeRegionMap.firstFree = none) := by
  obtain ⟨l, hl⟩ := h.makeRoom.listed
  cases hfirst : (ep.makeRoom g).largeRegionMap.firstFree with
  | none =>
      rw [Regcache.createRegion_none hfirst] at hcreate
      cases hcreate
      exact ⟨.refl _, fun _ => rfl⟩
  | some first =>
      cases registers with
      | false =>
          obtain ⟨_, hfalse, hsame⟩ := createRegion_false reqsegs hfirst hl
          rw [hfalse] at hcreate
          cases hcreate
          exact ⟨hsame, by rintro ⟨⟩⟩
      | true =>
          obtain ⟨_, htrue, -⟩ := createRegion_true reqsegs hfirst
          rw [htrue] at hcreate
          cases hcreate

/-- A region of the cache gets one more user. -/
theorem reuse (h : Coherent g ep holders) (hcache : g.regcache = true)
    (hnseg : reqsegs.nseg = 1) (hid : id ∈ ep.regList)
    (hreuses : ep.reuses g reqsegs.single reserver id = true) :
    Coherent g
      (Endpoint.use
        { ep with
          regUnusedList :=
            if (ep.region id).useCount = 0 then ep.regUnusedList.erase id else ep.regUnusedList }
        id reserver)
      (⟨id, reqsegs, reserver⟩ :: holders) := by
  simp only [Endpoint.reuses, Bool.and_eq_true, Bool.or_eq_true, Option.isNone_iff_eq_none,
    beq_iff_eq, decide_eq_true_eq] at hreuses
  obtain ⟨⟨⟨hreserver, -⟩, hvaddr⟩, hlen⟩ := hreuses
  have hcovers := ReqSegs.addresses_prefix hnseg (h.contigous id hid) hvaddr hlen
  have hheld := h.held id (List.mem_append_left _ hid)
  refine h.touch hcache hid ⟨?_, rfl, rfl⟩ (fun i hne => ?_) ?_ rfl rfl ?_
    (fun i hne => ?_) ?_ (fun i hne region hr => ?_) ?_ fun x hx => ?_
  · exact Endpoint.nextFree_use ..
  · simp only [Endpoint.region, Endpoint.region_use, Function.update_of_ne hne]
  · simp only [Endpoint.region, Endpoint.region_use, Function.update_self]
  · change (if (ep.region id).useCount = 0 then _ else _ : List ℕ).Nodup
    split
    · exact h.nodup.erase id
    · exact h.nodup
  · change i ∈ (if (ep.region id).useCount = 0 then _ else _ : List ℕ) ↔ _
    split
    · exact h.nodup.mem_erase_iff.trans (and_iff_right hne)
    · exact Iff.rfl
  · change id ∈ (if (ep.region id).useCount = 0 then _ else _ : List ℕ) ↔ _
    simp only [Endpoint.region, Endpoint.region_use, Function.update_self]
    refine iff_of_false ?_ (Nat.succ_ne_zero _)
    split
    · exact fun hmem => (h.nodup.mem_erase_iff.1 hmem).1 rfl
    · rename_i hused
      exact fun hmem => hused ((h.mem_unused id).1 hmem).2
  · exact (Held.cons_iff_of_ne fun heq => hne heq.symm).2 hr
  · simp only [Endpoint.region, Endpoint.region_use, Function.update_self]
    refine Held.use (h := ⟨id, reqsegs, reserver⟩) hheld (fun hsome => ?_) hcovers
    rcases hreserver with hnone | hnone
    · rw [hnone] at hsome
      exact nomatch hsome
    · exact hnone
  · rcases List.mem_cons.1 hx with rfl | hx
    · exact .inr rfl
    · exact .inl hx

theorem createRegion_listed {l : List ℕ} (hl : Listed (ep.makeRoom g) (id :: l) [])
    (hcreated : Created (ep.makeRoom g) id reqsegs ep') : Listed ep' l [id] :=
  hl.take hcreated.nextFree hcreated.firstFree hcreated.nrFree hcreated.regList
    hcreated.regVectList

/-- The region that a get returns covers the segments, and has the user. -/
theorem getRegion_some (h : Coherent g ep holders)
    (hget : ep.getRegion g reqsegs reserver registers = (some id, ep')) :
    Coherent g ep' (⟨id, reqsegs, reserver⟩ :: holders) := by
  rw [Endpoint.getRegion] at hget
  split at hget
  · -- vectorial
    rename_i hnseg
    rw [Endpoint.getVectRegion] at hget
    split at hget
    · exact nomatch hget
    · rename_i id' ep₁ hcreate
      cases hget
      obtain ⟨l, hl, hcreated⟩ := h.createRegion_some hcreate
      refine h.makeRoom.add ⟨id, reqsegs, reserver⟩ hl ?_ (hcreated.use rfl reserver)
        (.inr ⟨hcreated.regList, ?_, Nat.ne_of_gt hnseg⟩) hcreated.regUnusedList rfl
      · refine (createRegion_listed hl hcreated).addVect ?_ rfl rfl rfl rfl
        exact Endpoint.nextFree_use ..
      · change ep₁.regVectList ++ [id] = _
        rw [hcreated.regVectList]
  · -- contigous
    rename_i hnseg
    have hone : reqsegs.nseg = 1 := Nat.le_antisymm (Nat.le_of_not_lt hnseg) reqsegs.nseg_pos
    unfold Endpoint.getContigousRegion at hget
    split at hget
    · rename_i id' hfind
      cases hget
      obtain ⟨hcache, hfind⟩ := Option.ite_none_right_eq_some.1 hfind
      exact h.reuse hcache hone (List.mem_of_find?_eq_some hfind)
        (List.find?_some (p := ep.reuses g reqsegs.single reserver) hfind)
    · split at hget
      · exact nomatch hget
      · rename_i id' ep₁ hcreate
        cases hget
        obtain ⟨l, hl, hcreated⟩ := h.createRegion_some hcreate
        refine h.makeRoom.add ⟨id, reqsegs, reserver⟩ hl ?_ (hcreated.use rfl reserver)
          (.inl ⟨?_, hcreated.regVectList, hone⟩) hcreated.regUnusedList rfl
        · refine (createRegion_listed hl hcreated).addReg ?_ rfl rfl rfl rfl
          exact Endpoint.nextFree_use ..
        · change ep₁.regList ++ [id] = _
          rw [hcreated.regList]

/-- A get that fails leaves what an eviction left. -/
theorem getRegion_none (h : Coherent g ep holders)
    (hget : ep.getRegion g reqsegs reserver registers = (none, ep')) :
    SameCache (ep.makeRoom g) ep' ∧
      (registers = true → (ep.makeRoom g).largeRegionMap.firstFree = none) := by
  rw [Endpoint.getRegion] at hget
  split at hget
  · rw [Endpoint.getVectRegion] at hget
    split at hget
    · rename_i ep₁ hcreate
      cases hget
      exact h.createRegion_none hcreate
    · exact nomatch hget
  · unfold Endpoint.getContigousRegion at hget
    split at hget
    · exact nomatch hget
    · split at hget
      · rename_i ep₁ hcreate
        cases hget
        exact h.createRegion_none hcreate
      · exact nomatch hget

/-! ## A put -/

theorem putRegion {h' : Holder} (h : Coherent g ep holders) (hmem : h' ∈ holders) :
    Coherent g (ep.putRegion g h'.region h'.reserver) (holders.erase h') := by
  have hlists := h.mem h' hmem
  have hheld := h.held _ hlists
  have hleft := (hheld.perm (List.perm_cons_erase hmem)).leave
  -- what a put does to the region
  have hself : (ep.unuse h'.region h'.reserver).region h'.region =
      { ep.region h'.region with
        useCount := (ep.region h'.region).useCount - 1
        reserver := if h'.reserver.isSome then none else (ep.region h'.region).reserver } := by
    rw [Endpoint.region, Endpoint.region_unuse, Function.update_self]
  have hother : ∀ i ≠ h'.region, (ep.unuse h'.region h'.reserver).region i = ep.region i :=
    fun i hne => by rw [Endpoint.region, Endpoint.region_unuse, Function.update_of_ne hne]
  have hrest : ∀ i ≠ h'.region, ∀ region, Held holders i region →
      Held (holders.erase h') i region := fun i hne region hr => hr.erase_of_ne hmem hne.symm
  have hpos : (ep.region h'.region).useCount ≠ 0 := by
    rw [hheld.useCount]
    exact fun hzero => users_eq_zero.1 hzero h' hmem rfl
  have hnot : h'.region ∉ ep.regUnusedList := fun hin => hpos ((h.mem_unused _).1 hin).2
  unfold Endpoint.putRegion
  dsimp only
  split
  · -- the cache keeps the region
    rename_i hkeep
    obtain ⟨hcache, hnseg⟩ := Bool.and_eq_true_iff.1 hkeep
    have hone : (ep.region h'.region).segs.nseg = 1 := by
      rw [hself] at hnseg
      exact beq_iff_eq.1 hnseg
    have hid : h'.region ∈ ep.regList :=
      (List.mem_append.1 hlists).resolve_right fun hvect => (h.vectorial _ hvect).1 hone
    refine h.touch hcache hid ⟨Endpoint.nextFree_unuse .., rfl, rfl⟩ hother
      (by rw [hself]) rfl rfl ?_ (fun i hne => ?_) ?_ hrest ?_
      fun x hx => .inl (List.mem_of_mem_erase hx)
    · change (if _ then ep.regUnusedList ++ [h'.region] else ep.regUnusedList).Nodup
      split
      · refine List.nodup_append'.2 ⟨h.nodup, List.nodup_singleton _, fun i hi hi' => ?_⟩
        rw [List.mem_singleton.1 hi'] at hi
        exact hnot hi
      · exact h.nodup
    · change i ∈ (if _ then ep.regUnusedList ++ [h'.region] else ep.regUnusedList) ↔ _
      split
      · rw [List.mem_append, List.mem_singleton]
        exact or_iff_left hne
      · exact Iff.rfl
    · change h'.region ∈ (if _ then ep.regUnusedList ++ [h'.region] else ep.regUnusedList) ↔ _
      split
      · rename_i hzero
        exact iff_of_true (List.mem_append_right _ (List.mem_singleton_self _)) hzero
      · rename_i hused
        exact iff_of_false hnot hused
    · rw [hself]
      exact hleft
  · -- the region goes: its only user was the one that puts it
    rename_i hkeep
    have hone : (ep.region h'.region).useCount = 1 := by
      rcases List.mem_append.1 hlists with hreg | hvect
      · refine h.uncached (Bool.eq_false_iff.2 fun hcache => hkeep ?_) _ hreg
        rw [hcache, hself]
        exact beq_iff_eq.2 (h.contigous _ hreg)
      · exact (h.vectorial _ hvect).2
    refine h.leave _ hlists ⟨Endpoint.nextFree_unuse .., rfl, rfl⟩ hother rfl rfl
      (List.erase_of_not_mem hnot).symm hrest fun x hx => ⟨List.mem_of_mem_erase hx, ?_⟩
    have hzero : users (holders.erase h') h'.region = 0 := by
      rw [← hleft.useCount]
      change (ep.region h'.region).useCount - 1 = 0
      rw [hone]
    exact users_eq_zero.1 hzero x hx

/-! ## A clean -/

theorem regcacheCleanLoop {begin_ end_ : ℕ} (ids : List ℕ) (h : Coherent g ep holders)
    (hnodup : ids.Nodup) (hids : ∀ i ∈ ids, i ∈ ep.regList)
    (hclean : Endpoint.regcacheCleanLoop begin_ end_ ids ep = some ep') :
    Coherent g ep' holders := by
  induction ids generalizing ep with
  | nil =>
      cases hclean
      exact h
  | cons id ids ih =>
      obtain ⟨hnot, hnodup⟩ := List.nodup_cons.1 hnodup
      have hid := hids id (List.mem_cons_self ..)
      have hrest : ∀ i ∈ ids, i ∈ ep.regList := fun i hi => hids i (List.mem_cons_of_mem _ hi)
      rw [Endpoint.regcacheCleanLoop] at hclean
      split at hclean
      · split at hclean
        · rename_i hzero
          have hlists : id ∈ ep.regList ++ ep.regVectList := List.mem_append_left _ hid
          have hunused := users_eq_zero.1 ((h.held id hlists).useCount.symm.trans hzero)
          have hleft := h.leave { ep with regUnusedList := ep.regUnusedList.erase id } hlists
            ⟨rfl, rfl, rfl⟩ (fun _ _ => rfl) rfl rfl rfl (fun _ _ _ hheld => hheld)
            fun h' hh' => ⟨hh', hunused h' hh'⟩
          refine ih hleft hnodup (fun i hi => ?_) hclean
          have hne : i ≠ id := fun heq => hnot (heq ▸ hi)
          exact (List.mem_erase_of_ne hne).2 (hrest i hi)
        · exact nomatch hclean
      · exact ih h hnodup hrest hclean

end Coherent

/-! ## Runs -/

variable {g : Globals} {malloc : ℕ → LargeRegion}

theorem Coherent.step {s s' : State} {a : Action} (h : Coherent g s.ep s.holders)
    (hstep : s.step g a = some s') : Coherent g s'.ep s'.holders := by
  cases a with
  | get reqsegs reserver registers =>
      rw [State.step] at hstep
      split at hstep
      · rename_i id ep hget
        cases hstep
        exact h.getRegion_some hget
      · rename_i ep hget
        cases hstep
        exact h.makeRoom.congr (h.getRegion_none hget).1
  | put holder =>
      obtain ⟨hmem, hstep⟩ := Option.ite_none_right_eq_some.1 hstep
      cases hstep
      exact h.putRegion hmem
  | clean ptr size =>
      obtain ⟨ep, hclean, rfl⟩ := Option.map_eq_some_iff.1 hstep
      unfold Endpoint.regcacheClean at hclean
      split at hclean
      · obtain ⟨l, hl⟩ := h.listed
        exact h.regcacheCleanLoop _ hl.nodup_reg (fun _ hi => hi) hclean
      · cases hclean
        exact h

theorem coherent_of_exec {as : List Action} {s : State}
    (h : (machine g malloc).exec (machine g malloc).init as = some s) :
    Coherent g s.ep s.holders :=
  Machine.exec_invariant (I := fun s : State => Coherent g s.ep s.holders)
    (fun _ _ _ hI hs => hI.step hs) (Coherent.init g malloc) h

/-- The unused list, the slots, the segments and the reservers are as they should be. -/
structure Kept (s : State) : Prop where
  nodup : s.ep.regUnusedList.Nodup
  unused : ∀ id, id ∈ s.ep.regUnusedList ↔ id ∈ s.ep.regList ∧ (s.ep.region id).useCount = 0
  /-- The free slots, the contigous and the vectorial regions are as many as the table has. -/
  slots : ∃ free,
    Threaded s.ep.largeRegionMap.nextFree s.ep.largeRegionMap.firstFree free ∧
    s.ep.largeRegionMap.nrFree = free.length ∧
    free.length + s.ep.regList.length + s.ep.regVectList.length = userRegionMax
  /-- Who got a region has it: it is in its list, and covers the segments that were asked for. -/
  covers : ∀ h ∈ s.holders, h.region ∈ s.ep.regList ++ s.ep.regVectList ∧
    h.segs.addresses <+: (s.ep.region h.region).segs.addresses
  /-- No region has two reservers. -/
  reserver : ∀ id, (reservers s.holders id).length ≤ 1

/-- A region was evicted: the oldest of the unused, when no slot was free. -/
structure Evicted (ep : Endpoint) (id : ℕ) (ep' : Endpoint) : Prop where
  noneFree : ep.largeRegionMap.nrFree = 0
  oldest : ep.regUnusedList = id :: ep'.regUnusedList
  regList : ep'.regList = ep.regList.erase id
  regVectList : ep'.regVectList = ep.regVectList
  oneFree : ep'.largeRegionMap.nrFree = 1
  region : ∀ i ∈ ep'.regList ++ ep'.regVectList, ep'.region i = ep.region i

theorem Coherent.kept {s : State} (h : Coherent g s.ep s.holders) : Kept s where
  nodup := h.nodup
  unused := h.mem_unused
  slots := by
    obtain ⟨l, hl⟩ := h.listed
    refine ⟨l, hl.threaded, hl.nrFree, ?_⟩
    have hlen := hl.length_eq
    rw [hl.nrFree] at hlen
    exact hlen
  covers := fun h' hh' => ⟨h.mem h' hh', (h.held _ (h.mem h' hh')).covers h' hh' rfl⟩
  reserver := fun id => by
    by_cases hid : id ∈ s.ep.regList ++ s.ep.regVectList
    · rw [(h.held id hid).reserver.length_eq]
      cases (s.ep.region id).reserver with
      | none => exact Nat.zero_le _
      | some _ => exact Nat.le_refl _
    · have hnil : reservers s.holders id = [] :=
        List.filterMap_eq_nil_iff.2 fun h' hh' =>
          if_neg fun heq : h'.region = id => hid (heq ▸ h.mem h' hh')
      rw [hnil]
      exact Nat.zero_le _

/-- An eviction, if the allocation needs one. -/
theorem makeRoom_cases {ep : Endpoint} {holders : List Holder} (h : Coherent g ep holders) :
    ep.makeRoom g = ep ∨
      (ep.makeRoom g).largeRegionMap.firstFree ≠ none ∧ ∃ id, Evicted ep id (ep.makeRoom g) := by
  obtain ⟨l, hl⟩ := h.listed
  cases hfirst : ep.largeRegionMap.firstFree with
  | some first =>
      left
      rw [Endpoint.makeRoom, hfirst]
  | none =>
      have hnil : ep.largeRegionMap.nrFree = 0 := by
        have hthreaded := hl.threaded
        rw [hfirst] at hthreaded
        rw [hl.nrFree, hthreaded.eq_nil]
        rfl
      cases hcache : g.regcache with
      | false =>
          left
          simp only [Endpoint.makeRoom, hfirst, hcache, Bool.false_eq_true, if_false]
      | true =>
          cases hunused : ep.regUnusedList with
          | nil =>
              left
              simp only [Endpoint.makeRoom, hfirst, hcache, hunused, if_true]
          | cons id unused =>
              right
              have hid := (h.mem_unused id).1 (hunused ▸ List.mem_cons_self ..)
              have hroom : ep.makeRoom g =
                  Endpoint.destroyRegion { ep with regUnusedList := unused } id := by
                simp only [Endpoint.makeRoom, hfirst, hcache, hunused, if_true]
              rw [hroom]
              refine ⟨Option.some_ne_none id, id, hnil, hunused, rfl, ?_, ?_, fun i _ => ?_⟩
              · exact List.erase_of_not_mem (hl.not_mem_vect hid.1)
              · change ep.largeRegionMap.nrFree + 1 = 1
                rw [hnil]
              · exact congrFun (LargeRegionMap.region_free _ _) i

theorem Evicted.congr {ep ep₁ ep₂ : Endpoint} {id : ℕ} (h : Evicted ep id ep₁)
    (hsame : SameCache ep₁ ep₂) : Evicted ep id ep₂ where
  noneFree := h.noneFree
  oldest := by rw [hsame.regUnusedList]; exact h.oldest
  regList := hsame.regList.trans h.regList
  regVectList := hsame.regVectList.trans h.regVectList
  oneFree := hsame.nrFree.trans h.oneFree
  region := fun i hi => by
    rw [hsame.regList, hsame.regVectList] at hi
    rw [hsame.region i hi, h.region i hi]

/-- In every run the lists, the slots, the segments and the reservers are as they should be, and a
get that fails leaves the cache as it was, but for a region that it evicted before the driver did not
register the new one. -/
theorem machine_kept (g : Globals) (malloc : ℕ → LargeRegion) {as : List Action}
    {s : State} (h : (machine g malloc).exec (machine g malloc).init as = some s) :
    Kept s ∧ ∀ reqsegs reserver registers ep',
      s.ep.getRegion g reqsegs reserver registers = (none, ep') →
      SameCache s.ep ep' ∨ registers = false ∧ ∃ id, Evicted s.ep id ep' := by
  have hcoherent := coherent_of_exec h
  refine ⟨hcoherent.kept, fun reqsegs reserver registers ep' hget => ?_⟩
  obtain ⟨hsame, hregisters⟩ := hcoherent.getRegion_none hget
  rcases makeRoom_cases hcoherent with hroom | ⟨hfirst, id, hevicted⟩
  · left
    rw [hroom] at hsame
    exact hsame
  · right
    exact ⟨Bool.eq_false_iff.2 fun htrue => hfirst (hregisters htrue), id, hevicted.congr hsame⟩

/-- The regcache, as the driver's pin invalidation enables it. -/
def cached : Globals := ⟨true, false⟩

/-- What `malloc` left is never looked at. -/
def blank (_ : ℕ) : LargeRegion := ⟨0, .ofSingle 0 0, none⟩

/-- One buffer that a region is got for, and put. -/
def warm : List Action :=
  [.get (.ofSingle 0 4096) none true, .put ⟨0, .ofSingle 0 4096, none⟩]

theorem machine_kept_warm :
    ∃ s, (machine cached blank).exec (machine cached blank).init warm = some s ∧
      Kept s ∧ ∀ reqsegs reserver registers ep',
        s.ep.getRegion cached reqsegs reserver registers = (none, ep') →
        SameCache s.ep ep' ∨ registers = false ∧ ∃ id, Evicted s.ep id ep' := by
  obtain ⟨s, hs⟩ : ∃ s,
      (machine cached blank).exec (machine cached blank).init warm = some s := ⟨_, rfl⟩
  exact ⟨s, hs, machine_kept cached blank hs⟩

/-- Two buffers of one request. -/
def twoSegs : ReqSegs := ⟨[⟨0, 4096⟩, ⟨8192, 4096⟩], List.cons_ne_nil _ _⟩

theorem nrFree_pos {ep : Endpoint} {holders : List Holder} (h : Coherent g ep holders)
    (hnr : 0 < ep.largeRegionMap.nrFree) :
    ∃ id, ep.largeRegionMap.firstFree = some id := by
  obtain ⟨l, hl⟩ := h.listed
  cases hfirst : ep.largeRegionMap.firstFree with
  | some id => exact ⟨id, rfl⟩
  | none =>
      have hthreaded := hl.threaded
      rw [hfirst] at hthreaded
      rw [hl.nrFree, hthreaded.eq_nil] at hnr
      exact absurd hnr (Nat.lt_irrefl 0)

/-- Vectorial regions take what slots there are. -/
theorem fill (malloc : ℕ → LargeRegion) (n : ℕ) {s : State} (h : Coherent g s.ep s.holders)
    (hnr : s.ep.largeRegionMap.nrFree = n) :
    ∃ s', (machine g malloc).exec s (List.replicate n (.get twoSegs none true)) = some s' ∧
      s'.ep.largeRegionMap.nrFree = 0 ∧ s'.ep.regUnusedList = s.ep.regUnusedList := by
  induction n generalizing s with
  | zero => exact ⟨s, rfl, hnr, rfl⟩
  | succ n ih =>
      obtain ⟨id, hfirst⟩ := nrFree_pos h (hnr ▸ Nat.succ_pos n)
      have hroom : s.ep.makeRoom g = s.ep := by rw [Endpoint.makeRoom, hfirst]
      obtain ⟨ep, hcreate, hcreated⟩ :=
        createRegion_true twoSegs (hroom.symm ▸ hfirst : _ = some id)
      rw [hroom] at hcreated
      have hstep : s.step g (.get twoSegs none true) = some
          ⟨Endpoint.use { ep with regVectList := ep.regVectList ++ [id] } id none,
            ⟨id, twoSegs, none⟩ :: s.holders⟩ := by
        rw [State.step, Endpoint.getRegion, if_pos (by decide), Endpoint.getVectRegion, hcreate]
      obtain ⟨s', hexec, hzero, hunused⟩ := ih (h.step hstep) <| by
        change ep.largeRegionMap.nrFree = n
        rw [hcreated.nrFree, hnr]
        rfl
      refine ⟨s', ?_, hzero, hunused.trans hcreated.regUnusedList⟩
      rw [List.replicate_succ]
      exact (Machine.exec_cons_eq_some _).2 ⟨_, hstep, hexec⟩

/-- With all slots taken, and one region unused, that region is evicted for one that the driver then
does not register. -/
theorem machine_not_unchanged :
    ¬ ∀ (g : Globals) (malloc : ℕ → LargeRegion) (as : List Action) (s : State),
      (machine g malloc).exec (machine g malloc).init as = some s →
      ∀ reqsegs reserver registers ep',
        s.ep.getRegion g reqsegs reserver registers = (none, ep') → SameCache s.ep ep' := by
  intro hunchanged
  obtain ⟨s, hwarm, hs⟩ : ∃ s,
      (machine cached blank).exec (machine cached blank).init warm = some s ∧
        s.ep.regUnusedList = [0] := ⟨_, rfl, rfl⟩
  obtain ⟨s', hfill, hzero, hunused⟩ :=
    fill blank _ (coherent_of_exec hwarm) rfl
  have hexec : (machine cached blank).exec (machine cached blank).init
      (warm ++ List.replicate s.ep.largeRegionMap.nrFree (.get twoSegs none true)) = some s' := by
    rw [Machine.exec_append, hwarm]
    exact hfill
  have hcoherent := coherent_of_exec hexec
  rw [hs] at hunused
  -- the get makes room, and fails
  obtain ⟨l, hl⟩ := hcoherent.makeRoom.listed
  have hroom : (s'.ep.makeRoom cached).regUnusedList = [] ∧
      (s'.ep.makeRoom cached).largeRegionMap.firstFree = some 0 := by
    have hfirst : s'.ep.largeRegionMap.firstFree = none := by
      obtain ⟨l', hl'⟩ := hcoherent.listed
      have hnil : l' = [] := List.length_eq_zero_iff.1 (hl'.nrFree.symm.trans hzero)
      have hthreaded := hl'.threaded
      rw [hnil] at hthreaded
      cases hfirst : s'.ep.largeRegionMap.firstFree with
      | none => rfl
      | some id =>
          rw [hfirst] at hthreaded
          cases hthreaded
    simp only [Endpoint.makeRoom, hfirst, hunused, cached, if_true]
    exact ⟨rfl, rfl⟩
  obtain ⟨ep', hcreate, hsame⟩ := createRegion_false twoSegs hroom.2 hl
  have hget : s'.ep.getRegion cached twoSegs none false = (none, ep') := by
    rw [Endpoint.getRegion, if_pos (by decide), Endpoint.getVectRegion, hcreate]
  have hkept := (hunchanged _ _ _ _ hexec _ _ _ _ hget).regUnusedList
  rw [hsame.regUnusedList, hroom.1, hunused] at hkept
  cases hkept

end Xen2mx.Regcache
