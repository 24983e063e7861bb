/-
# `Xen2mx.Grants.Balance` — the references of regions, and whole runs

The two operations on regions, and the runs of the frontend.

    create     the endpoint is not freed and was opened before, and the segments the creation comes
               to find room and memory for the list of their references
    destroy    it is not freed and was opened before; the region is not released a second time, all
               its segments have a cookie, the backend has nothing of it mapped, and no other
               region with references is taken off the list

**Proved here.**

    each operation keeps the accounts exactly under its condition
        (`createUserRegion_sound`, `destroyUserRegion_sound`)
    the steps of a run all meet their conditions
        ⟺  the accounts are right in every state it goes through   (`accounted_iff`)
    the backend refuses an endpoint: its references are lost       (`not_accounted_refused`)
-/
import Mathlib.Data.List.Perm.Basic
import Xen2mx.Grants.Queues

namespace Xen2mx.Grants

namespace Endpoint

variable {n : ℕ} {t t' : Table} {ep ep' : Endpoint} {segs : List UserRegionSegment}
  {queues : List ℕ}

/-! ## Creating a region -/

/-- When a creation keeps the accounts. -/
def CreateOk (id : ℕ) (native : Bool) (sizes : List (ℕ × GrantEnv)) (t : Table) (ep : Endpoint) :
    Prop :=
  ep.status ≠ .freed ∧ ∃ regions, ep.userRegions = some regions ∧
    (Creates id native regions → SegmentsFit sizes t)

theorem segments_of_some {regions : List UserRegion} (h : ep.userRegions = some regions) :
    ep.segments = regions.flatMap UserRegion.claimed := by
  rw [segments, h]
  rfl

/-- A region that is created comes last. -/
theorem tidy_append {regions : List UserRegion} (h : ep.Tidy)
    (hregions : ep.userRegions = some regions) {id : ℕ} (hid : ∀ region ∈ regions, region.id ≠ id) {segments : List UserRegionSegment}
    (hshaped : ∀ seg ∈ segments, Shaped seg) :
    ({ ep with userRegions := some (regions ++ [⟨id, segments, false⟩]) } : Endpoint).Tidy where
  ids := by
    rintro _ hsome
    cases hsome
    rw [List.map_append, List.nodup_append]
    refine ⟨h.ids regions hregions, List.nodup_singleton _, fun k hk k' hk' heq => ?_⟩
    obtain ⟨region, hregion, rfl⟩ := List.mem_map.1 hk
    exact hid region hregion (heq.trans (List.mem_singleton.1 hk'))
  shaped := fun seg hseg => by
    rw [segments_of_some rfl, List.flatMap_append, List.mem_append] at hseg
    rcases hseg with hseg | hseg
    · exact h.shaped seg (segments_of_some hregions ▸ hseg)
    · rw [List.flatMap_cons, List.flatMap_nil, List.append_nil] at hseg
      exact hshaped seg hseg
  grefs := h.grefs

theorem segmentsFit_of_grantSegments {sizes : List (ℕ × GrantEnv)}
    {r : List UserRegionSegment × Bool × Table} (h : grantSegments sizes t = some r) : SegmentsFit sizes t := by
  induction sizes generalizing t r with
  | nil => trivial
  | cons s sizes ih =>
      obtain ⟨nrPages, env⟩ := s
      rw [grantSegments] at h
      refine ⟨?_, fun seg t' hseg => ?_⟩
      · by_contra hlisted
        rw [grantSegment, if_neg hlisted] at h
        cases h
      · rw [hseg] at h
        obtain ⟨r', hr', -⟩ := Option.map_eq_some_iff.1 h
        exact ih hr'

theorem createUserRegion_sound (id : ℕ) (native : Bool) (sizes : List (ℕ × GrantEnv))
    (empties : List Bool) :
    Sound (createUserRegion id native sizes empties) (CreateOk id native sizes) := by
  intro n t ep segs queues h
  unfold createUserRegion CreateOk
  by_cases hfreed : ep.status = .freed
  · rw [if_pos hfreed]
    exact ⟨fun hok => absurd hfreed hok.1, fun _ _ => nofun⟩
  rw [if_neg hfreed]
  cases hregions : ep.userRegions with
  | none => exact ⟨fun ⟨_, _, hsome, _⟩ => (nomatch hsome), fun _ _ => nofun⟩
  | some regions =>
      dsimp only
      by_cases hcreates : Creates id native regions
      · rw [if_pos hcreates]
        constructor
        · rintro ⟨-, _, hsome, hfits⟩
          cases hsome
          obtain ⟨segments, done, t', hgrant, hinv, hshaped⟩ := h.1.grantSegments (hfits hcreates)
          rw [hgrant]
          refine ⟨_, rfl, ?_, tidy_append h.2 hregions hcreates.2.2 hshaped⟩
          have hempties : Inv n (if done then grantEmpty empties t' else t')
              (segments ++ (ep.segments ++ segs)) (ep.claimed ++ queues) := by
            cases done with
            | false => exact hinv
            | true => exact hinv.grantEmpty empties
          refine hempties.perm ?_ (List.Perm.refl _)
          rw [segments_of_some hregions, segments_of_some rfl, List.flatMap_append,
            List.flatMap_cons, List.flatMap_nil, List.append_nil, ← List.append_assoc]
          exact List.perm_append_comm.append_right _
        · rintro hok r hr
          obtain ⟨r', hr', -⟩ := Option.map_eq_some_iff.1 hr
          exact absurd ⟨hfreed, regions, rfl, fun _ => segmentsFit_of_grantSegments hr'⟩ hok
      · rw [if_neg hcreates]
        exact ⟨fun _ => ⟨_, rfl, h⟩, fun hok =>
          absurd ⟨hfreed, regions, rfl, fun hcreates' => absurd hcreates' hcreates⟩ hok⟩

/-! ## Destroying a region -/

/-- When the release of a region, and its native destruction, keep the accounts. -/
structure RegionOk (id : ℕ) (env : DestroyEnv) (regions : List UserRegion) (region : UserRegion) :
    Prop where
  /-- it is not released a second time -/
  released : region.released = true → region.segments = []
  cookie : ∀ seg ∈ region.segments, seg.grefCookie ≠ none
  quiet : ∀ gref ∈ region.segments.flatMap UserRegionSegment.refs,
    env.atQuery gref = false ∧ env.atEnd gref = false
  /-- another region that the native destruction takes off the list has no references -/
  others : ∀ other ∈ regions, other.id ≠ id → env.uparam = some other.id →
    other.claimed.flatMap UserRegionSegment.refs = []

/-- When a destruction keeps the accounts. -/
def DestroyOk (id : ℕ) (env : DestroyEnv) (ep : Endpoint) : Prop :=
  (ep.status ≠ .freed ∧ id < omxUserRegionMax) ∧ ∃ regions, ep.userRegions = some regions ∧
    ∀ region, regions.find? (·.id = id) = some region → env.deregistered = true →
      RegionOk id env regions region

section
variable {id : ℕ} {env : DestroyEnv} {regions : List UserRegion} {region : UserRegion}

/-- The other regions that the native destruction takes off the list. -/
def dropped (env : DestroyEnv) (id : ℕ) (regions : List UserRegion) : List UserRegion :=
  regions.filter fun other => other.id ≠ id ∧ env.uparam = some other.id

/-- Those that stay. -/
def others (env : DestroyEnv) (id : ℕ) (regions : List UserRegion) : List UserRegion :=
  regions.filter fun other => other.id ≠ id ∧ env.uparam ≠ some other.id

theorem claimed_afterDestroy (env : DestroyEnv) (id : ℕ) (regions : List UserRegion) :
    (afterDestroy env id regions).flatMap UserRegion.claimed =
      (others env id regions).flatMap UserRegion.claimed := by
  unfold afterDestroy others
  induction regions with
  | nil => rfl
  | cons region regions ih =>
      rw [List.map_cons]
      by_cases hid : region.id = id <;> by_cases hparam : env.uparam = some region.id <;>
        simp_all [UserRegion.claimed]

/-- The regions of an endpoint: the one that is destroyed, those dropped, and the others. -/
theorem perm_regions (h : (regions.map UserRegion.id).Nodup)
    (hfind : regions.find? (·.id = id) = some region) :
    regions.Perm (region :: (dropped env id regions ++ others env id regions)) := by
  induction regions with
  | nil => cases hfind
  | cons first regions ih =>
      rw [List.map_cons, List.nodup_cons] at h
      by_cases hid : first.id = id
      · rw [List.find?_cons_of_pos (by simpa using hid)] at hfind
        cases hfind
        refine List.Perm.cons _ ?_
        have hne : ∀ other ∈ regions, other.id ≠ id := fun other hother heq =>
          h.1 (hid ▸ heq ▸ List.mem_map_of_mem hother)
        unfold dropped others
        rw [List.filter_cons_of_neg (by simp [hid]), List.filter_cons_of_neg (by simp [hid])]
        have hdrop : (regions.filter fun other => other.id ≠ id ∧ env.uparam = some other.id) =
            regions.filter fun other => env.uparam = some other.id :=
          List.filter_congr fun other hother => by simp [hne other hother]
        have hstay : (regions.filter fun other => other.id ≠ id ∧ env.uparam ≠ some other.id) =
            regions.filter fun other => ! decide (env.uparam = some other.id) :=
          List.filter_congr fun other hother => by simp [hne other hother]
        rw [hdrop, hstay]
        exact (List.filter_append_perm _ regions).symm
      · rw [List.find?_cons_of_neg (by simpa using hid)] at hfind
        refine ((ih h.2 hfind).cons first).trans
          ((List.Perm.swap _ _ _).trans (List.Perm.cons _ ?_))
        unfold dropped others
        by_cases hparam : env.uparam = some first.id
        · rw [List.filter_cons_of_pos (by simp [hid, hparam]),
            List.filter_cons_of_neg (by simp [hparam])]
          exact List.Perm.refl _
        · rw [List.filter_cons_of_neg (by simp [hparam]),
            List.filter_cons_of_pos (by simp [hid, hparam])]
          exact List.perm_middle.symm

theorem tidy_afterDestroy (h : ep.Tidy) (hregions : ep.userRegions = some regions) :
    ({ ep with userRegions := some (afterDestroy env id regions) } : Endpoint).Tidy where
  ids := by
    rintro _ hsome
    cases hsome
    have hmap : (regions.map fun region =>
        if region.id = id then { region with released := true } else region).map UserRegion.id =
        regions.map UserRegion.id := by
      rw [List.map_map]
      refine List.map_congr_left fun region _ => ?_
      show UserRegion.id (if region.id = id then _ else _) = _
      split <;> rfl
    have hnodup := h.ids regions hregions
    rw [← hmap] at hnodup
    exact hnodup.sublist (List.filter_sublist.map _)
  shaped := fun seg hseg => by
    rw [segments_of_some rfl, claimed_afterDestroy] at hseg
    obtain ⟨region, hregion, hmem⟩ := List.mem_flatMap.1 hseg
    refine h.shaped seg ?_
    rw [segments_of_some hregions]
    exact List.mem_flatMap.2 ⟨region, List.mem_of_mem_filter hregion, hmem⟩
  grefs := h.grefs

/-- The references of the regions that are dropped. -/
theorem dropped_eq_nil :
    ((dropped env id regions).flatMap UserRegion.claimed).flatMap UserRegionSegment.refs = [] ↔
      ∀ other ∈ regions, other.id ≠ id → env.uparam = some other.id →
        other.claimed.flatMap UserRegionSegment.refs = [] := by
  rw [List.flatMap_assoc, List.flatMap_eq_nil_iff]
  unfold dropped
  constructor
  · intro h other hother hid hparam
    exact h other (List.mem_filter.2 ⟨hother, decide_eq_true ⟨hid, hparam⟩⟩)
  · intro h other hother
    obtain ⟨hmem, hkeep⟩ := List.mem_filter.1 hother
    obtain ⟨hid, hparam⟩ := of_decide_eq_true hkeep
    exact h other hmem hid hparam

/-- What is released is what the region has claimed. -/
theorem claimed_of_released (h : region.released = true → region.segments = []) :
    region.claimed = region.segments := by
  unfold UserRegion.claimed
  split
  · exact (h ‹_›).symm
  · rfl

/-- The region that is found, and that the backend has deregistered. -/
theorem destroy_sound (env : DestroyEnv) (h : Kept n segs queues (t, ep))
    (hregions : ep.userRegions = some regions) (hfind : regions.find? (·.id = id) = some region) :
    (RegionOk id env regions region →
      ∃ t', env.releaseSegments region.segments t = some t' ∧
        Inv n t' ((others env id regions).flatMap UserRegion.claimed ++ segs)
          (ep.claimed ++ queues)) ∧
    (¬ RegionOk id env regions region → (region.released = true → region.segments = []) →
      ∀ t', env.releaseSegments region.segments t = some t' →
        ∃ gref, t'.access gref ≠ .ended ∧
          gref ∉ ((others env id regions).flatMap UserRegion.claimed ++ segs).flatMap
            UserRegionSegment.refs ++ (ep.claimed ++ queues)) := by
  have hids := h.2.ids regions hregions
  have hinv : Inv n t (region.claimed ++ ((dropped env id regions).flatMap UserRegion.claimed ++
      ((others env id regions).flatMap UserRegion.claimed ++ segs))) (ep.claimed ++ queues) := by
    refine h.1.perm ?_ (List.Perm.refl _)
    have hperm : regions.Perm (region :: (dropped env id regions ++ others env id regions)) :=
      perm_regions hids hfind
    have hclaimed := (hperm.flatMap_right UserRegion.claimed).append_right segs
    rw [List.flatMap_cons, List.flatMap_append] at hclaimed
    rw [segments_of_some hregions]
    simpa only [List.append_assoc] using hclaimed
  constructor
  · rintro ⟨hreleased, hcookie, hquiet, hothers⟩
    rw [claimed_of_released hreleased] at hinv
    have hfull : ∀ seg ∈ region.segments, seg.Full := fun seg hseg => by
      have hmem : seg ∈ ep.segments := by
        rw [segments_of_some hregions]
        refine List.mem_flatMap.2 ⟨region, List.mem_of_find?_eq_some hfind, ?_⟩
        rwa [claimed_of_released hreleased]
      exact (h.2.shaped seg hmem).resolve_right (hcookie seg hseg)
    obtain ⟨t', ht', h'⟩ := hinv.releaseSegments hfull hquiet
    exact ⟨t', ht', h'.of_append (dropped_eq_nil.2 hothers)⟩
  · rintro hok hreleased t' ht'
    rw [claimed_of_released hreleased] at hinv
    have haccess := DestroyEnv.access_releaseSegments ht'
    by_cases hquiet : ∀ gref ∈ region.segments.flatMap UserRegionSegment.refs,
        env.atQuery gref = false ∧ env.atEnd gref = false
    · -- another region goes without a release
      have hdropped : ((dropped env id regions).flatMap UserRegion.claimed).flatMap
          UserRegionSegment.refs ≠ [] := fun hnil => hok
        { released := hreleased
          cookie := fun seg hseg => (DestroyEnv.full_of_releaseSegments ht' seg hseg).1
          quiet := hquiet
          others := dropped_eq_nil.1 hnil }
      obtain ⟨gref, hgref⟩ := List.exists_mem_of_ne_nil _ hdropped
      have hfirst := hinv.perm (List.perm_append_comm_assoc _ _ _) (List.Perm.refl _)
      have hnot := hfirst.notMem_of_mem_left hgref
      rw [List.flatMap_append, List.append_assoc, List.mem_append, not_or] at hnot
      refine ⟨gref, ?_, hnot.2⟩
      rw [haccess, if_neg hnot.1]
      exact hfirst.access_of_mem hgref
    · -- the backend has a page of it mapped
      obtain ⟨gref, hgref, hmapped⟩ : ∃ gref ∈ region.segments.flatMap UserRegionSegment.refs,
          env.atQuery gref = true ∨ env.atEnd gref = true := by
        by_contra hnone
        refine hquiet fun gref hgref => ?_
        by_contra hne
        refine hnone ⟨gref, hgref, ?_⟩
        cases hquery : env.atQuery gref <;> cases hend : env.atEnd gref <;> simp_all
      have hnot := hinv.notMem_of_mem_left hgref
      refine ⟨gref, ?_, fun hmem => hnot ?_⟩
      · rw [haccess, if_pos hgref, DestroyEnv.after, if_pos hmapped]
        exact nofun
      · rw [List.flatMap_append, List.append_assoc]
        exact List.mem_append_right _ hmem

end

theorem destroyUserRegion_sound (id : ℕ) (env : DestroyEnv) :
    Sound (destroyUserRegion id env) (fun _ => DestroyOk id env) := by
  intro n t ep segs queues h
  show (DestroyOk id env ep → _) ∧ (¬ DestroyOk id env ep → _)
  unfold destroyUserRegion DestroyOk
  by_cases hwild : ep.status = .freed ∨ omxUserRegionMax ≤ id
  · rw [if_pos hwild]
    refine ⟨fun hok => ?_, fun _ _ => nofun⟩
    rcases hwild with hfreed | hmax
    · exact absurd hfreed hok.1.1
    · exact absurd hok.1.2 (Nat.not_lt.2 hmax)
  have hsane : ep.status ≠ .freed ∧ id < omxUserRegionMax :=
    ⟨fun hfreed => hwild (.inl hfreed), Nat.lt_of_not_le fun hmax => hwild (.inr hmax)⟩
  rw [if_neg hwild]
  cases hregions : ep.userRegions with
  | none => exact ⟨fun ⟨_, _, hsome, _⟩ => (nomatch hsome), fun _ _ => nofun⟩
  | some regions =>
      dsimp only
      cases hfind : regions.find? (·.id = id) with
      | none =>
          refine ⟨fun _ => ⟨_, rfl, h⟩, fun hok => absurd ⟨hsane, regions, rfl, ?_⟩ hok⟩
          intro region hregion
          rw [hfind] at hregion
          cases hregion
      | some region =>
          dsimp only
          cases hanswer : env.deregistered with
          | false =>
              rw [if_pos rfl]
              exact ⟨fun _ => ⟨_, rfl, h⟩, fun hok =>
                absurd ⟨hsane, regions, rfl, fun _ _ => nofun⟩ hok⟩
          | true =>
              have hiff : (∃ regions', some regions = some regions' ∧
                  ∀ region, regions'.find? (·.id = id) = some region → true = true →
                    RegionOk id env regions' region) ↔ RegionOk id env regions region := by
                constructor
                · rintro ⟨_, hsome, hok⟩
                  cases hsome
                  exact hok region hfind rfl
                · intro hok
                  refine ⟨regions, rfl, fun region' hfind' _ => ?_⟩
                  cases hfind.symm.trans hfind'
                  exact hok
              rw [hiff, and_iff_right hsane, if_neg (by exact nofun)]
              obtain ⟨hkept, hlost⟩ := destroy_sound env h hregions hfind
              constructor
              · intro hok
                obtain ⟨t', ht', hinv⟩ := hkept hok
                rw [if_neg fun hagain => hagain.2 (hok.released hagain.1), ht']
                refine ⟨_, rfl, ?_, tidy_afterDestroy h.2 hregions⟩
                rw [segments_of_some rfl, claimed_afterDestroy]
                exact hinv
              · intro hok r hr
                by_cases hagain : region.released = true ∧ region.segments ≠ []
                · rw [if_pos hagain] at hr
                  cases hr
                · rw [if_neg hagain] at hr
                  obtain ⟨t', ht', rfl⟩ := Option.map_eq_some_iff.1 hr
                  have hreleased : region.released = true → region.segments = [] := fun hreleased =>
                    not_not.1 fun hne => hagain ⟨hreleased, hne⟩
                  obtain ⟨gref, hgref, hnot⟩ := hlost hok hreleased t' ht'
                  refine ⟨gref, hgref, ?_⟩
                  rw [segments_of_some rfl, claimed_afterDestroy]
                  exact hnot

end Endpoint

/-! ## Runs -/

namespace Frontend

variable {n : ℕ} {fe : Frontend}

/-- The accounts, and what holds of each endpoint. -/
def Good (n : ℕ) (fe : Frontend) : Prop :=
  Inv n fe.toTable fe.segments (fe.endpoints.flatMap Endpoint.claimed) ∧
    ∀ ep ∈ fe.endpoints, ep.Tidy

theorem Good.accounted (h : Good n fe) : Accounted n fe where
  recorded := h.1.recorded
  unused := fun _ hk => claimedFrom_of_notMem (h.1.notMem_users hk)
  once := h.1.once
  access := h.1.access

/-- The accounts are right; nothing is right any more after a wild pointer. -/
def Fact (n : ℕ) (s : Option Frontend) : Prop := ∃ fe, s = some fe ∧ Accounted n fe

/-- An operation on an endpoint of the list. -/
theorem onEndpoint_sound (h : Good n fe) {op : Table → Endpoint → Option (Table × Endpoint)}
    {ok : Table → Endpoint → Prop} (hop : Sound op ok) (e : ℕ) :
    ((∀ ep, fe.endpoints[e]? = some ep → ok fe.toTable ep) →
      ∀ s, fe.onEndpoint e op = some s → ∃ fe', s = some fe' ∧ Good n fe') ∧
    (¬ (∀ ep, fe.endpoints[e]? = some ep → ok fe.toTable ep) →
      ∃ s, fe.onEndpoint e op = some s ∧ ¬ Fact n s) := by
  unfold onEndpoint
  cases hget : fe.endpoints[e]? with
  | none => exact ⟨fun _ _ => nofun, fun hok => absurd nofun hok⟩
  | some ep =>
      obtain ⟨he, rfl⟩ := List.getElem?_eq_some_iff.1 hget
      have hold := (List.getElem_cons_eraseIdx_perm he).symm
      have hkept : Kept n ((fe.endpoints.eraseIdx e).flatMap Endpoint.segments)
          ((fe.endpoints.eraseIdx e).flatMap Endpoint.claimed) (fe.toTable, fe.endpoints[e]) :=
        ⟨h.1.perm (hold.flatMap_right _) (hold.flatMap_right _), h.2 _ (List.getElem_mem he)⟩
      obtain ⟨hpos, hneg⟩ := hop _ _ _ _ _ hkept
      constructor
      · intro hok s hs
        obtain ⟨⟨t', ep'⟩, hr, hinv, htidy⟩ := hpos (hok _ rfl)
        have hnew := (List.set_perm_cons_eraseIdx he ep').symm
        rw [Option.map_some, hr] at hs
        cases hs
        refine ⟨_, rfl, hinv.perm (hnew.flatMap_right _) (hnew.flatMap_right _), fun ep hep => ?_⟩
        rcases List.mem_or_eq_of_mem_set hep with hep | rfl
        · exact h.2 ep hep
        · exact htidy
      · intro hok
        have hbad : ¬ ok fe.toTable fe.endpoints[e] := fun hgood => hok fun ep hep => by
          cases hep
          exact hgood
        refine ⟨_, rfl, ?_⟩
        rintro ⟨fe', hfe', haccounted⟩
        obtain ⟨⟨t', ep'⟩, hr, rfl⟩ := Option.map_eq_some_iff.1 hfe'
        obtain ⟨gref, hgref, hnot⟩ := hneg hbad _ hr
        have hnew := List.set_perm_cons_eraseIdx he ep'
        refine hnot ((((hnew.flatMap_right Endpoint.segments).flatMap_right _).append
          (hnew.flatMap_right Endpoint.claimed)).mem_iff.1 ?_)
        exact (haccounted.access gref).1 hgref

/-- The entry of a page that the backend maps or unmaps. -/
theorem Good.setAccess (h : Good n fe) {gref : ℕ} {a : Access} (hne : fe.access gref ≠ .ended)
    (ha : a ≠ .ended) : Good n { fe with toTable := fe.setAccess gref a } := by
  refine ⟨{ h.1 with access := fun gref' => ?_ }, h.2⟩
  show (fe.setAccess gref a).access gref' ≠ .ended ↔ _
  rw [Table.access_setAccess]
  by_cases heq : gref' = gref
  · subst gref'
    rw [Function.update_self]
    exact iff_of_true ha ((h.1.access gref).1 hne)
  · rw [Function.update_of_ne heq]
    exact h.1.access gref'

/-- A file that is opened. -/
theorem Good.openFile (h : Good n fe) :
    Good n { fe with endpoints := fe.endpoints ++ [.new] } := by
  constructor
  · show Inv n fe.toTable ((fe.endpoints ++ [Endpoint.new]).flatMap Endpoint.segments)
      ((fe.endpoints ++ [Endpoint.new]).flatMap Endpoint.claimed)
    rw [List.flatMap_append, List.flatMap_append]
    exact h.1.perm (List.Perm.of_eq (List.append_nil _).symm)
      (List.Perm.of_eq (List.append_nil _).symm)
  · intro ep hep
    rcases List.mem_append.1 hep with hep | hep
    · exact h.2 ep hep
    · cases List.mem_singleton.1 hep
      exact Endpoint.tidy_of_none nofun

theorem good_connected (n : ℕ) : Good n (.connected n) := by
  refine ⟨⟨nofun, List.nodup_nil, nofun, ?_, fun gref => ?_⟩, nofun⟩
  · show (List.range n ++ [] ++ ([] ++ [])).Perm _
    rw [List.append_nil, List.append_nil, List.append_nil]
  · exact iff_of_false (fun hne => hne rfl) (List.not_mem_nil)

/-- The condition on a step: for the operations of the backend there is none. -/
def Ok (pages : ℕ) : Option Frontend → Action → Prop
  | some fe, .openEndpoint e env =>
      ∀ ep, fe.endpoints[e]? = some ep → ep.OpenOk pages env fe.toTable
  | some fe, .closeEndpoint e answered atEnd =>
      ∀ ep, fe.endpoints[e]? = some ep → ep.CloseOk answered atEnd
  | some fe, .releaseFile e _ => ∀ ep, fe.endpoints[e]? = some ep → ep.ReleaseOk
  | some fe, .createUserRegion e id native sizes _ =>
      ∀ ep, fe.endpoints[e]? = some ep → ep.CreateOk id native sizes fe.toTable
  | some fe, .destroyUserRegion e id env => ∀ ep, fe.endpoints[e]? = some ep → ep.DestroyOk id env
  | _, _ => True

/-- Where the condition is met the accounts are kept, and where it is missed they are wrong. -/
theorem Good.step (h : Good n fe) (pages : ℕ) (a : Action) :
    (Ok pages (some fe) a →
      ∀ s, Frontend.step pages (some fe) a = some s → ∃ fe', s = some fe' ∧ Good n fe') ∧
    (¬ Ok pages (some fe) a → ∃ s, Frontend.step pages (some fe) a = some s ∧ ¬ Fact n s) := by
  cases a with
  | openFile =>
      refine ⟨fun _ s hs => ?_, fun hok => absurd trivial hok⟩
      cases hs
      exact ⟨_, rfl, h.openFile⟩
  | openEndpoint e env => exact onEndpoint_sound h (Endpoint.openEndpoint_sound pages env) e
  | closeEndpoint e answered atEnd =>
      exact onEndpoint_sound h (Endpoint.closeEndpoint_sound answered atEnd) e
  | releaseFile e answered => exact onEndpoint_sound h (Endpoint.releaseFile_sound answered) e
  | createUserRegion e id native sizes empties =>
      exact onEndpoint_sound h (Endpoint.createUserRegion_sound id native sizes empties) e
  | destroyUserRegion e id env =>
      exact onEndpoint_sound h (Endpoint.destroyUserRegion_sound id env) e
  | map gref =>
      refine ⟨fun _ s hs => ?_, fun hok => absurd trivial hok⟩
      rw [Frontend.step] at hs
      split at hs
      · rename_i hgranted
        cases hs
        exact ⟨_, rfl, h.setAccess (by rw [hgranted]; exact nofun) nofun⟩
      · cases hs
  | unmap gref =>
      refine ⟨fun _ s hs => ?_, fun hok => absurd trivial hok⟩
      rw [Frontend.step] at hs
      split at hs
      · rename_i hmapped
        cases hs
        exact ⟨_, rfl, h.setAccess (by rw [hmapped]; exact nofun) nofun⟩
      · cases hs

end Frontend

/-- The references of a guest are accounted for in every state that a run goes through, exactly when
each of its steps meets its condition. -/
theorem accounted_iff (grefs pages : ℕ) (as : List Action) :
    (∀ bs, bs <+: as → ∀ s, (frontend grefs pages).exec (frontend grefs pages).init bs = some s →
        ∃ fe, s = some fe ∧ Accounted grefs fe) ↔
      (frontend grefs pages).Meets (Frontend.Ok pages) (frontend grefs pages).init as := by
  refine (Machine.meets_iff_forall_prefix
    (I := fun s => ∃ fe, s = some fe ∧ Frontend.Good grefs fe) ?_ ?_ ?_
    ⟨_, rfl, Frontend.good_connected grefs⟩).symm
  · rintro _ a s' ⟨fe, rfl, hgood⟩ hok hs
    exact (hgood.step pages a).1 hok s' hs
  · rintro _ ⟨fe, rfl, hgood⟩
    exact ⟨fe, rfl, hgood.accounted⟩
  · rintro _ a ⟨fe, rfl, hgood⟩
    obtain ⟨hpos, hneg⟩ := hgood.step pages a
    constructor
    · intro hok s' hs'
      obtain ⟨fe', rfl, hgood'⟩ := hpos hok s' hs'
      exact ⟨fe', rfl, hgood'.accounted⟩
    · intro hfact
      by_contra hok
      obtain ⟨s', hs', hnot⟩ := hneg hok
      exact hnot (hfact s' hs')

/-- An endpoint is opened, a region with one page and one empty segment is created and destroyed,
and the endpoint is closed. -/
example : (frontend 9 4).Meets (Frontend.Ok 4) (frontend 9 4).init
    [.openFile, .openEndpoint 0 ⟨true, true, .done⟩,
      .createUserRegion 0 7 true [(1, ⟨true, true⟩)] [true],
      .destroyUserRegion 0 7 ⟨true, fun _ => false, fun _ => false, some 7⟩,
      .closeEndpoint 0 true fun _ => false] := by
  refine ⟨trivial, fun s hs => ?_⟩
  cases hs
  refine ⟨?_, fun s hs => ?_⟩
  · rintro ep ⟨⟩
    exact ⟨nofun, fun _ _ => ⟨rfl, fun _ _ => nofun⟩⟩
  cases hs
  refine ⟨?_, fun s hs => ?_⟩
  · rintro ep ⟨⟩
    exact ⟨nofun, [], rfl, fun _ => ⟨by decide, fun _ _ _ => trivial⟩⟩
  cases hs
  refine ⟨?_, fun s hs => ?_⟩
  · rintro ep ⟨⟩
    refine ⟨⟨nofun, by decide⟩, _, rfl, fun region hregion _ => ?_⟩
    cases hregion
    exact ⟨by decide, by decide, by decide, by decide⟩
  cases hs
  refine ⟨?_, fun s hs => trivial⟩
  rintro ep ⟨⟩
  exact ⟨nofun, fun _ _ => ⟨rfl, fun _ _ => rfl⟩⟩

/-- The backend refuses to open an endpoint, because another has its number: the references for its
queues stay granted, and nobody has them. -/
theorem not_accounted_refused :
    ∃ fe, (frontend 9 4).exec (frontend 9 4).init
        [.openFile, .openEndpoint 0 ⟨true, true, .refused⟩] = some (some fe) ∧
      ¬ Accounted 9 fe :=
  ⟨_, rfl, fun h => absurd ((h.access 0).1 (by decide)) (by decide)⟩

end Xen2mx.Grants
