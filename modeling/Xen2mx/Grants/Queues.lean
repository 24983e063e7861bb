/-
# `Xen2mx.Grants.Queues` — the references of the queues of an endpoint

An operation sees one endpoint; the segments of the others, and the references of their queues, stay
as they are.  It keeps the accounts exactly under a condition on the endpoint, the table and what
happens on the way (`Sound`): where the condition is missed, there is a reference that the backend
may still use and that nobody holds any more, or the operation goes through a wild pointer.

    open       the endpoint is not freed, none of its regions has references, and if it gets its
               references the backend does not refuse
    close      it is not freed, none of its regions has references, and the backend has none of
               its pages mapped
    release    the same, for one that is not open; it is missed by all that are

**Proved here.**

    each operation keeps the accounts exactly under its condition
        (`openEndpoint_sound`, `closeEndpoint_sound`, `releaseFile_sound`)
-/
import Xen2mx.Grants.Conserved

namespace Xen2mx.Grants

/-! ## One endpoint -/

/-- What holds of an endpoint by itself. -/
structure Endpoint.Tidy (ep : Endpoint) : Prop where
  /-- a region has a place of its own in the array -/
  ids : ∀ regions, ep.userRegions = some regions → (regions.map UserRegion.id).Nodup
  shaped : ∀ seg ∈ ep.segments, Shaped seg
  grefs : ep.status = .ok → ep.grefs ≠ []

/-- The accounts, with one endpoint apart from the segments and the references of the others. -/
def Kept (n : ℕ) (segs : List UserRegionSegment) (queues : List ℕ) (r : Table × Endpoint) : Prop :=
  Inv n r.1 (r.2.segments ++ segs) (r.2.claimed ++ queues) ∧ r.2.Tidy

/-- The backend may map a page by a reference that nobody holds. -/
def Lost (segs : List UserRegionSegment) (queues : List ℕ) (r : Table × Endpoint) : Prop :=
  ∃ gref, r.1.access gref ≠ .ended ∧
    gref ∉ (r.2.segments ++ segs).flatMap UserRegionSegment.refs ++ (r.2.claimed ++ queues)

/-- An operation keeps the accounts exactly under a condition. -/
def Sound (op : Table → Endpoint → Option (Table × Endpoint)) (ok : Table → Endpoint → Prop) :
    Prop :=
  ∀ n t ep segs queues, Kept n segs queues (t, ep) →
    (ok t ep → ∃ r, op t ep = some r ∧ Kept n segs queues r) ∧
    (¬ ok t ep → ∀ r, op t ep = some r → Lost segs queues r)

/-- None of the regions has references. -/
def Endpoint.Empty (ep : Endpoint) : Prop := ep.segments.flatMap UserRegionSegment.refs = []

namespace Inv

variable {n m gref : ℕ} {t : Table} {segs segs' : List UserRegionSegment} {queues : List ℕ}

theorem notMem_of_mem_left (h : Inv n t (segs' ++ segs) queues)
    (hgref : gref ∈ segs'.flatMap UserRegionSegment.refs) :
    gref ∉ segs.flatMap UserRegionSegment.refs ++ queues := fun hmem => by
  have hnodup := h.nodup
  rw [List.flatMap_append, List.append_assoc] at hnodup
  exact (List.nodup_append.1 hnodup).2.2 gref hgref gref hmem rfl

theorem notMem_of_mem_queues {queues' : List ℕ} (h : Inv n t segs (queues' ++ queues))
    (hgref : gref ∈ queues') : gref ∉ segs.flatMap UserRegionSegment.refs ++ queues := by
  intro hmem
  have hperm : (segs.flatMap UserRegionSegment.refs ++ (queues' ++ queues)).Perm
      (queues' ++ (segs.flatMap UserRegionSegment.refs ++ queues)) := by
    rw [← List.append_assoc, ← List.append_assoc]
    exact List.perm_append_comm.append_right _
  exact (List.nodup_append.1 (hperm.nodup_iff.1 h.nodup)).2.2 gref hgref gref hmem rfl

theorem access_of_mem (h : Inv n t (segs' ++ segs) queues)
    (hgref : gref ∈ segs'.flatMap UserRegionSegment.refs) : t.access gref ≠ .ended := by
  rw [h.access, List.flatMap_append, List.append_assoc]
  exact List.mem_append_left _ hgref

theorem notMem_of_mem_pool (h : Inv n t segs queues) (hgref : gref ∈ t.pool) :
    gref ∉ segs.flatMap UserRegionSegment.refs ++ queues := fun hmem => by
  have hnodup := h.once.nodup_iff.2 List.nodup_range
  exact (List.nodup_append.1 hnodup).2.2 gref (List.mem_append_left _ hgref) gref hmem rfl

/-- References of the pool are claimed and granted for the queues of an endpoint. -/
theorem takeGrefs (h : Inv n t segs queues) (m : ℕ) :
    Inv n (t.takeGrefs m) segs (t.pool.take m ++ queues) where
  recorded := h.recorded
  users := h.users
  inuse := h.inuse
  once := by
    refine List.Perm.trans (List.perm_iff_count.2 fun gref => ?_) h.once
    have hpool : (t.pool.take m ++ t.pool.drop m).count gref = t.pool.count gref := by
      rw [List.take_append_drop]
    show ((t.pool.drop m) ++ t.cookies.chains ++ _).count gref = _
    simp only [List.count_append] at hpool ⊢
    omega
  access := fun gref => by
    have haccess := h.access gref
    rw [List.mem_append] at haccess
    rw [Table.access_takeGrefs, List.mem_append, List.mem_append]
    by_cases hgref : gref ∈ t.pool.take m
    · rw [if_pos hgref]
      exact iff_of_true nofun (.inr (.inl hgref))
    · rw [if_neg hgref, or_iff_right hgref]
      exact haccess

/-- The access by a reference of a queue is ended, and the reference goes to the pool. -/
theorem releaseQueue (h : Inv n t segs (gref :: queues)) :
    Inv n { t.setAccess gref .ended with pool := gref :: t.pool } segs queues where
  recorded := h.recorded
  users := h.users
  inuse := h.inuse
  once := by
    refine List.Perm.trans (List.perm_iff_count.2 fun gref' => ?_) h.once
    simp only [List.count_append, List.count_cons]
    show _ + t.cookies.chains.count gref' + _ = _ + t.cookies.chains.count gref' + _
    omega
  access := fun gref' => by
    have hperm : (segs.flatMap UserRegionSegment.refs ++ (gref :: queues)).Perm
        (gref :: (segs.flatMap UserRegionSegment.refs ++ queues)) := List.perm_middle
    show Function.update t.access gref .ended gref' ≠ .ended ↔ _
    by_cases heq : gref' = gref
    · subst gref'
      rw [Function.update_self]
      exact iff_of_false (fun hne => hne rfl)
        (List.nodup_cons.1 (hperm.nodup_iff.1 h.nodup)).1
    · rw [Function.update_of_ne heq, h.access gref', hperm.mem_iff, List.mem_cons,
        or_iff_right heq]

/-- The loops of `omx_xen_endpoint_ungrant_resources`, if the backend has nothing mapped. -/
theorem foldl_ungrant {atEnd : ℕ → Bool} {grefs chain : List ℕ}
    (hquiet : ∀ gref ∈ grefs, atEnd gref = false)
    (h : Inv n { t with pool := chain ++ t.pool } segs (grefs ++ queues)) :
    ∃ t' chain', grefs.foldl (Endpoint.ungrant atEnd) (t, chain) = (t', chain') ∧
      Inv n { t' with pool := chain' ++ t'.pool } segs queues := by
  induction grefs generalizing t chain with
  | nil => exact ⟨t, chain, rfl, h⟩
  | cons gref grefs ih =>
      have hstep : Endpoint.ungrant atEnd (t, chain) gref =
          (t.setAccess gref .ended, gref :: chain) := by
        rw [Endpoint.ungrant, hquiet gref List.mem_cons_self]
        rfl
      rw [List.foldl_cons, hstep]
      exact ih (fun gref' hgref' => hquiet gref' (List.mem_cons_of_mem _ hgref')) h.releaseQueue

end Inv

namespace Endpoint

variable {n : ℕ} {t t' : Table} {ep ep' : Endpoint} {segs : List UserRegionSegment}
  {queues : List ℕ}

theorem tidy_of_nil {status : EndpointStatus} {grefs : List ℕ} (h : status = .ok → grefs ≠ []) :
    (Endpoint.mk status grefs (some [])).Tidy where
  ids := by
    rintro regions hregions
    cases hregions
    exact List.nodup_nil
  shaped := nofun
  grefs := h

theorem tidy_of_none {status : EndpointStatus} {grefs : List ℕ} (h : status ≠ .ok) :
    (Endpoint.mk status grefs none).Tidy where
  ids := nofun
  shaped := nofun
  grefs := fun hok => absurd hok h

theorem claimed_of_free (h : ep.status = .free) : ep.claimed = [] :=
  if_neg (by rw [h]; exact nofun)

theorem claimed_of_open (h : ep.status = .initializing ∨ ep.status = .ok) : ep.claimed = ep.grefs :=
  if_pos h

/-- A region with references that goes with its endpoint. -/
theorem lost_of_regions (h : Kept n segs queues (t, ep)) (hempty : ¬ ep.Empty)
    (hsegments : ep'.segments = [])
    (haccess : ∀ gref ∈ ep.segments.flatMap UserRegionSegment.refs,
      t'.access gref ≠ .ended ∧ gref ∉ ep'.claimed) : Lost segs queues (t', ep') := by
  obtain ⟨gref, hgref⟩ := List.exists_mem_of_ne_nil _ hempty
  obtain ⟨hgranted, hclaimed⟩ := haccess gref hgref
  have hnot := h.1.notMem_of_mem_left hgref
  refine ⟨gref, hgranted, ?_⟩
  rw [hsegments, List.nil_append]
  simp only [List.mem_append, not_or] at hnot ⊢
  exact ⟨hnot.1, hclaimed, hnot.2.2⟩

/-! ## Opening and closing -/

/-- When an opening keeps the accounts. -/
def OpenOk (pages : ℕ) (env : OpenEnv) (t : Table) (ep : Endpoint) : Prop :=
  ep.status ≠ .freed ∧ (ep.status = .free → env.resources = true →
    ep.Empty ∧ (env.lists = true → pages + 3 ≤ t.pool.length → env.answer ≠ .refused))

section
variable {m : ℕ} {answer : Answer}

/-- An endpoint with its references, unless the backend refuses. -/
theorem kept_opened (h : Inv n t segs queues) (hm : m + 1 ≤ t.pool.length)
    (hanswer : answer ≠ .refused) :
    Kept n segs queues (t.takeGrefs (m + 1), ⟨answer.status, t.pool.take (m + 1), some []⟩) := by
  refine ⟨?_, tidy_of_nil fun _ hnil => ?_⟩
  · cases answer with
    | none => exact h.takeGrefs (m + 1)
    | refused => exact absurd rfl hanswer
    | done => exact h.takeGrefs (m + 1)
  · have hlength := List.length_take_of_le hm
    rw [hnil] at hlength
    exact Nat.zero_ne_add_one m hlength

/-- The references of an endpoint that the backend refuses. -/
theorem lost_refused (h : Inv n t segs queues) (hm : m + 1 ≤ t.pool.length) :
    Lost segs queues
      (t.takeGrefs (m + 1), ⟨Answer.refused.status, t.pool.take (m + 1), some []⟩) := by
  have hne : t.pool.take (m + 1) ≠ [] := fun hnil => by
    have hlength := List.length_take_of_le hm
    rw [hnil] at hlength
    exact Nat.zero_ne_add_one m hlength
  obtain ⟨gref, hgref⟩ := List.exists_mem_of_ne_nil _ hne
  refine ⟨gref, ?_, h.notMem_of_mem_pool (List.mem_of_mem_take hgref)⟩
  rw [Table.access_takeGrefs, if_pos hgref]
  exact nofun

/-- The regions of an endpoint that is opened once more. -/
theorem lost_opened (h : Kept n segs queues (t, ep)) (hempty : ¬ ep.Empty) :
    Lost segs queues (t.takeGrefs m, ⟨answer.status, t.pool.take m, some []⟩) := by
  refine lost_of_regions h hempty rfl fun gref hgref => ?_
  have hheld : gref ∈ (ep.segments ++ segs).flatMap UserRegionSegment.refs ++
      (ep.claimed ++ queues) := by
    rw [List.flatMap_append]
    exact List.mem_append_left _ (List.mem_append_left _ hgref)
  have hpool : gref ∉ t.pool.take m := fun hmem =>
    h.1.notMem_of_mem_pool (List.mem_of_mem_take hmem) hheld
  constructor
  · rw [Table.access_takeGrefs, if_neg hpool]
    exact h.1.access_of_mem hgref
  · unfold claimed
    split
    · exact hpool
    · exact List.not_mem_nil

end

theorem openEndpoint_sound (pages : ℕ) (env : OpenEnv) :
    Sound (openEndpoint pages env) (OpenOk pages env) := by
  intro n t ep segs queues h
  unfold openEndpoint OpenOk
  cases hstatus : ep.status with
  | freed => exact ⟨fun hok => absurd rfl hok.1, fun _ _ => nofun⟩
  | initializing => exact ⟨fun _ => ⟨_, rfl, h⟩, fun hok => absurd ⟨nofun, nofun⟩ hok⟩
  | ok => exact ⟨fun _ => ⟨_, rfl, h⟩, fun hok => absurd ⟨nofun, nofun⟩ hok⟩
  | free =>
      have hinv : Inv n t (ep.segments ++ segs) queues := by
        have hinv := h.1
        rwa [claimed_of_free hstatus] at hinv
      cases hresources : env.resources with
      | false => exact ⟨fun _ => ⟨_, rfl, h⟩, fun hok => absurd ⟨nofun, fun _ => nofun⟩ hok⟩
      | true =>
          dsimp only
          rw [if_pos rfl]
          by_cases hget : env.lists = true ∧ pages + 3 ≤ t.pool.length
          · rw [if_pos hget]
            constructor
            · rintro ⟨-, hok⟩
              obtain ⟨hempty, hanswer⟩ := hok rfl rfl
              exact ⟨_, rfl, kept_opened (hinv.of_append hempty) hget.2 (hanswer hget.1 hget.2)⟩
            · rintro hok r hr
              cases hr
              by_cases hempty : ep.Empty
              · have hanswer : env.answer = .refused := by
                  by_contra hne
                  exact hok ⟨nofun, fun _ _ => ⟨hempty, fun _ _ => hne⟩⟩
                rw [hanswer]
                exact lost_refused (hinv.of_append hempty) hget.2
              · exact lost_opened h hempty
          · -- the resources are freed again, and with them the list of the regions
            rw [if_neg hget]
            constructor
            · rintro ⟨-, hok⟩
              exact ⟨_, rfl, hinv.of_append (hok rfl rfl).1, tidy_of_nil nofun⟩
            · rintro hok r hr
              cases hr
              have hempty : ¬ ep.Empty := fun hempty =>
                hok ⟨nofun, fun _ _ => ⟨hempty, fun hlists hpool => absurd ⟨hlists, hpool⟩ hget⟩⟩
              exact lost_of_regions h hempty rfl fun gref hgref =>
                ⟨hinv.access_of_mem hgref, List.not_mem_nil⟩

/-- When a closing keeps the accounts. -/
def CloseOk (answered : Bool) (atEnd : ℕ → Bool) (ep : Endpoint) : Prop :=
  ep.status ≠ .freed ∧ (ep.status ≠ .free → answered = true →
    ep.Empty ∧ ∀ gref ∈ ep.grefs, atEnd gref = false)

theorem perm_drop_take (grefs : List ℕ) : (grefs.drop 3 ++ grefs.take 3).Perm grefs := by
  refine List.perm_append_comm.trans ?_
  rw [List.take_append_drop]

/-- What the entries of the grant table are after a closing. -/
theorem access_ungrantResources (atEnd : ℕ → Bool) (t : Table) (ep : Endpoint) (gref : ℕ) :
    (ungrantResources atEnd t ep).access gref =
      if gref ∈ ep.grefs then if atEnd gref = true then .mapped else .ended
      else t.access gref := by
  have hop : ∀ (s : Table × List ℕ) gref, (ungrant atEnd s gref).1.access =
      Function.update s.1.access gref (if atEnd gref = true then .mapped else .ended) :=
    fun _ _ => rfl
  have hfold := access_foldl (a := fun s : Table × List ℕ => s.1.access) hop
    (ep.grefs.drop 3 ++ ep.grefs.take 3) (t, []) gref
  simp only [(perm_drop_take ep.grefs).mem_iff] at hfold
  exact hfold

/-- With nothing mapped, all references are back in the pool. -/
theorem inv_ungrantResources {atEnd : ℕ → Bool} (h : Inv n t segs (ep.grefs ++ queues))
    (hquiet : ∀ gref ∈ ep.grefs, atEnd gref = false) :
    Inv n (ungrantResources atEnd t ep) segs queues := by
  have hperm := perm_drop_take ep.grefs
  have hstart : Inv n { t with pool := [] ++ t.pool } segs
      (ep.grefs.drop 3 ++ ep.grefs.take 3 ++ queues) :=
    h.perm (List.Perm.refl _) (hperm.symm.append_right _)
  obtain ⟨t', chain', hfold, h'⟩ := Inv.foldl_ungrant
    (fun gref hgref => hquiet gref (hperm.mem_iff.1 hgref)) hstart
  unfold ungrantResources
  rw [hfold]
  exact h'

/-- The closing of an endpoint that is open, and that the backend closes. -/
theorem close_sound (h : Kept n segs queues (t, ep))
    (hstatus : ep.status = .initializing ∨ ep.status = .ok) (atEnd : ℕ → Bool) :
    ((ep.Empty ∧ ∀ gref ∈ ep.grefs, atEnd gref = false) →
      Inv n (ungrantResources atEnd t ep) segs queues) ∧
    (¬ (ep.Empty ∧ ∀ gref ∈ ep.grefs, atEnd gref = false) →
      Lost segs queues (ungrantResources atEnd t ep, .gone)) := by
  have hinv : Inv n t (ep.segments ++ segs) (ep.grefs ++ queues) := by
    have hinv := h.1
    rwa [claimed_of_open hstatus] at hinv
  constructor
  · rintro ⟨hempty, hquiet⟩
    exact inv_ungrantResources (hinv.of_append hempty) hquiet
  · intro hnot
    by_cases hempty : ep.Empty
    · obtain ⟨gref, hgref, hmapped⟩ : ∃ gref ∈ ep.grefs, atEnd gref = true := by
        by_contra hnone
        refine hnot ⟨hempty, fun gref hgref => ?_⟩
        by_contra hne
        exact hnone ⟨gref, hgref, eq_true_of_ne_false hne⟩
      refine ⟨gref, ?_, (hinv.of_append hempty).notMem_of_mem_queues hgref⟩
      rw [access_ungrantResources, if_pos hgref, if_pos hmapped]
      exact nofun
    · refine lost_of_regions h hempty rfl fun gref hgref => ⟨?_, List.not_mem_nil⟩
      have hnot := hinv.notMem_of_mem_left hgref
      rw [access_ungrantResources, if_neg fun hmem => hnot
        (List.mem_append_right _ (List.mem_append_left _ hmem))]
      exact hinv.access_of_mem hgref

theorem closeEndpoint_sound (answered : Bool) (atEnd : ℕ → Bool) :
    Sound (closeEndpoint answered atEnd) (fun _ => CloseOk answered atEnd) := by
  intro n t ep segs queues h
  have hopen : ∀ (_ : ep.status = .initializing ∨ ep.status = .ok),
      (CloseOk answered atEnd ep →
        ∃ r, closeEndpoint answered atEnd t ep = some r ∧ Kept n segs queues r) ∧
      (¬ CloseOk answered atEnd ep →
        ∀ r, closeEndpoint answered atEnd t ep = some r → Lost segs queues r) := by
    intro hstatus
    have hne : ep.status ≠ .freed ∧ ep.status ≠ .free := by
      rcases hstatus with hstatus | hstatus <;> rw [hstatus] <;> exact ⟨nofun, nofun⟩
    cases answered with
    | false =>
        have hsame : closeEndpoint false atEnd t ep = some (t, ep) := by
          unfold closeEndpoint
          rcases hstatus with hstatus | hstatus <;> rw [hstatus] <;> rfl
        exact ⟨fun _ => ⟨_, hsame, h⟩, fun hok => absurd ⟨hne.1, fun _ => nofun⟩ hok⟩
    | true =>
        have hclose : closeEndpoint true atEnd t ep = some (ungrantResources atEnd t ep, .gone) := by
          unfold closeEndpoint
          rcases hstatus with hstatus | hstatus <;> rw [hstatus] <;> rfl
        obtain ⟨hkept, hlost⟩ := close_sound h hstatus atEnd
        constructor
        · intro hok
          exact ⟨_, hclose, hkept (hok.2 hne.2 rfl), tidy_of_none nofun⟩
        · intro hok r hr
          cases hclose.symm.trans hr
          exact hlost fun hquiet => hok ⟨hne.1, fun _ _ => hquiet⟩
  cases hstatus : ep.status with
  | freed =>
      refine ⟨fun hok => absurd hstatus hok.1, fun _ r hr => ?_⟩
      rw [closeEndpoint, hstatus] at hr
      cases hr
  | free =>
      refine ⟨fun _ => ⟨(t, ep), ?_, h⟩, fun hok => absurd ⟨?_, fun hne => absurd hstatus hne⟩ hok⟩
      · rw [closeEndpoint, hstatus]
      · rw [hstatus]
        exact nofun
  | initializing => exact hopen (.inl hstatus)
  | ok => exact hopen (.inr hstatus)

/-- When the release of its file keeps the accounts. -/
def ReleaseOk (ep : Endpoint) : Prop :=
  ep.status ≠ .freed ∧ ep.status ≠ .ok ∧ (ep.status = .free → ep.Empty)

theorem releaseFile_sound (answered : Bool) :
    Sound (releaseFile answered) (fun _ => ReleaseOk) := by
  intro n t ep segs queues h
  show (ReleaseOk ep → _) ∧ (¬ ReleaseOk ep → _)
  unfold releaseFile ReleaseOk
  cases hstatus : ep.status with
  | freed => exact ⟨fun hok => absurd rfl hok.1, fun _ _ => nofun⟩
  | initializing => exact ⟨fun _ => ⟨_, rfl, h⟩, fun hok => absurd ⟨nofun, nofun, nofun⟩ hok⟩
  | free =>
      have hinv : Inv n t (ep.segments ++ segs) queues := by
        have hinv := h.1
        rwa [claimed_of_free hstatus] at hinv
      constructor
      · rintro ⟨-, -, hempty⟩
        exact ⟨_, rfl, hinv.of_append (hempty rfl), tidy_of_none nofun⟩
      · rintro hok r hr
        cases hr
        exact lost_of_regions h (fun hempty => hok ⟨nofun, nofun, fun _ => hempty⟩) rfl
          fun gref hgref => ⟨hinv.access_of_mem hgref, List.not_mem_nil⟩
  | ok =>
      refine ⟨fun hok => absurd rfl hok.2.1, fun _ r hr => ?_⟩
      cases answered with
      | true => cases hr
      | false =>
          cases hr
          have hinv : Inv n t (ep.segments ++ segs) (ep.grefs ++ queues) := by
            have hinv := h.1
            rwa [claimed_of_open (.inr hstatus)] at hinv
          obtain ⟨gref, hgref⟩ := List.exists_mem_of_ne_nil _ (h.2.grefs hstatus)
          have hnot := hinv.notMem_of_mem_queues hgref
          refine ⟨gref, ?_, fun hmem => hnot ?_⟩
          · rw [hinv.access]
            exact List.mem_append_right _ (List.mem_append_left _ hgref)
          · rw [List.flatMap_append, List.append_assoc]
            exact List.mem_append_right _ hmem

end Endpoint

end Xen2mx.Grants
