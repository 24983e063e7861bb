/-
# `Xen2mx.Grants.Conserved` — no reference is lost, and none is in two places

The accounts of `Xen2mx.Grants.Accounting`, for the references in the table, in the segments of a
list and in a list of others, and what one claim, one release, a cookie that is got and one that is
put do to them.  The loops of the operations keep them by induction, each with the segment that it
is at in front of the list.

**Proved here.**

    a cookie that is got has the references asked for, all in its chain   (`Inv.getCookie`)
    a claim from a chain that is not empty, and a release        (`Inv.grant`, `Inv.release`)
    a segment is granted in full, or it gets no cookie               (`Inv.grantSegment`)
    if the backend has nothing mapped, a segment is given back     (`Inv.releaseSegment`)
    what the backend has mapped stays in the grant table          (`access_releaseSegments`)
-/
import Mathlib.Data.List.GetD
import Xen2mx.Grants.Accounting

namespace Xen2mx.Grants

/-! ## Chains -/

namespace Cookies

variable {fe : Cookies} {k : ℕ}

/-- The references in the other chains. -/
def others (fe : Cookies) (k : ℕ) : List ℕ :=
  ((fe.grefCookiesFree ++ fe.grefCookiesInuse).erase k).flatMap fun k => (fe.cookie k).grefHead

theorem perm_chains (hk : k ∈ fe.grefCookiesFree ++ fe.grefCookiesInuse) :
    fe.chains.Perm ((fe.cookie k).grefHead ++ fe.others k) :=
  (List.perm_cons_erase hk).flatMap_right _

theorem others_set (c : Cookie) : (fe.set k c).others k = fe.others k := by
  refine List.flatMap_congr fun k' hk' => ?_
  have hne : k' ≠ k := fun heq => fe.nodup.not_mem_erase (heq ▸ hk')
  exact congrArg Cookie.grefHead (Function.update_of_ne hne _ _)

theorem cookie_set (c : Cookie) : (fe.set k c).cookie k = c := Function.update_self ..

theorem cookie_set_of_ne {k' : ℕ} (h : k' ≠ k) (c : Cookie) :
    (fe.set k c).cookie k' = fe.cookie k' := Function.update_of_ne h _ _

theorem perm_chains_set (hk : k ∈ fe.grefCookiesFree ++ fe.grefCookiesInuse) (c : Cookie) :
    (fe.set k c).chains.Perm (c.grefHead ++ fe.others k) := by
  have hperm : (fe.set k c).chains.Perm
      (((fe.set k c).cookie k).grefHead ++ (fe.set k c).others k) := perm_chains hk
  rwa [others_set, cookie_set] at hperm

theorem perm_take (hk : k ∈ fe.grefCookiesFree) :
    ((fe.take k hk).grefCookiesFree ++ (fe.take k hk).grefCookiesInuse).Perm
      (fe.grefCookiesFree ++ fe.grefCookiesInuse) := by
  show (fe.grefCookiesFree.erase k ++ (fe.grefCookiesInuse ++ [k])).Perm _
  rw [← List.append_assoc]
  exact (List.perm_append_singleton k _).trans ((List.perm_cons_erase hk).symm.append_right _)

theorem perm_putCookie (hk : k ∈ fe.grefCookiesInuse) :
    ((fe.putCookie k hk).grefCookiesFree ++ (fe.putCookie k hk).grefCookiesInuse).Perm
      (fe.grefCookiesFree ++ fe.grefCookiesInuse) := by
  show (fe.grefCookiesFree ++ [k] ++ fe.grefCookiesInuse.erase k).Perm _
  rw [List.append_assoc]
  exact (List.perm_cons_erase hk).symm.append_left _

theorem perm_reallyAlloc (gref : ℕ → ℕ) (count : ℕ) :
    ((fe.reallyAlloc gref count).grefCookiesFree ++
      (fe.reallyAlloc gref count).grefCookiesInuse).Perm
      (fe.next :: (fe.grefCookiesFree ++ fe.grefCookiesInuse)) := by
  show (fe.grefCookiesFree ++ [fe.next] ++ fe.grefCookiesInuse).Perm _
  rw [List.append_assoc]
  exact List.perm_middle

theorem perm_chains_reallyAlloc (gref : ℕ → ℕ) (count : ℕ) :
    (fe.reallyAlloc gref count).chains.Perm ((List.range count).map gref ++ fe.chains) := by
  refine ((perm_reallyAlloc gref count).flatMap_right _).trans ?_
  rw [List.flatMap_cons, cookie_reallyAlloc_self]
  refine List.Perm.append_left _ (List.Perm.of_eq (List.flatMap_congr fun k hk => ?_))
  rw [cookie_reallyAlloc_of_ne _ (Nat.ne_of_lt (fe.lt_next k hk))]

end Cookies

/-! ## The invariant -/

/-- The cookies that the segments of a list use. -/
def users (segs : List UserRegionSegment) : List ℕ := segs.filterMap UserRegionSegment.grefCookie

/-- The accounts of the references in the table, in the segments of a list, and in a list of
others. -/
structure Inv (grefs : ℕ) (t : Table) (segs : List UserRegionSegment) (queues : List ℕ) : Prop where
  recorded : ∀ k ∈ t.cookies.grefCookiesFree ++ t.cookies.grefCookiesInuse,
    (t.cookies.cookie k).grefHead.length + (claimedFrom k segs).length = (t.cookies.cookie k).count
  users : (users segs).Nodup
  inuse : ∀ k ∈ Grants.users segs, k ∈ t.cookies.grefCookiesInuse
  once : (t.pool ++ t.cookies.chains ++ (segs.flatMap UserRegionSegment.refs ++ queues)).Perm
    (List.range grefs)
  access : ∀ gref, t.access gref ≠ .ended ↔
    gref ∈ segs.flatMap UserRegionSegment.refs ++ queues

section
variable {k : ℕ} {seg : UserRegionSegment} {segs segs' : List UserRegionSegment}

theorem claimedFrom_of_notMem (h : k ∉ users segs) : claimedFrom k segs = [] := by
  have hnone : (segs.filter fun seg => seg.grefCookie = some k) = [] := by
    refine List.filter_eq_nil_iff.2 fun seg hseg hk => h ?_
    exact List.mem_filterMap.2 ⟨seg, hseg, of_decide_eq_true hk⟩
  rw [claimedFrom, hnone]
  rfl

theorem claimedFrom_cons_self (h : seg.grefCookie = some k) :
    claimedFrom k (seg :: segs) = seg.refs ++ claimedFrom k segs := by
  rw [claimedFrom, List.filter_cons_of_pos (by rw [h]; exact decide_eq_true rfl), List.flatMap_cons]
  rfl

theorem claimedFrom_cons_of_ne (h : seg.grefCookie ≠ some k) :
    claimedFrom k (seg :: segs) = claimedFrom k segs := by
  rw [claimedFrom, List.filter_cons_of_neg (by simpa using h)]
  rfl

theorem length_claimedFrom_perm (h : segs.Perm segs') :
    (claimedFrom k segs).length = (claimedFrom k segs').length :=
  ((h.filter _).flatMap_right _).length_eq

theorem users_cons_some (h : seg.grefCookie = some k) : users (seg :: segs) = k :: users segs :=
  List.filterMap_cons_some h

theorem users_cons_none (h : seg.grefCookie = none) : users (seg :: segs) = users segs :=
  List.filterMap_cons_none h

end

namespace Inv

variable {n k gref : ℕ} {t : Table} {seg seg' : UserRegionSegment}
  {segs segs' : List UserRegionSegment} {queues queues' chain : List ℕ}

theorem perm (h : Inv n t segs queues) (hsegs : segs.Perm segs') (hqueues : queues.Perm queues') :
    Inv n t segs' queues' := by
  have hheld := (hsegs.flatMap_right UserRegionSegment.refs).append hqueues
  exact
    { recorded := fun k hk => length_claimedFrom_perm hsegs ▸ h.recorded k hk
      users := (hsegs.filterMap _).nodup_iff.1 h.users
      inuse := fun k hk => h.inuse k ((hsegs.filterMap _).mem_iff.2 hk)
      once := (hheld.symm.append_left _).trans h.once
      access := fun gref => (h.access gref).trans hheld.mem_iff }

theorem nodup (h : Inv n t segs queues) :
    (segs.flatMap UserRegionSegment.refs ++ queues).Nodup :=
  (List.nodup_append.1 (h.once.nodup_iff.2 List.nodup_range)).2.1

/-- A free cookie has no user. -/
theorem notMem_users (h : Inv n t segs queues) (hk : k ∈ t.cookies.grefCookiesFree) :
    k ∉ Grants.users segs := fun hmem =>
  (List.nodup_append.1 t.cookies.nodup).2.2 k hk k (h.inuse k hmem) rfl

/-- Segments without a reference can go. -/
theorem of_cons (h : Inv n t (seg :: segs) queues) (hrefs : seg.refs = []) :
    Inv n t segs queues where
  recorded := fun k hk => by
    have hrecorded := h.recorded k hk
    by_cases hseg : seg.grefCookie = some k
    · rwa [claimedFrom_cons_self hseg, hrefs, List.nil_append] at hrecorded
    · rwa [claimedFrom_cons_of_ne hseg] at hrecorded
  users := h.users.sublist ((List.sublist_cons_self seg segs).filterMap _)
  inuse := fun k hk => h.inuse k (((List.sublist_cons_self seg segs).filterMap _).subset hk)
  once := by
    have honce := h.once
    rwa [List.flatMap_cons, hrefs, List.nil_append] at honce
  access := fun gref => by
    have haccess := h.access gref
    rwa [List.flatMap_cons, hrefs, List.nil_append] at haccess

theorem of_append (h : Inv n t (segs' ++ segs) queues)
    (hrefs : segs'.flatMap UserRegionSegment.refs = []) : Inv n t segs queues := by
  induction segs' with
  | nil => exact h
  | cons seg segs' ih =>
      rw [List.flatMap_cons, List.append_eq_nil_iff] at hrefs
      exact ih (h.of_cons hrefs.1) hrefs.2

/-- A segment that has neither a cookie nor a reference can come. -/
theorem cons_blank (h : Inv n t segs queues) (hcookie : seg.grefCookie = none)
    (hrefs : seg.refs = []) : Inv n t (seg :: segs) queues where
  recorded := fun k hk => by
    rw [claimedFrom_cons_of_ne (by rw [hcookie]; exact nofun)]
    exact h.recorded k hk
  users := by
    rw [users_cons_none hcookie]
    exact h.users
  inuse := fun k hk => h.inuse k (users_cons_none hcookie ▸ hk)
  once := by
    rw [List.flatMap_cons, hrefs, List.nil_append]
    exact h.once
  access := fun gref => by
    rw [List.flatMap_cons, hrefs, List.nil_append]
    exact h.access gref

/-! ## Cookies -/

/-- A free cookie is taken for a segment that has no reference yet. -/
theorem take (h : Inv n t segs queues) (hk : k ∈ t.cookies.grefCookiesFree)
    (hcookie : seg.grefCookie = some k) (hrefs : seg.refs = []) :
    Inv n { t with cookies := t.cookies.take k hk } (seg :: segs) queues where
  recorded := fun k' hk' => by
    have hrecorded := h.recorded k' ((Cookies.perm_take hk).mem_iff.1 hk')
    by_cases hseg : seg.grefCookie = some k'
    · rwa [claimedFrom_cons_self hseg, hrefs, List.nil_append]
    · rwa [claimedFrom_cons_of_ne hseg]
  users := by
    rw [users_cons_some hcookie]
    exact List.nodup_cons.2 ⟨h.notMem_users hk, h.users⟩
  inuse := fun k' hk' => by
    rw [users_cons_some hcookie] at hk'
    rcases List.mem_cons.1 hk' with rfl | hk'
    · exact List.mem_append_right _ (List.mem_singleton_self _)
    · exact List.mem_append_left _ (h.inuse k' hk')
  once := by
    rw [List.flatMap_cons, hrefs, List.nil_append]
    refine List.Perm.trans ?_ h.once
    exact (((Cookies.perm_take hk).flatMap_right _).append_left _).append_right _
  access := fun gref => by
    rw [List.flatMap_cons, hrefs, List.nil_append]
    exact h.access gref

/-- The first references of the pool make a new cookie. -/
theorem reallyAlloc (h : Inv n t segs queues) {count : ℕ} (hcount : count ≤ t.pool.length) :
    Inv n { t with
      pool := t.pool.drop count
      cookies := t.cookies.reallyAlloc (fun i => t.pool.getD i 0) count } segs queues where
  recorded := fun k hk => by
    rcases List.mem_cons.1 ((Cookies.perm_reallyAlloc _ count).mem_iff.1 hk) with rfl | hk
    · have hnew : t.cookies.next ∉ Grants.users segs := fun hmem =>
        Nat.lt_irrefl _ (t.cookies.lt_next _ (List.mem_append_right _ (h.inuse _ hmem)))
      rw [claimedFrom_of_notMem hnew, Cookies.cookie_reallyAlloc_self, List.length_map,
        List.length_range]
      rfl
    · rw [Cookies.cookie_reallyAlloc_of_ne _ (Nat.ne_of_lt (t.cookies.lt_next k hk))]
      exact h.recorded k hk
  users := h.users
  inuse := h.inuse
  once := by
    have htake : (List.range count).map (fun i => t.pool.getD i 0) = t.pool.take count := by
      refine List.ext_getElem (by simp [hcount]) fun i hi hi' => ?_
      rw [List.getElem_map, List.getElem_range, List.getElem_take, List.getD_eq_getElem]
    have hchains : (t.cookies.reallyAlloc (fun i => t.pool.getD i 0) count).chains.Perm
        ((List.range count).map (fun i => t.pool.getD i 0) ++ t.cookies.chains) :=
      Cookies.perm_chains_reallyAlloc _ count
    rw [htake] at hchains
    refine List.Perm.trans ?_ h.once
    refine List.Perm.append_right _ ((hchains.append_left _).trans ?_)
    rw [← List.append_assoc]
    refine List.Perm.append_right _ (List.perm_append_comm.trans ?_)
    rw [List.take_append_drop]
  access := h.access

/-- A cookie that is got is in use, and its chain has the references asked for. -/
theorem getCookie (h : Inv n t segs queues) (seg : UserRegionSegment) {memory : Bool} {count : ℕ}
    {t' : Table} (hget : t.getCookie memory count = some (k, t'))
    (hcookie : seg.grefCookie = some k) (hrefs : seg.refs = []) :
    Inv n t' (seg :: segs) queues ∧ count ≤ (t'.cookies.cookie k).grefHead.length := by
  cases hsearch : t.cookies.search count with
  | some k' =>
      rw [Table.getCookie_of_search hsearch] at hget
      obtain ⟨rfl, rfl⟩ := Prod.mk.inj (Option.some.inj hget)
      have hfree := t.cookies.mem_of_search hsearch
      refine ⟨h.take hfree hcookie hrefs, ?_⟩
      have hrecorded := h.recorded k' (List.mem_append_left _ hfree)
      rw [claimedFrom_of_notMem (h.notMem_users hfree), List.length_nil, Nat.add_zero] at hrecorded
      have hcount : count ≤ (t.cookies.cookie k').count := of_decide_eq_true
        (List.find?_some (p := fun k => count ≤ (t.cookies.cookie k).count) hsearch)
      show count ≤ (t.cookies.cookie k').grefHead.length
      rwa [hrecorded]
  | none =>
      rw [Table.getCookie_of_none hsearch] at hget
      split at hget
      · rename_i hpool
        obtain ⟨rfl, rfl⟩ := Prod.mk.inj (Option.some.inj hget)
        refine ⟨(h.reallyAlloc hpool.2).take _ hcookie hrefs, ?_⟩
        show count ≤ ((t.cookies.reallyAlloc _ count).cookie t.cookies.next).grefHead.length
        rw [Cookies.cookie_reallyAlloc_self, List.length_map, List.length_range]
      · cases hget

/-- The cookie of a segment without references is put back. -/
theorem putCookie (h : Inv n t (seg :: segs) queues) (hcookie : seg.grefCookie = some k)
    (hrefs : seg.refs = []) : ∃ t', t.putCookie k = some t' ∧ Inv n t' segs queues := by
  have hk : k ∈ t.cookies.grefCookiesInuse := h.inuse k (by
    rw [users_cons_some hcookie]
    exact List.mem_cons_self)
  have hrest := h.of_cons hrefs
  have hnot : k ∉ Grants.users segs := by
    have hnodup := h.users
    rw [users_cons_some hcookie] at hnodup
    exact (List.nodup_cons.1 hnodup).1
  refine ⟨_, dif_pos hk, ?_⟩
  exact
    { recorded := fun k' hk' => hrest.recorded k' ((Cookies.perm_putCookie hk).mem_iff.1 hk')
      users := hrest.users
      inuse := fun k' hk' => by
        have hne : k' ≠ k := fun heq => hnot (heq ▸ hk')
        exact (List.mem_erase_of_ne hne).2 (hrest.inuse k' hk')
      once := by
        refine List.Perm.trans ?_ hrest.once
        exact (((Cookies.perm_putCookie hk).flatMap_right _).append_left _).append_right _
      access := hrest.access }

/-! ## One reference -/

/-- The accounts when a cookie that a segment uses and the segment change together. -/
theorem set (h : Inv n t (seg :: segs) queues) (hcookie : seg.grefCookie = some k)
    (hcookie' : seg'.grefCookie = some k) {access : ℕ → Access} {chain : List ℕ}
    (hperm : ((t.cookies.cookie k).grefHead ++ seg.refs).Perm (chain ++ seg'.refs))
    (haccess : ∀ gref, access gref ≠ .ended ↔
      gref ∈ (seg' :: segs).flatMap UserRegionSegment.refs ++ queues) :
    Inv n { t with
      access := access
      cookies := t.cookies.set k { t.cookies.cookie k with grefHead := chain } }
      (seg' :: segs) queues where
  recorded := fun k' hk' => by
    have hrecorded := h.recorded k' hk'
    by_cases heq : k' = k
    · subst k'
      rw [claimedFrom_cons_self hcookie, List.length_append] at hrecorded
      rw [claimedFrom_cons_self hcookie', Cookies.cookie_set, List.length_append]
      have hlength := hperm.length_eq
      rw [List.length_append, List.length_append] at hlength
      show chain.length + _ = (t.cookies.cookie k).count
      omega
    · rw [claimedFrom_cons_of_ne (by rw [hcookie]; simpa using Ne.symm heq)] at hrecorded
      rw [claimedFrom_cons_of_ne (by rw [hcookie']; simpa using Ne.symm heq)]
      rwa [Cookies.cookie_set_of_ne heq]
  users := by
    have husers := h.users
    rwa [users_cons_some hcookie, ← users_cons_some hcookie'] at husers
  inuse := fun k' hk' => h.inuse k' (by
    rwa [users_cons_some hcookie', ← users_cons_some hcookie] at hk')
  once := by
    have hk : k ∈ t.cookies.grefCookiesFree ++ t.cookies.grefCookiesInuse :=
      List.mem_append_right _ (h.inuse k (by
        rw [users_cons_some hcookie]
        exact List.mem_cons_self))
    refine List.Perm.trans (List.perm_iff_count.2 fun gref => ?_) h.once
    have hnew :=
      (Cookies.perm_chains_set hk { t.cookies.cookie k with grefHead := chain }).count_eq gref
    have hold := (Cookies.perm_chains hk).count_eq gref
    have hcount := hperm.count_eq gref
    simp only [List.count_append, List.flatMap_cons] at hnew hold hcount ⊢
    omega
  access := haccess

/-- A segment that records the same references in another order. -/
theorem swap (h : Inv n t (seg :: segs) queues) (hcookie : seg.grefCookie = some k)
    (hcookie' : seg'.grefCookie = some k) (hrefs : seg.refs.Perm seg'.refs) :
    Inv n t (seg' :: segs) queues where
  recorded := fun k' hk' => by
    have hrecorded := h.recorded k' hk'
    by_cases heq : k' = k
    · subst k'
      rw [claimedFrom_cons_self hcookie, List.length_append, hrefs.length_eq] at hrecorded
      rwa [claimedFrom_cons_self hcookie', List.length_append]
    · rw [claimedFrom_cons_of_ne (by rw [hcookie]; simpa using Ne.symm heq)] at hrecorded
      rwa [claimedFrom_cons_of_ne (by rw [hcookie']; simpa using Ne.symm heq)]
  users := by
    have husers := h.users
    rwa [users_cons_some hcookie, ← users_cons_some hcookie'] at husers
  inuse := fun k' hk' => h.inuse k' (by
    rwa [users_cons_some hcookie', ← users_cons_some hcookie] at hk')
  once := ((hrefs.symm.append_right _).append_right _).append_left _ |>.trans h.once
  access := fun gref => (h.access gref).trans ((hrefs.append_right _).append_right _).mem_iff

/-- A reference is claimed from the chain, and granted. -/
theorem grant (h : Inv n t (seg :: segs) queues) (seg' : UserRegionSegment)
    (hcookie : seg.grefCookie = some k) (hcookie' : seg'.grefCookie = some k)
    (hhead : (t.cookies.cookie k).grefHead = gref :: chain)
    (hrefs : seg'.refs.Perm (gref :: seg.refs)) :
    Inv n (t.grant k gref chain) (seg' :: segs) queues := by
  refine h.set hcookie hcookie' ?_ fun gref' => ?_
  · rw [hhead]
    exact List.perm_middle.symm.trans (hrefs.symm.append_left chain)
  · have hmem : gref' ∈ (seg' :: segs).flatMap UserRegionSegment.refs ++ queues ↔
        gref' = gref ∨ gref' ∈ (seg :: segs).flatMap UserRegionSegment.refs ++ queues := by
      rw [← List.mem_cons]
      exact ((hrefs.append_right _).append_right _).mem_iff
    rw [hmem]
    by_cases heq : gref' = gref
    · subst gref'
      rw [Function.update_self]
      exact iff_of_true nofun (.inl rfl)
    · rw [Function.update_of_ne heq, h.access gref', or_iff_right heq]

/-- The access to a page is ended, and the reference goes back to the chain. -/
theorem release (h : Inv n t (seg :: segs) queues) (seg' : UserRegionSegment)
    (hcookie : seg.grefCookie = some k) (hcookie' : seg'.grefCookie = some k)
    (hrefs : seg.refs.Perm (gref :: seg'.refs)) :
    Inv n ((t.setAccess gref .ended).release k gref) (seg' :: segs) queues := by
  have hheld : ((seg :: segs).flatMap UserRegionSegment.refs ++ queues).Perm
      (gref :: ((seg' :: segs).flatMap UserRegionSegment.refs ++ queues)) :=
    (hrefs.append_right _).append_right _
  refine h.set hcookie hcookie' ?_ fun gref' => ?_
  · exact (hrefs.append_left _).trans List.perm_middle
  · by_cases heq : gref' = gref
    · subst gref'
      rw [Table.access_setAccess, Function.update_self]
      exact iff_of_false (fun hne => hne rfl)
        (List.nodup_cons.1 (hheld.nodup_iff.1 h.nodup)).1
    · rw [Table.access_setAccess, Function.update_of_ne heq, h.access gref', hheld.mem_iff,
        List.mem_cons, or_iff_right heq]

/-! ## Granting a segment -/

/-- If the chain is long enough, all claims succeed. -/
theorem claimLoop (h : Inv n t (seg :: segs) queues) (hcookie : seg.grefCookie = some k) {m : ℕ}
    (hm : m ≤ (t.cookies.cookie k).grefHead.length) :
    ∃ grefs t', Grants.claimLoop k m t = (grefs, true, t') ∧ grefs.length = m ∧
      (t'.cookies.cookie k).grefHead.length + m = (t.cookies.cookie k).grefHead.length ∧
      ∀ seg', seg'.grefCookie = some k → seg'.refs.Perm (grefs ++ seg.refs) →
        Inv n t' (seg' :: segs) queues := by
  induction m generalizing t seg with
  | zero =>
      exact ⟨[], t, rfl, rfl, rfl, fun seg' hcookie' hrefs => h.swap hcookie hcookie' hrefs.symm⟩
  | succ m ih =>
      cases hhead : (t.cookies.cookie k).grefHead with
      | nil =>
          rw [hhead] at hm
          exact absurd hm (Nat.not_succ_le_zero m)
      | cons gref chain =>
          have hgrant := h.grant { seg with grefList := gref :: seg.grefList } hcookie hcookie hhead
            (List.Perm.refl _)
          have hchain : ((t.grant k gref chain).cookies.cookie k).grefHead = chain :=
            congrArg Cookie.grefHead (Cookies.cookie_set _)
          have hm' : m ≤ ((t.grant k gref chain).cookies.cookie k).grefHead.length := by
            rw [hhead, List.length_cons] at hm
            rw [hchain]
            exact Nat.le_of_succ_le_succ hm
          obtain ⟨grefs, t', hloop, hlength, hleft, hinv⟩ := ih hgrant hcookie hm'
          refine ⟨gref :: grefs, t', ?_, congrArg Nat.succ hlength, ?_,
            fun seg' hcookie' hrefs => ?_⟩
          · rw [Grants.claimLoop, hhead]
            simp only [hloop]
          · rw [hchain] at hleft
            rw [List.length_cons, ← hleft]
            rfl
          · exact hinv seg' hcookie' (hrefs.trans List.perm_middle.symm)

end Inv

/-- A segment that is granted in full, or that has no cookie. -/
def Shaped (seg : UserRegionSegment) : Prop :=
  seg.Full ∨ seg.grefCookie = none

namespace Inv

variable {n k gref : ℕ} {t : Table} {seg seg' : UserRegionSegment}
  {segs segs' : List UserRegionSegment} {queues queues' chain : List ℕ}

/-- A segment gets all its references, or no cookie. -/
theorem grantSegment (h : Inv n t segs queues) {env : GrantEnv} {nrPages : ℕ}
    (hlisted : Listed nrPages env) :
    ∃ seg done t', Grants.grantSegment env nrPages t = some (seg, done, t') ∧
      Inv n t' (seg :: segs) queues ∧ Shaped seg := by
  rw [Grants.grantSegment, if_pos hlisted]
  cases hget : t.getCookie env.cookieMemory (nrPages + nrParts nrPages * nrParts nrPages) with
  | none => exact ⟨_, _, _, rfl, h.cons_blank rfl rfl, .inr rfl⟩
  | some r =>
      obtain ⟨k, t₁⟩ := r
      obtain ⟨h₁, hcount⟩ := h.getCookie ⟨nrPages, some k, [], []⟩ hget rfl rfl
      have hsquare := Nat.le_mul_self (nrParts nrPages)
      obtain ⟨allGref, t₂, hparts, hlength, hleft, hinv⟩ := h₁.claimLoop rfl
        (Nat.le_trans (Nat.le_trans hsquare (Nat.le_add_left _ _)) hcount)
      have h₂ := hinv ⟨nrPages, some k, allGref, []⟩ rfl (List.Perm.of_eq (List.append_nil _).symm)
      obtain ⟨grefList, t₃, hpages, hlength', -, hinv'⟩ :=
        h₂.claimLoop (m := nrPages) rfl (by omega)
      have h₃ := hinv' ⟨nrPages, some k, allGref, grefList⟩ rfl (List.Perm.refl _)
      refine ⟨_, true, t₃, ?_, h₃, .inl ⟨nofun, hlength', hlength⟩⟩
      simp only [hparts, hpages]

end Inv

/-- The segments that a creation comes to find room for their parts. -/
def SegmentsFit : List (ℕ × GrantEnv) → Table → Prop
  | [], _ => True
  | (nrPages, env) :: segs, t =>
      Listed nrPages env ∧
        ∀ seg t', grantSegment env nrPages t = some (seg, true, t') → SegmentsFit segs t'

namespace Inv

variable {n k gref : ℕ} {t : Table} {seg seg' : UserRegionSegment}
  {segs segs' : List UserRegionSegment} {queues queues' chain : List ℕ}

theorem append_blank (h : Inv n t segs queues) (sizes : List (ℕ × GrantEnv)) :
    Inv n t (sizes.map (fun s => .blank s.1) ++ segs) queues := by
  induction sizes with
  | nil => exact h
  | cons s sizes ih => exact ih.cons_blank rfl rfl

/-- The loop over the segments. -/
theorem grantSegments (h : Inv n t segs queues) {sizes : List (ℕ × GrantEnv)}
    (hfits : SegmentsFit sizes t) :
    ∃ segments done t', Grants.grantSegments sizes t = some (segments, done, t') ∧
      Inv n t' (segments ++ segs) queues ∧ ∀ seg ∈ segments, Shaped seg := by
  induction sizes generalizing t segs with
  | nil => exact ⟨[], true, t, rfl, h, nofun⟩
  | cons s sizes ih =>
      obtain ⟨nrPages, env⟩ := s
      obtain ⟨seg, done, t₁, hgrant, h₁, hshaped⟩ := h.grantSegment hfits.1
      rw [Grants.grantSegments, hgrant]
      cases done with
      | false =>
          refine ⟨_, false, t₁, rfl, ?_, ?_⟩
          · exact (h₁.append_blank sizes).perm List.perm_middle (List.Perm.refl _)
          · intro seg' hseg'
            rcases List.mem_cons.1 hseg' with rfl | hseg'
            · exact hshaped
            · obtain ⟨s, -, rfl⟩ := List.mem_map.1 hseg'
              exact .inr rfl
      | true =>
          obtain ⟨segments, done, t₂, hrest, h₂, hshaped'⟩ := ih h₁ (hfits.2 seg t₁ hgrant)
          refine ⟨seg :: segments, done, t₂, ?_, h₂.perm List.perm_middle (List.Perm.refl _), ?_⟩
          · simp only [hrest, Option.map_some]
          · intro seg' hseg'
            rcases List.mem_cons.1 hseg' with rfl | hseg'
            · exact hshaped
            · exact hshaped' seg' hseg'

/-- The cookies of the empty segments. -/
theorem grantEmpty (h : Inv n t segs queues) (empties : List Bool) :
    Inv n (Grants.grantEmpty empties t) segs queues := by
  induction empties generalizing t with
  | nil => exact h
  | cons memory empties ih =>
      rw [Grants.grantEmpty]
      cases hget : t.getCookie memory 0 with
      | none => exact h
      | some r =>
          obtain ⟨k, t₁⟩ := r
          obtain ⟨h₁, -⟩ := h.getCookie ⟨0, some k, [], []⟩ hget rfl rfl
          exact ih (h₁.of_cons rfl)

/-! ## Releasing a segment -/

/-- A loop that ends the access by each reference and releases it. -/
theorem foldl_release {op : Table → ℕ → Table} {grefs : List ℕ}
    (hop : ∀ t, ∀ gref ∈ grefs, op t gref = (t.setAccess gref .ended).release k gref)
    (h : Inv n t (seg :: segs) queues) (seg' : UserRegionSegment)
    (hcookie : seg.grefCookie = some k) (hcookie' : seg'.grefCookie = some k)
    (hrefs : seg.refs.Perm (grefs ++ seg'.refs)) :
    Inv n (grefs.foldl op t) (seg' :: segs) queues := by
  induction grefs generalizing t seg with
  | nil => exact h.swap hcookie hcookie' hrefs
  | cons gref grefs ih =>
      have hsplit : seg.refs.Perm
          (gref :: { seg' with grefList := grefs ++ seg'.grefList : UserRegionSegment }.refs) := by
        refine hrefs.trans (List.Perm.of_eq ?_)
        rw [UserRegionSegment.refs, UserRegionSegment.refs, List.cons_append, List.append_assoc]
      have hrelease :=
        h.release { seg' with grefList := grefs ++ seg'.grefList } hcookie hcookie' hsplit
      rw [List.foldl_cons, hop t gref List.mem_cons_self]
      refine ih (fun t gref' hgref' => hop t gref' (List.mem_cons_of_mem _ hgref')) hrelease
        hcookie' ?_
      exact List.Perm.of_eq (List.append_assoc _ _ _)

variable {env : DestroyEnv}

/-- With nothing mapped, a segment gives back all references, and its cookie. -/
theorem releaseSegment (h : Inv n t (seg :: segs) queues) (hfull : seg.Full)
    (hquiet : ∀ gref ∈ seg.refs, env.atQuery gref = false ∧ env.atEnd gref = false) :
    ∃ t', env.releaseSegment seg t = some t' ∧ Inv n t' segs queues := by
  obtain ⟨k, hk⟩ := Option.ne_none_iff_exists'.1 hfull.1
  have hpages : ∀ t, ∀ gref ∈ seg.grefList,
      env.releasePage k t gref = (t.setAccess gref .ended).release k gref := fun t gref hgref => by
    obtain ⟨hquery, hend⟩ := hquiet gref (List.mem_append_left _ hgref)
    rw [DestroyEnv.releasePage, hquery, hend]
    rfl
  have hparts : ∀ t, ∀ gref ∈ seg.allGref,
      env.releasePart k t gref = (t.setAccess gref .ended).release k gref := fun t gref hgref => by
    obtain ⟨hquery, hend⟩ := hquiet gref (List.mem_append_right _ hgref)
    rw [DestroyEnv.releasePart, hquery, hend]
    rfl
  have h₁ := foldl_release hpages h { seg with grefList := [] } hk hk (List.Perm.refl _)
  have h₂ := foldl_release hparts h₁ { seg with grefList := [], allGref := [] } hk hk
    (List.Perm.of_eq (List.append_nil _).symm)
  obtain ⟨t', ht', h'⟩ := h₂.putCookie hk rfl
  refine ⟨t', ?_, h'⟩
  rw [DestroyEnv.releaseSegment, if_pos hfull, hk]
  exact ht'

theorem releaseSegments (h : Inv n t (segs' ++ segs) queues) (hfull : ∀ seg ∈ segs', seg.Full)
    (hquiet : ∀ gref ∈ segs'.flatMap UserRegionSegment.refs,
      env.atQuery gref = false ∧ env.atEnd gref = false) :
    ∃ t', env.releaseSegments segs' t = some t' ∧ Inv n t' segs queues := by
  induction segs' generalizing t with
  | nil => exact ⟨t, rfl, h⟩
  | cons seg segs' ih =>
      rw [List.flatMap_cons] at hquiet
      obtain ⟨t₁, ht₁, h₁⟩ := h.releaseSegment (hfull seg List.mem_cons_self) fun gref hgref =>
        hquiet gref (List.mem_append_left _ hgref)
      obtain ⟨t₂, ht₂, h₂⟩ := ih h₁ (fun seg hseg => hfull seg (List.mem_cons_of_mem _ hseg))
        fun gref hgref => hquiet gref (List.mem_append_right _ hgref)
      refine ⟨t₂, ?_, h₂⟩
      rw [DestroyEnv.releaseSegments, ht₁]
      exact ht₂

end Inv

/-! ## What stays mapped -/

/-- A loop that changes the entry of each reference of a list. -/
theorem access_foldl {σ : Type*} {a : σ → ℕ → Access} {op : σ → ℕ → σ} {f : ℕ → Access}
    (hop : ∀ s gref, a (op s gref) = Function.update (a s) gref (f gref))
    (grefs : List ℕ) (s : σ) (gref : ℕ) :
    a (grefs.foldl op s) gref = if gref ∈ grefs then f gref else a s gref := by
  induction grefs generalizing s with
  | nil => rfl
  | cons gref' grefs ih =>
      rw [List.foldl_cons, ih, hop]
      by_cases hmem : gref ∈ grefs
      · rw [if_pos hmem, if_pos (List.mem_cons_of_mem _ hmem)]
      · rw [if_neg hmem]
        by_cases heq : gref = gref'
        · subst gref'
          rw [Function.update_self, if_pos List.mem_cons_self]
        · rw [Function.update_of_ne heq, if_neg (by simp [heq, hmem])]

namespace DestroyEnv

variable {env : DestroyEnv} {t t' : Table} {seg : UserRegionSegment} {segs : List UserRegionSegment}

/-- The entry of a reference that was to be released. -/
def after (env : DestroyEnv) (gref : ℕ) : Access :=
  if env.atQuery gref = true ∨ env.atEnd gref = true then .mapped else .ended

theorem access_releasePage (k : ℕ) (t : Table) (gref : ℕ) :
    (env.releasePage k t gref).access = Function.update t.access gref (env.after gref) := by
  unfold releasePage after
  cases env.atQuery gref <;> cases env.atEnd gref <;> rfl

theorem access_releasePart (k : ℕ) (t : Table) (gref : ℕ) :
    (env.releasePart k t gref).access = Function.update t.access gref (env.after gref) := by
  unfold releasePart after
  cases env.atQuery gref <;> cases env.atEnd gref <;> rfl

theorem access_releaseSegment (h : env.releaseSegment seg t = some t') (gref : ℕ) :
    t'.access gref = if gref ∈ seg.refs then env.after gref else t.access gref := by
  unfold releaseSegment at h
  split at h
  · obtain ⟨k, -, hput⟩ := Option.bind_eq_some_iff.1 h
    unfold Table.putCookie at hput
    split at hput
    · cases hput
      show (seg.allGref.foldl _ (seg.grefList.foldl _ t)).access gref = _
      rw [access_foldl (a := Table.access) (access_releasePart k),
        access_foldl (a := Table.access) (access_releasePage k)]
      unfold UserRegionSegment.refs
      by_cases hparts : gref ∈ seg.allGref <;> by_cases hpages : gref ∈ seg.grefList <;>
        simp [hparts, hpages]
    · cases hput
  · cases h

theorem access_releaseSegments (h : env.releaseSegments segs t = some t') (gref : ℕ) :
    t'.access gref =
      if gref ∈ segs.flatMap UserRegionSegment.refs then env.after gref else t.access gref := by
  induction segs generalizing t with
  | nil => cases h; rfl
  | cons seg segs ih =>
      obtain ⟨t₁, ht₁, hrest⟩ := Option.bind_eq_some_iff.1 h
      rw [ih hrest, access_releaseSegment ht₁, List.flatMap_cons]
      by_cases hseg : gref ∈ seg.refs <;>
        by_cases hsegs : gref ∈ segs.flatMap UserRegionSegment.refs <;>
        simp only [hseg, hsegs, List.mem_append, if_true, if_false, or_true, or_false]

/-- A segment without a cookie, or one that was not granted in full, is not released. -/
theorem full_of_releaseSegments (h : env.releaseSegments segs t = some t') :
    ∀ seg ∈ segs, seg.Full := by
  induction segs generalizing t with
  | nil => exact nofun
  | cons seg segs ih =>
      obtain ⟨t₁, ht₁, hrest⟩ := Option.bind_eq_some_iff.1 h
      intro seg' hseg'
      rcases List.mem_cons.1 hseg' with rfl | hseg'
      · by_contra hfull
        rw [releaseSegment, if_neg hfull] at ht₁
        cases ht₁
      · exact ih hrest seg' hseg'

end DestroyEnv

end Xen2mx.Grants
