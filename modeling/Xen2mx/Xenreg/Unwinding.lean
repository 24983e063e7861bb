/-
# `Xen2mx.Xenreg.Unwinding` — what a registration that fails leaves behind

`omx_xen_register_user_segment` takes, one after the other,

    gref_list    map    unmap    page_list    nr_pages ballooned pages
    an area of virtual memory and a grant for each part of the list
    a grant for each page

and all its errors jump to the end of the function, where a line is printed.  By then the segment
has the offset, the references and the parts of the request.  Nothing is left behind if nothing was
taken: the region is not there, or the first array that is longer than 0 cannot be allocated.

`omx_xen_deregister_user_segment` takes what to unmap from the segment.  It does not look at how the
pages fare, and stops at the first part that the hypervisor does not unmap.

**Proved here.**

    nothing is taken, or all goes well, or something is lost                 (`register_cases`)
    what was mapped is unmapped once, if the hypervisor unmaps everything    (`Mapped.deregister`)
    a registration that fails leaves the region as it was, with nothing
        taken, and after one that succeeds all is unmapped once
        ⟺  nothing is taken and the segment had the fields already, or it
            succeeds and the hypervisor unmaps every page and part           (`xenRegister_iff`)
    no memory for the second array: the first is lost                        (`xenRegister_lost`)
-/
import Xen2mx.Lib.Ledger
import Xen2mx.Xenreg.Backend

namespace Xen2mx.Xenreg

/-! ## Effects -/

/-- The arrays of a segment. -/
inductive Buffer where
  | grefList | map | unmap | pageList
  deriving DecidableEq, Repr

/-- What a segment can hold.  The parts of its list and its pages have the numbers that they have in
the segment, and their grants the handles of the hypervisor. -/
inductive Lease where
  | buffer (b : Buffer)
  | ballooned
  | area (k : ℕ)
  | part (k handle : ℕ)
  | page (i handle : ℕ)
  deriving DecidableEq, Repr

inductive Effect where
  | kzalloc (b : Buffer)
  | kfree (b : Buffer)
  | allocXenballoonedPages
  | freeXenballoonedPages
  | allocVmArea (k : ℕ)
  | freeVmArea (k : ℕ)
  | mapPart (k handle : ℕ)
  | unmapPart (k handle : ℕ)
  | mapPage (i handle : ℕ)
  | unmapPage (i handle : ℕ)
  deriving DecidableEq, Repr

abbrev Trace := List Effect

def Effect.entry : Effect → Ledger.Entry Lease
  | .kzalloc b => .take (.buffer b)
  | .kfree b => .give (.buffer b)
  | .allocXenballoonedPages => .take .ballooned
  | .freeXenballoonedPages => .give .ballooned
  | .allocVmArea k => .take (.area k)
  | .freeVmArea k => .give (.area k)
  | .mapPart k handle => .take (.part k handle)
  | .unmapPart k handle => .give (.part k handle)
  | .mapPage i handle => .take (.page i handle)
  | .unmapPage i handle => .give (.page i handle)

/-- The grants that are mapped. -/
def mapped (t : Trace) : List Lease :=
  t.filterMap fun
    | .mapPart k handle => some (.part k handle)
    | .mapPage i handle => some (.page i handle)
    | _ => none

/-- The grants that are unmapped. -/
def unmapped (t : Trace) : List Lease :=
  t.filterMap fun
    | .unmapPart k handle => some (.part k handle)
    | .unmapPage i handle => some (.page i handle)
    | _ => none

/-- An array of no entries takes no memory. -/
def kzallocArray (b : Buffer) (n : ℕ) : Trace := if n = 0 then [] else [.kzalloc b]

def kfreeArray (b : Buffer) (n : ℕ) : Trace := if n = 0 then [] else [.kfree b]

/-! ## Segments -/

/-- `struct omx_xen_user_region_segment`.  Of `map`, `gref_list` and `pages` it says whether they
are set, and so for each entry of `vm_gref`; of `unmap` it has the handles. -/
structure XenUserRegionSegment where
  grefOffset : ℕ
  allGref : ℕ → ℕ
  nrParts : ℕ
  nrParts_le : nrParts ≤ omxXenGrantPagesMax
  vmGref : ℕ → Bool
  allHandle : ℕ → ℕ
  grefList : Bool
  nrPages : ℕ
  firstPageOffset : ℕ
  map : Bool
  unmap : Option (List ℕ)
  pages : Bool
  length : ℕ

/-- `struct omx_xen_user_region`. -/
structure XenUserRegion where
  totalLength : ℕ
  segments : List XenUserRegionSegment

/-- How `omx_xen_accept_gref_list` fares with a part. -/
inductive AcceptPart where
  /-- `alloc_vm_area` fails -/
  | noArea
  /-- the hypercall fails -/
  | failed
  /-- its status is not zero -/
  | refused
  | mapped (handle : ℕ)
  deriving DecidableEq

/-- What the allocators, the hypervisor and the guest do for a registration. -/
structure RegisterEnv where
  grefListMemory : Bool
  mapMemory : Bool
  unmapMemory : Bool
  pageListMemory : Bool
  ballooned : Bool
  accept : ℕ → AcceptPart
  /-- the list of references: the four bytes at an offset of a part -/
  word : ℕ → ℕ → ℕ
  /-- `gnttab_map_refs` returns 0 -/
  mapRefs : Bool
  /-- the handle of a page, if it is mapped -/
  mapPage : ℕ → Option ℕ

/-- The handle before there is one, -1. -/
def noHandle : ℕ := 2 ^ 32 - 1

/-! ## Registering -/

namespace XenUserRegionSegment

variable (e : RegisterEnv) (seg : XenUserRegionSegment) (req : RegisterSegment)

/-- What is written before anything is allocated. -/
def describe (hparts : req.nrParts ≤ omxXenGrantPagesMax) : XenUserRegionSegment :=
  { seg with
    grefOffset := req.grefOffset
    allGref := fun k => if k < req.nrParts then req.gref k else seg.allGref k
    nrParts := req.nrParts
    nrParts_le := hparts }

/-- `omx_xen_accept_gref_list` for `n` parts, from the part `k` on.  A handle is returned as an
`int`, and an error if this is negative. -/
def acceptParts : (n k : ℕ) → XenUserRegionSegment → XenUserRegionSegment × Trace × Ret
  | 0, _, seg => (seg, [], none)
  | n + 1, k, seg =>
      let area := { seg with vmGref := Function.update seg.vmGref k true }
      match e.accept k with
      | .noArea => (seg, [], some .enomem)
      | .failed => (area, [.allocVmArea k], some .enosys)
      | .refused => (area, [.allocVmArea k], some .grant)
      | .mapped handle =>
          let part := { area with allHandle := Function.update seg.allHandle k handle }
          if handle < 2 ^ 31 then
            let (seg', t, ret) := acceptParts n (k + 1) part
            (seg', .allocVmArea k :: .mapPart k handle :: t, ret)
          else (part, [.allocVmArea k, .mapPart k handle], some .grant)

/-- The loop over the status of the pages, from the page `i` on: the handles in `unmap`, and whether
it comes to its end. -/
def readHandles : (n i : ℕ) → List ℕ × Bool
  | 0, _ => ([], true)
  | n + 1, i =>
      match e.mapPage i with
      | none => (List.replicate (n + 1) noHandle, false)
      | some handle => (handle :: (readHandles n (i + 1)).1, (readHandles n (i + 1)).2)

/-- `gnttab_map_refs`: the pages that it maps. -/
def mapPages (n : ℕ) : Trace := (List.range n).filterMap fun i => (e.mapPage i).map (.mapPage i)

/-- `omx_xen_register_user_segment`, once it has found the segment.  An allocation of no bytes, of
no pages, and a batch of no grants always succeed. -/
def register (hparts : req.nrParts ≤ omxXenGrantPagesMax) :
    Except Fault (Ret × XenUserRegionSegment × Trace) :=
  let seg := seg.describe req hparts
  let pages := req.nrPages ≠ 0
  let list := kzallocArray .grefList req.nrParts
  let arrays := list ++ kzallocArray .map req.nrPages ++ kzallocArray .unmap req.nrPages ++
    kzallocArray .pageList req.nrPages
  if req.nrParts ≠ 0 ∧ ¬ e.grefListMemory then .ok (some .enomem, seg, [])
  else if pages ∧ ¬ e.mapMemory then .ok (some .enomem, seg, list)
  else if pages ∧ ¬ e.unmapMemory then
    .ok (some .enomem, seg, list ++ kzallocArray .map req.nrPages)
  else if pages ∧ ¬ e.pageListMemory then
    .ok (some .enomem, seg,
      list ++ kzallocArray .map req.nrPages ++ kzallocArray .unmap req.nrPages)
  else if pages ∧ ¬ e.ballooned then .ok (some .enomem, seg, arrays)
  else
    let taken := arrays ++ if pages then [.allocXenballoonedPages] else []
    let (seg, t, ret) := acceptParts e req.nrParts 0 seg
    if ret ≠ none then .ok (ret, seg, taken ++ t)
    else
      let seg := { seg with
        grefList := true
        nrPages := req.nrPages
        firstPageOffset := req.firstPageOffset
        map := true
        unmap := some (List.replicate req.nrPages noHandle) }
      (readGrefs ⟨some, e.word⟩ (List.range req.nrParts) seg.grefOffset req.nrGrefs req.nrPages
          ⟨0, 0, 0⟩).bind fun _ =>
        let t := taken ++ t ++ mapPages e req.nrPages
        let (handles, done) := readHandles e req.nrPages 0
        if pages ∧ ¬ e.mapRefs then .ok (some .efault, seg, t)
        else if ¬ done then .ok (some .einval, { seg with unmap := some handles }, t)
        else
          .ok (none, { seg with unmap := some handles, pages := true, length := req.length }, t)

end XenUserRegionSegment

/-- `omx_xen_register_user_segment`; `regions` is `endpoint->xen_regions`. -/
def xenRegisterUserSegment (regions : ℕ → Option XenUserRegion) (e : RegisterEnv)
    (req : RegisterSegment) : Except Fault (Ret × (ℕ → Option XenUserRegion) × Trace) :=
  if hparts : req.nrParts ≤ omxXenGrantPagesMax then
    check (req.rid < omxUserRegionMax) .xenRegions <|
      match regions req.rid with
      | none => .ok (some .einval, regions, [])
      | some region =>
          match region.segments[req.sid]? with
          | none => .error .segments
          | some seg =>
              (seg.register e req hparts).bind fun (ret, seg', t) =>
                .ok (ret, Function.update regions req.rid (some {
                  segments := region.segments.set req.sid seg'
                  totalLength :=
                    if ret = none then region.totalLength + req.length
                    else region.totalLength }), t)
  else .error .gref

/-! ## Deregistering -/

/-- What the hypervisor unmaps. -/
structure DeregisterEnv where
  page : ℕ → Bool
  part : ℕ → Bool

namespace XenUserRegionSegment

variable (u : DeregisterEnv) (seg : XenUserRegionSegment)

/-- The loop over `seg->vm_gref`, from the part `k` on with `n` parts to go. -/
def unmapParts : (n k : ℕ) → Except Fault (Ret × Trace)
  | 0, _ => .ok (none, [])
  | n + 1, k =>
      check (k < omxXenGrantPagesMax) .gref <|
        check (seg.vmGref k) .nullPointer <|
          if u.part k then
            (unmapParts n (k + 1)).bind fun (ret, t) =>
              .ok (ret, .unmapPart k (seg.allHandle k) :: t)
          else .ok (some .grant, [])

/-- `gnttab_unmap_refs`: the pages that it unmaps, from the page `i` on. -/
def unmapPages : (i : ℕ) → List ℕ → Trace
  | _, [] => []
  | i, handle :: handles =>
      if u.page i then .unmapPage i handle :: unmapPages (i + 1) handles
      else unmapPages (i + 1) handles

/-- `omx_xen_deregister_user_segment`, once it has found the segment. -/
def deregister : Except Fault (Ret × Trace) :=
  match seg.unmap with
  | none => .ok (some .einval, [])
  | some handles =>
      let t := unmapPages u 0 (handles.take seg.nrPages)
      (seg.unmapParts u seg.nrParts 0).bind fun (ret, t') =>
        if ret ≠ none then .ok (ret, t ++ t')
        else
          .ok (none, t ++ t' ++ (List.range seg.nrParts).map .freeVmArea ++
            kfreeArray .map seg.nrPages ++ kfreeArray .unmap seg.nrPages ++
            kfreeArray .grefList seg.nrParts ++
            (if seg.nrPages ≠ 0 then [.freeXenballoonedPages] else []) ++
            kfreeArray .pageList seg.nrPages)

end XenUserRegionSegment

/-- `omx_xen_deregister_user_segment`. -/
def xenDeregisterUserSegment (regions : ℕ → Option XenUserRegion) (u : DeregisterEnv)
    (rid sid : ℕ) : Except Fault (Ret × Trace) :=
  check (rid < omxUserRegionMax) .xenRegions <|
    match regions rid with
    | none => .ok (none, [])
    | some region =>
        match region.segments[sid]? with
        | none => .error .segments
        | some seg => seg.deregister u

/-! ## What is claimed, and when it holds -/

/-- A registration comes to its end.  If it fails the regions are what they were, and nothing is
held; if it succeeds, what it mapped is unmapped when the segment is deregistered, each grant
once. -/
def Unwinds (regions : ℕ → Option XenUserRegion) (e : RegisterEnv) (u : DeregisterEnv)
    (req : RegisterSegment) : Prop :=
  ∃ ret regions' t, xenRegisterUserSegment regions e req = .ok (ret, regions', t) ∧
    (ret ≠ none → regions' = regions ∧ Ledger.Settles Effect.entry [] t) ∧
    (ret = none → ∃ ret' t', xenDeregisterUserSegment regions' u req.rid req.sid = .ok (ret', t') ∧
      (unmapped t').Perm (mapped t))

/-- The segment has what is written of the request before anything is allocated. -/
def XenUserRegionSegment.Describes (seg : XenUserRegionSegment) (req : RegisterSegment) : Prop :=
  seg.grefOffset = req.grefOffset ∧ seg.nrParts = req.nrParts ∧
    ∀ k < req.nrParts, seg.allGref k = req.gref k

/-- There is no memory for the first array that has an entry. -/
def RegisterEnv.TakesNothing (e : RegisterEnv) (req : RegisterSegment) : Prop :=
  req.nrParts ≠ 0 ∧ e.grefListMemory = false ∨
    req.nrParts = 0 ∧ req.nrPages ≠ 0 ∧ e.mapMemory = false

/-- Every allocation and every grant succeeds, and the entries are in the list. -/
def RegisterEnv.Succeeds (e : RegisterEnv) (req : RegisterSegment) : Prop :=
  (req.nrParts ≠ 0 → e.grefListMemory = true) ∧
    (req.nrPages ≠ 0 → e.mapMemory = true ∧ e.unmapMemory = true ∧ e.pageListMemory = true ∧
      e.ballooned = true ∧ e.mapRefs = true) ∧
    (∀ k < req.nrParts, ∃ handle < 2 ^ 31, e.accept k = .mapped handle) ∧
    (∀ i < req.nrPages, (e.mapPage i).isSome) ∧ req.ListFits

/-- The hypervisor unmaps everything. -/
def DeregisterEnv.Unmaps (u : DeregisterEnv) (req : RegisterSegment) : Prop :=
  (∀ i < req.nrPages, u.page i = true) ∧ ∀ k < req.nrParts, u.part k = true

/-- The request is in the bounds of the arrays, and if there is the region, nothing is taken and
nothing new written, or everything goes well. -/
def Clean (regions : ℕ → Option XenUserRegion) (e : RegisterEnv) (u : DeregisterEnv)
    (req : RegisterSegment) : Prop :=
  req.nrParts ≤ omxXenGrantPagesMax ∧ req.rid < omxUserRegionMax ∧
    ∀ region ∈ regions req.rid, ∃ seg ∈ region.segments[req.sid]?,
      e.TakesNothing req ∧ seg.Describes req ∨ e.Succeeds req ∧ u.Unmaps req

/-! ## Traces -/

variable {t t' : Trace}

theorem mapped_append (t t' : Trace) : mapped (t ++ t') = mapped t ++ mapped t' :=
  List.filterMap_append

theorem unmapped_append (t t' : Trace) : unmapped (t ++ t') = unmapped t ++ unmapped t' :=
  List.filterMap_append

/-- All effects take something. -/
def Takes (t : Trace) : Prop := ∀ x ∈ t, ∃ r, x.entry = .take r

theorem Takes.append (h : Takes t) (h' : Takes t') : Takes (t ++ t') := by
  intro x hx
  rcases List.mem_append.1 hx with hx | hx
  · exact h x hx
  · exact h' x hx

theorem takes_kzallocArray (b : Buffer) (n : ℕ) : Takes (kzallocArray b n) := by
  unfold kzallocArray
  split
  · exact nofun
  · intro x hx
    obtain rfl := List.mem_singleton.1 hx
    exact ⟨_, rfl⟩

/-- What only takes is held at the end. -/
theorem Takes.not_settles (h : Takes t) (hne : t ≠ []) : ¬ Ledger.Settles Effect.entry [] t := by
  intro hsettles
  obtain ⟨x, hx⟩ := List.exists_mem_of_ne_nil t hne
  obtain ⟨r, hr⟩ := h x hx
  obtain ⟨y, hy, hgive⟩ := hsettles.exists_give hx hr
  obtain ⟨r', hr'⟩ := h y hy
  cases hr'.symm.trans hgive

theorem mapped_kzallocArray (b : Buffer) (n : ℕ) : mapped (kzallocArray b n) = [] := by
  unfold kzallocArray
  split <;> rfl

theorem unmapped_kfreeArray (b : Buffer) (n : ℕ) : unmapped (kfreeArray b n) = [] := by
  unfold kfreeArray
  split <;> rfl

theorem unmapped_freeVmArea (ks : List ℕ) : unmapped (ks.map Effect.freeVmArea) = [] := by
  rw [unmapped, List.filterMap_map]
  exact List.filterMap_eq_nil_iff.2 fun _ _ => rfl

/-! ## Parts and pages -/

namespace XenUserRegionSegment

variable {e : RegisterEnv} {u : DeregisterEnv} {seg seg' : XenUserRegionSegment}
  {req : RegisterSegment} {n k i : ℕ}

/-- The grants of the parts from `k` on. -/
def partLeases (seg : XenUserRegionSegment) (k n : ℕ) : List Lease :=
  (List.range' k n).map fun j => .part j (seg.allHandle j)

/-- The grants of the pages from `i` on. -/
def pageLeases (i : ℕ) (handles : List ℕ) : List Lease :=
  (handles.zipIdx i).map fun x => .page x.2 x.1

/-- The loop comes to its end if all parts are mapped; their areas and handles are in the segment
then. -/
theorem acceptParts_spec (e : RegisterEnv) (n k : ℕ) (seg : XenUserRegionSegment) :
    ∃ seg' t ret, acceptParts e n k seg = (seg', t, ret) ∧ Takes t ∧
      (ret = none ↔ ∀ j, k ≤ j → j < k + n → ∃ handle < 2 ^ 31, e.accept j = .mapped handle) ∧
      (ret = none → mapped t = seg'.partLeases k n ∧
        (∀ j, k ≤ j → j < k + n → seg'.vmGref j = true) ∧
        (∀ j < k, seg'.vmGref j = seg.vmGref j ∧ seg'.allHandle j = seg.allHandle j) ∧
        seg' = { seg with vmGref := seg'.vmGref, allHandle := seg'.allHandle }) := by
  induction n generalizing k seg with
  | zero =>
      refine ⟨seg, [], none, rfl, nofun, iff_of_true rfl fun j hj hj' => ?_,
        fun _ => ⟨rfl, ?_, ?_, rfl⟩⟩
      · omega
      · intro j hj hj'
        omega
      · exact fun j _ => ⟨rfl, rfl⟩
  | succ n ih =>
      have hfirst : k < k + (n + 1) := by omega
      rw [acceptParts]
      dsimp only
      cases haccept : e.accept k with
      | noArea =>
          refine ⟨_, _, _, rfl, nofun, iff_of_false nofun fun hall => ?_, nofun⟩
          obtain ⟨handle, -, hmapped⟩ := hall k le_rfl hfirst
          cases haccept.symm.trans hmapped
      | failed =>
          refine ⟨_, _, _, rfl, ?_, iff_of_false nofun fun hall => ?_, nofun⟩
          · intro x hx
            obtain rfl := List.mem_singleton.1 hx
            exact ⟨_, rfl⟩
          · obtain ⟨handle, -, hmapped⟩ := hall k le_rfl hfirst
            cases haccept.symm.trans hmapped
      | refused =>
          refine ⟨_, _, _, rfl, ?_, iff_of_false nofun fun hall => ?_, nofun⟩
          · intro x hx
            obtain rfl := List.mem_singleton.1 hx
            exact ⟨_, rfl⟩
          · obtain ⟨handle, -, hmapped⟩ := hall k le_rfl hfirst
            cases haccept.symm.trans hmapped
      | mapped handle =>
          dsimp only
          have htakes (t : Trace) (ht : Takes t) :
              Takes (.allocVmArea k :: .mapPart k handle :: t) := by
            intro x hx
            obtain rfl | hx := List.mem_cons.1 hx
            · exact ⟨_, rfl⟩
            · obtain rfl | hx := List.mem_cons.1 hx
              · exact ⟨_, rfl⟩
              · exact ht x hx
          split
          · rename_i hsmall
            obtain ⟨seg', t, ret, hrest, ht, hret, hok⟩ := ih (k + 1) _
            rw [hrest]
            refine ⟨_, _, _, rfl, htakes t ht, hret.trans ⟨fun hall j hj hj' => ?_,
              fun hall j hj hj' => hall j (by omega) (by omega)⟩, fun hnone => ?_⟩
            · rcases hj.eq_or_lt with rfl | hlt
              · exact ⟨handle, hsmall, haccept⟩
              · exact hall j hlt (by omega)
            · obtain ⟨hmapped, harea, hkeep, hframe⟩ := hok hnone
              have hk : seg'.vmGref k = true :=
                (hkeep k (Nat.lt_succ_self k)).1.trans (Function.update_self ..)
              have hkhandle : seg'.allHandle k = handle :=
                (hkeep k (Nat.lt_succ_self k)).2.trans (Function.update_self ..)
              refine ⟨?_, fun j hj hj' => ?_, fun j hj => ?_, hframe⟩
              · rw [partLeases, List.range'_succ, List.map_cons, hkhandle]
                exact congrArg (Lease.part k handle :: ·) hmapped
              · rcases hj.eq_or_lt with rfl | hlt
                · exact hk
                · exact harea j hlt (by omega)
              · obtain ⟨hj₁, hj₂⟩ := hkeep j (by omega)
                exact ⟨hj₁.trans (Function.update_of_ne hj.ne ..),
                  hj₂.trans (Function.update_of_ne hj.ne ..)⟩
          · rename_i hlarge
            refine ⟨_, _, _, rfl, htakes [] nofun, iff_of_false nofun fun hall => ?_, nofun⟩
            obtain ⟨handle', hsmall, hmapped⟩ := hall k le_rfl hfirst
            cases haccept.symm.trans hmapped
            exact hlarge hsmall

theorem takes_mapPages (e : RegisterEnv) (n : ℕ) : Takes (mapPages e n) := by
  intro x hx
  obtain ⟨i, -, hi⟩ := List.mem_filterMap.1 hx
  obtain ⟨handle, -, rfl⟩ := Option.map_eq_some_iff.1 hi
  exact ⟨_, rfl⟩

/-- The loop over the statuses comes to its end if all pages are mapped, and has their handles. -/
theorem readHandles_spec (e : RegisterEnv) (n i : ℕ) :
    ((readHandles e n i).2 = true ↔ ∀ j, i ≤ j → j < i + n → (e.mapPage j).isSome) ∧
      ((readHandles e n i).2 = true → (readHandles e n i).1.length = n ∧
        mapped ((List.range' i n).filterMap fun j => (e.mapPage j).map (.mapPage j)) =
          pageLeases i (readHandles e n i).1) := by
  induction n generalizing i with
  | zero =>
      refine ⟨iff_of_true rfl fun j hj hj' => ?_, fun _ => ⟨rfl, rfl⟩⟩
      omega
  | succ n ih =>
      rw [readHandles]
      cases hpage : e.mapPage i with
      | none =>
          refine ⟨iff_of_false nofun fun hall => ?_, nofun⟩
          have hsome := hall i le_rfl (by omega)
          rw [hpage] at hsome
          cases hsome
      | some handle =>
          obtain ⟨hiff, hok⟩ := ih (i + 1)
          refine ⟨hiff.trans ⟨fun hall j hj hj' => ?_, fun hall j hj hj' =>
            hall j (by omega) (by omega)⟩, fun hdone => ?_⟩
          · rcases hj.eq_or_lt with rfl | hlt
            · rw [hpage]
              rfl
            · exact hall j hlt (by omega)
          · obtain ⟨hlen, hmapped⟩ := hok hdone
            refine ⟨congrArg Nat.succ hlen, ?_⟩
            rw [List.range'_succ, List.filterMap_cons_some (by rw [hpage]; rfl), pageLeases,
              List.zipIdx_cons, List.map_cons]
            exact congrArg (Lease.page i handle :: ·) hmapped

/-! ## One registration -/

theorem takes_ballooned (c : Prop) [Decidable c] :
    Takes (if c then [.allocXenballoonedPages] else []) := by
  split
  · intro x hx
    obtain rfl := List.mem_singleton.1 hx
    exact ⟨_, rfl⟩
  · exact nofun

/-- The list is read to its end if all entries are in it. -/
theorem readGrefs_isOk_iff (g : Guest ℕ) (req : RegisterSegment) :
    (∃ grefs, readGrefs g (List.range req.nrParts) req.grefOffset req.nrGrefs req.nrPages
      ⟨0, 0, 0⟩ = .ok grefs) ↔ req.ListFits := by
  have hspares : Spares (fun _ => True) (readGrefs g (List.range req.nrParts) req.grefOffset
      req.nrGrefs req.nrPages ⟨0, 0, 0⟩) ↔ req.ListFits :=
    spares_readGrefs trivial trivial List.length_range
  rw [← hspares]
  constructor
  · rintro ⟨grefs, hok⟩
    rw [hok]
    exact spares_ok _
  · intro h
    cases hread : readGrefs g (List.range req.nrParts) req.grefOffset req.nrGrefs req.nrPages
        ⟨0, 0, 0⟩ with
    | error f =>
        rw [hread] at h
        exact absurd trivial (spares_error.1 h)
    | ok grefs => exact ⟨grefs, rfl⟩

/-- What a registration that succeeds leaves in the segment. -/
structure Mapped (seg' : XenUserRegionSegment) (req : RegisterSegment) (t : Trace) : Prop where
  nrPages : seg'.nrPages = req.nrPages
  nrParts : seg'.nrParts = req.nrParts
  areas : ∀ k < req.nrParts, seg'.vmGref k = true
  handles : ∃ handles, seg'.unmap = some handles ∧ handles.length = req.nrPages ∧
    mapped t = seg'.partLeases 0 req.nrParts ++ pageLeases 0 handles

/-- A registration that comes to no end, or to one with an error and something taken. -/
def Loses (r : Except Fault (Ret × XenUserRegionSegment × Trace)) : Prop :=
  ∀ ret seg' t, r = .ok (ret, seg', t) → ret ≠ none ∧ ¬ Ledger.Settles Effect.entry [] t

theorem loses_ok {err : Errno} (h : Takes t) (hne : t ≠ []) : Loses (.ok (some err, seg', t)) := by
  rintro ret seg'' t' heq
  cases heq
  exact ⟨nofun, h.not_settles hne⟩

theorem kzallocArray_ne_nil (b : Buffer) (h : n ≠ 0) : kzallocArray b n ≠ [] := by
  rw [kzallocArray, if_neg h]
  exact nofun

/-- Nothing is taken, or all goes well, or something is lost. -/
theorem register_cases (e : RegisterEnv) (seg : XenUserRegionSegment) (req : RegisterSegment)
    (hparts : req.nrParts ≤ omxXenGrantPagesMax) :
    (e.TakesNothing req ∧ ¬ e.Succeeds req ∧
      ∃ err, seg.register e req hparts = .ok (some err, seg.describe req hparts, [])) ∨
    (e.Succeeds req ∧ ¬ e.TakesNothing req ∧
      ∃ seg' t, seg.register e req hparts = .ok (none, seg', t) ∧ Mapped seg' req t) ∨
    (¬ e.TakesNothing req ∧ ¬ e.Succeeds req ∧ Loses (seg.register e req hparts)) := by
  rw [register]
  dsimp only
  have hlist := takes_kzallocArray .grefList req.nrParts
  have hmap := takes_kzallocArray .map req.nrPages
  have hunmap := takes_kzallocArray .unmap req.nrPages
  have hpage := takes_kzallocArray .pageList req.nrPages
  by_cases h₁ : req.nrParts ≠ 0 ∧ ¬ e.grefListMemory
  · rw [if_pos h₁]
    exact .inl ⟨.inl ⟨h₁.1, Bool.eq_false_iff.2 h₁.2⟩, fun h => h₁.2 (h.1 h₁.1), _, rfl⟩
  rw [if_neg h₁]
  by_cases h₂ : req.nrPages ≠ 0 ∧ ¬ e.mapMemory
  · rw [if_pos h₂]
    have hfails : ¬ e.Succeeds req := fun h => h₂.2 (h.2.1 h₂.1).1
    by_cases hzero : req.nrParts = 0
    · refine .inl ⟨.inr ⟨hzero, h₂.1, Bool.eq_false_iff.2 h₂.2⟩, hfails, .enomem, ?_⟩
      rw [kzallocArray, if_pos hzero]
    · refine .inr (.inr ⟨?_, hfails, loses_ok hlist (kzallocArray_ne_nil _ hzero)⟩)
      rintro (h | h)
      · exact h₁ ⟨h.1, Bool.eq_false_iff.1 h.2⟩
      · exact hzero h.1
  rw [if_neg h₂]
  have htakes : ¬ e.TakesNothing req := by
    rintro (h | h)
    · exact h₁ ⟨h.1, Bool.eq_false_iff.1 h.2⟩
    · exact h₂ ⟨h.2.1, Bool.eq_false_iff.1 h.2.2⟩
  by_cases h₃ : req.nrPages ≠ 0 ∧ ¬ e.unmapMemory
  · rw [if_pos h₃]
    refine .inr (.inr ⟨htakes, fun h => h₃.2 (h.2.1 h₃.1).2.1, loses_ok (hlist.append hmap) ?_⟩)
    exact List.append_ne_nil_of_right_ne_nil _ (kzallocArray_ne_nil _ h₃.1)
  rw [if_neg h₃]
  by_cases h₄ : req.nrPages ≠ 0 ∧ ¬ e.pageListMemory
  · rw [if_pos h₄]
    refine .inr (.inr ⟨htakes, fun h => h₄.2 (h.2.1 h₄.1).2.2.1,
      loses_ok ((hlist.append hmap).append hunmap) ?_⟩)
    exact List.append_ne_nil_of_right_ne_nil _ (kzallocArray_ne_nil _ h₄.1)
  rw [if_neg h₄]
  have harrays := ((hlist.append hmap).append hunmap).append hpage
  by_cases h₅ : req.nrPages ≠ 0 ∧ ¬ e.ballooned
  · rw [if_pos h₅]
    refine .inr (.inr ⟨htakes, fun h => h₅.2 (h.2.1 h₅.1).2.2.2.1, loses_ok harrays ?_⟩)
    exact List.append_ne_nil_of_right_ne_nil _ (kzallocArray_ne_nil _ h₅.1)
  rw [if_neg h₅]
  have htaken := harrays.append (takes_ballooned (req.nrPages ≠ 0))
  have hpresent (h : req.nrPages ≠ 0) :
      kzallocArray .grefList req.nrParts ++ kzallocArray .map req.nrPages ++
        kzallocArray .unmap req.nrPages ++ kzallocArray .pageList req.nrPages ++
        (if req.nrPages ≠ 0 then [Effect.allocXenballoonedPages] else []) ≠ [] := by
    rw [if_pos h]
    exact List.append_ne_nil_of_right_ne_nil _ nofun
  have hnone : mapped (kzallocArray .grefList req.nrParts ++ kzallocArray .map req.nrPages ++
      kzallocArray .unmap req.nrPages ++ kzallocArray .pageList req.nrPages ++
      (if req.nrPages ≠ 0 then [Effect.allocXenballoonedPages] else [])) = [] := by
    simp only [mapped_append, mapped_kzallocArray, List.nil_append]
    split <;> rfl
  obtain ⟨seg₁, t, ret, haccept, ht, hret, hok⟩ :=
    acceptParts_spec e req.nrParts 0 (seg.describe req hparts)
  simp only [Nat.zero_le, true_imp_iff, Nat.zero_add] at hret hok
  rw [haccept]
  dsimp only
  cases ret with
  | some err =>
      -- a part is not mapped: the list is held
      rw [if_pos nofun]
      have hall : ¬ ∀ j < req.nrParts, ∃ handle < 2 ^ 31, e.accept j = .mapped handle :=
        fun h => nomatch hret.2 h
      have hparts : req.nrParts ≠ 0 := fun h => hall fun j hj => by omega
      refine .inr (.inr ⟨htakes, fun h => hall h.2.2.1, loses_ok (htaken.append ht) ?_⟩)
      simp only [List.append_assoc]
      exact List.append_ne_nil_of_left_ne_nil (kzallocArray_ne_nil _ hparts) _
  | none =>
      obtain ⟨hmapped, hareas, -, hframe⟩ := hok rfl
      rw [if_neg (not_not.2 rfl)]
      have hoffset : seg₁.grefOffset = req.grefOffset := by rw [hframe]; rfl
      have hnrParts : seg₁.nrParts = req.nrParts := by rw [hframe]; rfl
      rw [hoffset]
      cases hread : readGrefs ⟨some, e.word⟩ (List.range req.nrParts) req.grefOffset req.nrGrefs
          req.nrPages ⟨0, 0, 0⟩ with
      | error f =>
          refine .inr (.inr ⟨htakes, fun h => ?_, nofun⟩)
          obtain ⟨grefs, hgrefs⟩ := (readGrefs_isOk_iff ⟨some, e.word⟩ req).2 h.2.2.2.2
          cases hread.symm.trans hgrefs
      | ok grefs =>
          rw [ok_bind]
          have hfits := (readGrefs_isOk_iff ⟨some, e.word⟩ req).1 ⟨grefs, hread⟩
          obtain ⟨hdone, hhandles⟩ := readHandles_spec e req.nrPages 0
          simp only [Nat.zero_le, true_imp_iff, Nat.zero_add] at hdone
          have hall := (htaken.append ht).append (takes_mapPages e req.nrPages)
          by_cases h₆ : req.nrPages ≠ 0 ∧ ¬ e.mapRefs
          · rw [if_pos h₆]
            refine .inr (.inr ⟨htakes, fun h => h₆.2 (h.2.1 h₆.1).2.2.2.2, loses_ok hall ?_⟩)
            exact List.append_ne_nil_of_left_ne_nil
              (List.append_ne_nil_of_left_ne_nil (hpresent h₆.1) _) _
          rw [if_neg h₆]
          by_cases h₇ : (readHandles e req.nrPages 0).2 = true
          · obtain ⟨hlen, hpages⟩ := hhandles h₇
            rw [if_neg (not_not.2 h₇)]
            refine .inr (.inl ⟨⟨?_, ?_, hret.1 rfl, hdone.1 h₇, hfits⟩, htakes, _, _, rfl,
              ⟨rfl, hnrParts, hareas, _, rfl, hlen, ?_⟩⟩)
            · exact fun h => not_not.1 fun hno => h₁ ⟨h, hno⟩
            · exact fun h => ⟨not_not.1 fun hno => h₂ ⟨h, hno⟩, not_not.1 fun hno => h₃ ⟨h, hno⟩,
                not_not.1 fun hno => h₄ ⟨h, hno⟩, not_not.1 fun hno => h₅ ⟨h, hno⟩,
                not_not.1 fun hno => h₆ ⟨h, hno⟩⟩
            · rw [mapped_append, mapped_append, hnone, List.nil_append, hmapped, mapPages,
                List.range_eq_range', hpages]
              rfl
          · rw [if_pos h₇]
            have hpages : req.nrPages ≠ 0 := fun h => h₇ (hdone.2 fun j hj => by omega)
            refine .inr (.inr ⟨htakes, fun h => h₇ (hdone.2 h.2.2.2.1), loses_ok hall ?_⟩)
            exact List.append_ne_nil_of_left_ne_nil
              (List.append_ne_nil_of_left_ne_nil (hpresent hpages) _) _

/-! ## Deregistering what was registered -/

/-- No more pages are unmapped than there are, and all of them if the hypervisor does so. -/
theorem unmapPages_spec (u : DeregisterEnv) (i : ℕ) (handles : List ℕ) :
    (unmapped (unmapPages u i handles)).length ≤ handles.length ∧
      ((unmapped (unmapPages u i handles)).length = handles.length ↔
        ∀ j, i ≤ j → j < i + handles.length → u.page j = true) ∧
      ((∀ j, i ≤ j → j < i + handles.length → u.page j = true) →
        unmapped (unmapPages u i handles) = pageLeases i handles) := by
  induction handles generalizing i with
  | nil => exact ⟨le_rfl, iff_of_true rfl fun j hj hj' => absurd hj' hj.not_gt, fun _ => rfl⟩
  | cons handle handles ih =>
      obtain ⟨hle, hiff, heq⟩ := ih (i + 1)
      have hall : (∀ j, i ≤ j → j < i + (handle :: handles).length → u.page j = true) ↔
          u.page i = true ∧ ∀ j, i + 1 ≤ j → j < i + 1 + handles.length → u.page j = true := by
        rw [List.length_cons]
        constructor
        · exact fun h => ⟨h i le_rfl (by omega), fun j hj hj' => h j (by omega) (by omega)⟩
        · rintro ⟨hi, hrest⟩ j hj hj'
          rcases hj.eq_or_lt with rfl | hlt
          · exact hi
          · exact hrest j hlt (by omega)
      rw [hall, unmapPages]
      split
      · rename_i hi
        have hcons : unmapped (.unmapPage i handle :: unmapPages u (i + 1) handles) =
            .page i handle :: unmapped (unmapPages u (i + 1) handles) := rfl
        rw [hcons, List.length_cons, List.length_cons, and_iff_right hi, ← hiff]
        refine ⟨Nat.succ_le_succ hle, Nat.succ_inj, fun hlen => ?_⟩
        rw [heq (hiff.1 hlen), pageLeases, pageLeases, List.zipIdx_cons, List.map_cons]
      · rename_i hi
        refine ⟨hle.trans (Nat.le_succ _), iff_of_false (fun hlen => ?_) fun h => hi h.1,
          fun h => absurd h.1 hi⟩
        rw [List.length_cons] at hlen
        omega

/-- The parts are unmapped up to the first that the hypervisor does not unmap. -/
theorem unmapParts_spec (u : DeregisterEnv) (seg : XenUserRegionSegment) (n k : ℕ)
    (hle : k + n ≤ omxXenGrantPagesMax) (hareas : ∀ j, k ≤ j → j < k + n → seg.vmGref j = true) :
    ∃ ret t, seg.unmapParts u n k = .ok (ret, t) ∧ (unmapped t).length ≤ n ∧
      ((unmapped t).length = n ↔ ∀ j, k ≤ j → j < k + n → u.part j = true) ∧
      ((∀ j, k ≤ j → j < k + n → u.part j = true) → unmapped t = seg.partLeases k n) := by
  induction n generalizing k with
  | zero =>
      exact ⟨none, [], rfl, le_rfl, iff_of_true rfl fun j hj hj' => absurd hj' hj.not_gt,
        fun _ => rfl⟩
  | succ n ih =>
      rw [unmapParts, check_pos (by omega), check_pos (hareas k le_rfl (by omega))]
      split
      · rename_i hk
        obtain ⟨ret, t, hrest, hlen, hiff, heq⟩ := ih (k + 1) (by omega)
          fun j hj hj' => hareas j (by omega) (by omega)
        rw [hrest, ok_bind]
        have hall : (∀ j, k ≤ j → j < k + (n + 1) → u.part j = true) ↔
            ∀ j, k + 1 ≤ j → j < k + 1 + n → u.part j = true := by
          constructor
          · exact fun h j hj hj' => h j (by omega) (by omega)
          · intro h j hj hj'
            rcases hj.eq_or_lt with rfl | hlt
            · exact hk
            · exact h j hlt (by omega)
        have hcons : unmapped (.unmapPart k (seg.allHandle k) :: t) =
            .part k (seg.allHandle k) :: unmapped t := rfl
        refine ⟨ret, _, rfl, ?_⟩
        rw [hcons, List.length_cons, hall, ← hiff]
        refine ⟨Nat.succ_le_succ hlen, Nat.succ_inj, fun hfull => ?_⟩
        rw [heq (hiff.1 hfull), partLeases, partLeases, List.range'_succ, List.map_cons]
      · rename_i hk
        exact ⟨_, _, rfl, Nat.zero_le _, iff_of_false nofun fun h => hk (h k le_rfl (by omega)),
          fun h => absurd (h k le_rfl (by omega)) hk⟩

/-- What was mapped is unmapped, each grant once, if the hypervisor unmaps everything. -/
theorem Mapped.deregister (h : Mapped seg' req t) (u : DeregisterEnv) :
    ∃ ret t', seg'.deregister u = .ok (ret, t') ∧
      ((unmapped t').Perm (mapped t) ↔ u.Unmaps req) := by
  obtain ⟨handles, hunmap, hlen, hmapped⟩ := h.handles
  have htake : handles.take seg'.nrPages = handles :=
    List.take_of_length_le (hlen.trans h.nrPages.symm).le
  have hle : 0 + req.nrParts ≤ omxXenGrantPagesMax := by
    rw [Nat.zero_add, ← h.nrParts]
    exact seg'.nrParts_le
  obtain ⟨ret, t₁, hparts, hfew, hfull, hall⟩ := seg'.unmapParts_spec u req.nrParts 0 hle
    fun j _ hj => h.areas j (by omega)
  obtain ⟨hfew', hfull', hall'⟩ := unmapPages_spec u 0 handles
  simp only [Nat.zero_le, true_imp_iff, Nat.zero_add, hlen] at hfull hall hfew' hfull' hall'
  -- what comes after the parts unmaps nothing
  have hperm (rest : Trace) (hrest : unmapped rest = []) :
      (unmapped (unmapPages u 0 handles ++ t₁ ++ rest)).Perm (mapped t) ↔ u.Unmaps req := by
    rw [unmapped_append, unmapped_append, hrest, List.append_nil, hmapped]
    constructor
    · intro hp
      have hcount := hp.length_eq
      rw [List.length_append, List.length_append, partLeases, pageLeases, List.length_map,
        List.length_range', List.length_map, List.length_zipIdx, hlen] at hcount
      exact ⟨hfull'.1 (by omega), hfull.1 (by omega)⟩
    · rintro ⟨hpages, hparts⟩
      rw [hall hparts, hall' hpages]
      exact List.perm_append_comm
  rw [XenUserRegionSegment.deregister, hunmap]
  dsimp only
  rw [htake, h.nrParts, hparts, ok_bind]
  dsimp only
  split
  · have hnil := hperm [] rfl
    rw [List.append_nil] at hnil
    exact ⟨_, _, rfl, hnil⟩
  · refine ⟨_, _, rfl, ?_⟩
    simp only [List.append_assoc]
    rw [← List.append_assoc]
    refine hperm _ ?_
    simp only [unmapped_append, unmapped_kfreeArray, unmapped_freeVmArea, List.nil_append]
    rw [List.append_nil]
    split <;> rfl

end XenUserRegionSegment

/-- The fields that are written first are those that the segment has. -/
theorem XenUserRegionSegment.describe_eq_iff {seg : XenUserRegionSegment} {req : RegisterSegment}
    (hparts : req.nrParts ≤ omxXenGrantPagesMax) :
    seg.describe req hparts = seg ↔ seg.Describes req := by
  constructor
  · intro h
    refine ⟨?_, ?_, fun k hk => ?_⟩
    · rw [← h]; rfl
    · rw [← h]; rfl
    · rw [← h]
      exact if_pos hk
  · rintro ⟨hoffset, hnrParts, hgref⟩
    have hall : (fun k => if k < req.nrParts then req.gref k else seg.allGref k) = seg.allGref := by
      funext k
      split
      · exact (hgref k ‹_›).symm
      · rfl
    obtain ⟨_, _, _, _⟩ := seg
    cases hoffset
    cases hnrParts
    rw [describe]
    exact congrArg (fun f => XenUserRegionSegment.mk _ f _ _ _ _ _ _ _ _ _ _ _) hall

/-- A registration that fails leaves the regions as they were with nothing taken, and the grants of
one that succeeds are unmapped by the deregistration, exactly when nothing is taken and the segment
is described already, or everything goes well. -/
theorem xenRegister_iff (regions : ℕ → Option XenUserRegion) (e : RegisterEnv) (u : DeregisterEnv)
    (req : RegisterSegment) : Unwinds regions e u req ↔ Clean regions e u req := by
  unfold Unwinds Clean xenRegisterUserSegment
  by_cases hparts : req.nrParts ≤ omxXenGrantPagesMax
  swap
  · rw [dif_neg hparts]
    exact iff_of_false nofun fun h => hparts h.1
  rw [dif_pos hparts, and_iff_right hparts]
  by_cases hrid : req.rid < omxUserRegionMax
  swap
  · rw [check, if_neg hrid]
    exact iff_of_false nofun fun h => hrid h.1
  rw [check_pos hrid, and_iff_right hrid]
  rcases hregion : regions req.rid with _ | region
  · exact iff_of_true ⟨_, _, _, rfl, fun _ => ⟨rfl, Ledger.settles_nil.2 rfl⟩, nofun⟩ nofun
  have hone (P : XenUserRegion → Prop) : (∀ region' ∈ some region, P region') ↔ P region :=
    ⟨fun h => h region rfl, by rintro h _ ⟨⟩; exact h⟩
  rw [hone]
  dsimp only
  rcases hseg : region.segments[req.sid]? with _ | seg
  · refine iff_of_false nofun ?_
    rintro ⟨seg, hmem, -⟩
    cases hmem
  have hone' (P : XenUserRegionSegment → Prop) : (∃ seg' ∈ some seg, P seg') ↔ P seg :=
    ⟨by rintro ⟨_, ⟨⟩, h⟩; exact h, fun h => ⟨seg, rfl, h⟩⟩
  rw [hone']
  dsimp only
  obtain ⟨hsid, hget⟩ := List.getElem?_eq_some_iff.1 hseg
  rcases seg.register_cases e req hparts with
    ⟨htakes, hfails, err, hregister⟩ | ⟨hsucceeds, htakes, seg', t, hregister, hmapped⟩ |
    ⟨htakes, hfails, hloses⟩
  · -- the regions are what they were if nothing new was written
    rw [hregister, ok_bind]
    dsimp only
    rw [if_neg nofun]
    have hsame : Function.update regions req.rid (some ⟨region.totalLength,
          region.segments.set req.sid (seg.describe req hparts)⟩) = regions ↔
        seg.Describes req := by
      rw [Function.update_eq_self_iff, hregion, ← seg.describe_eq_iff hparts, Option.some_inj]
      constructor
      · intro heq
        have hsegs : region.segments.set req.sid (seg.describe req hparts) = region.segments :=
          congrArg XenUserRegion.segments heq
        have hset := congrArg (fun segs => segs[req.sid]?) hsegs
        rw [List.getElem?_set_self hsid, hseg] at hset
        exact Option.some.inj hset
      · intro heq
        rw [heq, ← hget, List.set_getElem_self]
    constructor
    · rintro ⟨ret, regions', t, heq, hfail, -⟩
      cases heq
      exact .inl ⟨htakes, hsame.1 (hfail nofun).1⟩
    · rintro (⟨-, hdescribes⟩ | ⟨hsucceeds, -⟩)
      · exact ⟨_, _, _, rfl, fun _ => ⟨hsame.2 hdescribes, Ledger.settles_nil.2 rfl⟩, nofun⟩
      · exact absurd hsucceeds hfails
  · rw [hregister, ok_bind]
    dsimp only
    rw [if_pos rfl]
    obtain ⟨ret', t', hderegister, hperm⟩ := hmapped.deregister u
    have hlater : xenDeregisterUserSegment (Function.update regions req.rid (some
        ⟨region.totalLength + req.length, region.segments.set req.sid seg'⟩)) u req.rid req.sid =
        .ok (ret', t') := by
      rw [xenDeregisterUserSegment, check_pos hrid, Function.update_self]
      dsimp only
      rw [List.getElem?_set_self hsid]
      exact hderegister
    constructor
    · rintro ⟨ret, regions', t'', heq, -, hok⟩
      cases heq
      obtain ⟨ret'', t₂, heq, hall⟩ := hok rfl
      cases hlater.symm.trans heq
      exact .inr ⟨hsucceeds, hperm.1 hall⟩
    · rintro (⟨h, -⟩ | ⟨-, hunmaps⟩)
      · exact absurd h htakes
      · exact ⟨_, _, _, rfl, fun h => absurd rfl h, fun _ => ⟨_, _, hlater, hperm.2 hunmaps⟩⟩
  · refine iff_of_false ?_ fun h => h.elim (fun h => htakes h.1) fun h => hfails h.1
    rintro ⟨ret, regions', t, heq, hfail, -⟩
    obtain ⟨⟨ret', seg', t'⟩, hregister, hrest⟩ := bind_eq_ok.1 heq
    cases hrest
    obtain ⟨hret, hlost⟩ := hloses _ _ _ hregister
    exact hlost (hfail hret).2

/-- There is memory for one array only. -/
def oneArray : RegisterEnv where
  grefListMemory := true
  mapMemory := false
  unmapMemory := true
  pageListMemory := true
  ballooned := true
  accept := fun _ => .mapped 1
  word := fun _ _ => 1
  mapRefs := true
  mapPage := fun _ => some 2

/-- A request of one part for one page. -/
def onePage : RegisterSegment where
  rid := 0
  eid := 0
  sid := 0
  firstPageOffset := 0
  length := 4096
  nrPages := 1
  nrGrefs := 1024
  gref := fun _ => 1
  grefOffset := 0
  nrParts := 1

/-- A region with one segment, as it is created. -/
def newRegion : XenUserRegion where
  totalLength := 0
  segments := [{
    grefOffset := 0, allGref := fun _ => 0, nrParts := 0, nrParts_le := Nat.zero_le _
    vmGref := fun _ => false, allHandle := fun _ => 0, grefList := false, nrPages := 0
    firstPageOffset := 0, map := false, unmap := none, pages := false, length := 0 }]

/-- There is no memory for the second array, and the first is lost. -/
theorem xenRegister_lost : ¬ ∀ (regions : ℕ → Option XenUserRegion) (e : RegisterEnv)
    (u : DeregisterEnv) (req : RegisterSegment), Unwinds regions e u req := by
  intro h
  obtain ⟨ret, regions', t, hregister, hfail, -⟩ :=
    h (fun _ => some newRegion) oneArray ⟨fun _ => true, fun _ => true⟩ onePage
  have heq : ret = some .enomem ∧ t = [.kzalloc .grefList] := by
    have hfst := congrArg (fun r => r.toOption.map fun r => (r.1, r.2.2)) hregister
    obtain ⟨rfl, rfl⟩ := Prod.mk.inj (Option.some.inj (hfst.symm.trans rfl))
    exact ⟨rfl, rfl⟩
  have hsettles := (hfail (by rw [heq.1]; exact nofun)).2
  rw [heq.2] at hsettles
  exact absurd hsettles (by decide)

end Xen2mx.Xenreg
