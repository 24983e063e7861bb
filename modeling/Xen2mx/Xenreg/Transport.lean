/-
# `Xen2mx.Xenreg.Transport` — what comes of a region on the other side

A create command comes through if the region that the backend builds has the pages, the offset and
the length of each segment of the command; if it is refused, the backend is to have no region.

    frontend                                      backend
    describes the segments that are not empty     reads as many descriptions as the command has
    does not wait for the answer for ever         keeps the region when a segment fails
    is told how the last segment fares            goes on after a segment that fails
    length: 64 bits                               length: 32 bits

A description that the frontend does not write is what the slot of the ring held before, and that
can be anything.  A third description has no place in the slot.

**Proved here.**

    a segment that is described is mapped page by page if its memory, its parts and its pages
        are had, and otherwise keeps the pages and the length it had      (`register_describe`)
    a command that is described in full comes through, or leaves nothing
        ⟺  there is no region of its number and no memory for one, or it answers in time and all
            segments are mapped, of less than 2^32 bytes; or there is a region with as many
            segments, which all are mapped or had already                 (`comesThrough_iff`)
    the same, whatever the slot held
        ⟺  it is refused at once and there is no region of its number; or it has two segments at
            most, none of them empty, each with its references and a list of 16 pages at most,
            and comes through                                             (`createRoundTrip_iff`)
    a region with an empty segment does not come through                  (`createRoundTrip_empty`)
-/
import Mathlib.Data.List.Forall2
import Mathlib.Data.Nat.Pairing
import Xen2mx.Xenreg.Hostile
import Xen2mx.Xenreg.Message

namespace Xen2mx.Xenreg

variable {φ : Type*}

/-! ## What is claimed -/

/-- A segment of the backend has the pages, the offset and the length of one of the command. -/
def UserSegment.Granted (pageAt : ℕ → φ) (useg : UserSegment) (seg : Segment (Page φ)) : Prop :=
  let granted := addSegment pageAt useg
  seg.pages = (List.range granted.nrPages).map (fun j => .user (granted.page j)) ∧
    seg.firstPageOffset = granted.firstPageOffset ∧ seg.length = granted.length

/-- If the command reports success the backend has its segments in their order, and otherwise it has
no region. -/
def CreateRoundTrip [DecidableEq φ] (refs : Refs) (out : CreateOutcome) (pageAt : ℕ → φ) (eid : ℕ)
    (cmd : Command) (msg : Message φ) (b : Backend (Page φ)) : Prop :=
  ∃ reported b', xenUserRegionCreate refs out pageAt eid cmd msg b = .ok (reported, b') ∧
    if reported then ∃ region, b'.xenRegion eid cmd.id = some region ∧
      List.Forall₂ (UserSegment.Granted pageAt) cmd.segments region.segments
    else b'.xenRegion eid cmd.id = none

/-! ## The condition -/

/-- The list of a segment of `n` parts is mapped. -/
def MapOutcome.Lists (e : MapOutcome) (n : ℕ) : Prop :=
  e.memory = true ∧ ∀ k < n, e.accept k = .mapped

/-- And so are its pages. -/
def MapOutcome.Maps (e : MapOutcome) (n : ℕ) : Prop := e.Lists n ∧ e.mapped = true

/-- The request has room for the segments, and all of them are described. -/
def Command.Described (out : CreateOutcome) (pageAt : ℕ → φ) (cmd : Command) : Prop :=
  cmd.segments.length ≤ 2 ∧ ∀ i useg, cmd.segments[i]? = some useg →
    useg.len ≠ 0 ∧ out.cookie i = true ∧ (addSegment pageAt useg).Fits (out.listPages i)

/-- A segment is mapped with all of its length, or the backend had it in the place already. -/
def UserSegment.Arrives (e : MapOutcome) (pageAt : ℕ → φ) (useg : UserSegment)
    (before : Segment (Page φ)) : Prop :=
  let granted := addSegment pageAt useg
  e.Maps granted.nrParts ∧ granted.length < 2 ^ 32 ∨
    ¬ e.Maps granted.nrParts ∧
      before.pages = (List.range granted.nrPages).map (fun j => .user (granted.page j)) ∧
      (e.Lists granted.nrParts ∨ before.firstPageOffset = granted.firstPageOffset) ∧
      before.length = granted.length

/-- What is described comes through to a backend that has the region `before`. -/
def Command.Arrives (out : CreateOutcome) (pageAt : ℕ → φ) (cmd : Command) :
    Option (Region (Page φ)) → Prop
  | none => out.backend.memory = false ∨ out.answered = true ∧
      ∀ i useg, cmd.segments[i]? = some useg →
        (out.backend.segment i).Maps (addSegment pageAt useg).nrParts ∧ useg.len.toNat < 2 ^ 32
  -- there is one of that number: the segments are registered in it even so
  | some before => out.answered = true ∧ before.segments.length = cmd.segments.length ∧
      (∃ useg ∈ cmd.segments.getLast?, (out.backend.segment (cmd.segments.length - 1)).Maps
        (addSegment pageAt useg).nrParts) ∧
      ∀ i (useg : UserSegment) seg, cmd.segments[i]? = some useg → before.segments[i]? = some seg →
        useg.Arrives (out.backend.segment i) pageAt seg

/-! ## One segment -/

/-- What becomes of a segment `before` when `seg` is registered in its place. -/
structure Segment.Comes (e : MapOutcome) (seg : UserRegionSegment φ)
    (before after : Segment (Page φ)) : Prop where
  mapped : e.Maps seg.nrParts →
    after.pages = (List.range seg.nrPages).map (fun j => .user (seg.page j)) ∧
      after.firstPageOffset = seg.firstPageOffset ∧ after.length = seg.length % 2 ^ 32
  failed : ¬ e.Maps seg.nrParts → after.pages = before.pages ∧ after.length = before.length
  listed : ¬ e.Maps seg.nrParts → e.Lists seg.nrParts →
    after.firstPageOffset = seg.firstPageOffset
  unlisted : ¬ e.Lists seg.nrParts → after.firstPageOffset = before.firstPageOffset

section Segment

variable {refs : Refs} {g : Guest (Page φ)} {e : MapOutcome} {i id eid : ℕ}
  {seg : UserRegionSegment φ} {stale : RegisterSegment} {allocated : Bool}

/-- Each reference finds its page. -/
theorem mapM_page {f : ℕ → ℕ} {p : ℕ → Page φ} (l : List ℕ)
    (h : ∀ j ∈ l, g.page (f j) = some (p j)) : (l.map f).mapM g.page = some (l.map p) := by
  induction l with
  | nil => rfl
  | cons j l ih =>
      rw [List.map_cons, List.mapM_cons, h j List.mem_cons_self,
        ih fun k hk => h k (List.mem_cons_of_mem _ hk)]
      rfl

/-- The list is read to its end. -/
theorem readGrefs_describe (h : Carries refs g i seg) (hfits : seg.Fits allocated) :
    readGrefs g ((List.range seg.nrParts).map (Page.list i)) 0 1024 seg.nrPages ⟨0, 0, 0⟩ =
      .ok ((List.range seg.nrPages).map fun j => refs.ref i (seg.nrParts + j)) := by
  obtain ⟨-, hle⟩ := nrPages_le hfits.1
  have hlength : ((List.range seg.nrParts).map (Page.list (φ := φ) i)).length = seg.nrParts := by
    rw [List.length_map, List.length_range]
  rw [← Cursor.at_zero 1024, readGrefs_eq_ok (by omega), hlength]
  refine ⟨fun j _ hj => ⟨by omega, ?_⟩, ?_⟩
  · unfold pageSize
    omega
  · rw [List.range_eq_range']
    refine List.map_congr_left fun j hj => ?_
    obtain ⟨-, hj⟩ := List.mem_range'_1.1 hj
    have hpart : j / 1024 < seg.nrParts := by omega
    unfold entry
    rw [List.getElem?_map, List.getElem?_range hpart, Option.map_some]
    dsimp only
    rw [Nat.zero_add, h.word j (by omega)]

theorem register_describe (h : Carries refs g i seg) (hfits : seg.Fits allocated)
    (hparts : (describe refs i seg id eid stale).nrParts ≤ omxXenGrantPagesMax)
    (before : Segment (Page φ)) :
    ∃ ret after, before.register g e (describe refs i seg id eid stale) hparts = .ok (ret, after) ∧
      (ret = none ↔ e.Maps seg.nrParts) ∧ Segment.Comes e seg before after := by
  have hgref : ∀ k < seg.nrParts,
      g.page ((describe refs i seg id eid stale).gref k) = some (.list i k) := by
    intro k hk
    show g.page (if k < seg.nrParts then _ else _) = _
    rw [if_pos hk]
    exact h.list k hk
  have hpages : (describe refs i seg id eid stale).nrPages = seg.nrPages :=
    Nat.mod_eq_of_lt (hfits.1.trans_lt (by omega))
  unfold Segment.register
  dsimp only
  cases hmemory : e.memory with
  | false =>
      have hlists : ¬ e.Lists seg.nrParts := fun hl => Bool.false_ne_true (hmemory.symm.trans hl.1)
      exact ⟨_, _, if_neg Bool.false_ne_true, iff_of_false nofun fun hm => hlists hm.1,
        fun hm => absurd hm.1 hlists, fun _ => ⟨rfl, rfl⟩, fun _ hl => absurd hl hlists,
        fun _ => rfl⟩
  | true =>
      rw [if_pos rfl]
      split
      · rename_i areas err hacc
        have hlists : ¬ e.Lists seg.nrParts := by
          rintro ⟨-, hall⟩
          have haccepts : Accepts g e (describe refs i seg id eid stale).gref seg.nrParts :=
            fun k hk => ⟨hall k hk, by rw [hgref k hk]; rfl⟩
          obtain ⟨parts, hok⟩ := haccepts.acceptGrefLists before.areas
          cases hacc.symm.trans hok
        exact ⟨_, _, rfl, iff_of_false nofun fun hm => hlists hm.1, fun hm => absurd hm.1 hlists,
          fun _ => ⟨rfl, rfl⟩, fun _ hl => absurd hl hlists, fun _ => rfl⟩
      · rename_i areas parts hacc
        obtain ⟨haccepts, -, hlist⟩ := acceptGrefLists_eq_ok hacc
        have hlists : e.Lists seg.nrParts := ⟨hmemory, fun k hk => (haccepts k hk).1⟩
        have hparts' : parts = (List.range seg.nrParts).map (Page.list i) := by
          refine List.map_injective_iff.2 (Option.some_injective _) ?_
          rw [hlist, List.map_map]
          exact List.map_congr_left fun k hk => hgref k (List.mem_range.1 hk)
        have hread : readGrefs g parts (describe refs i seg id eid stale).grefOffset
            (describe refs i seg id eid stale).nrGrefs
            (describe refs i seg id eid stale).nrPages ⟨0, 0, 0⟩ =
              .ok ((List.range seg.nrPages).map fun j => refs.ref i (seg.nrParts + j)) := by
          rw [hpages, hparts']
          exact readGrefs_describe h hfits
        have hmap : (List.map (fun j => refs.ref i (seg.nrParts + j))
            (List.range seg.nrPages)).mapM g.page =
              some ((List.range seg.nrPages).map fun j => .user (seg.page j)) :=
          mapM_page (List.range seg.nrPages) fun j hj => h.user j (List.mem_range.1 hj)
        rw [hread, ok_bind, gnttabMapRefs, hmap]
        cases hmapped : e.mapped with
        | false =>
            have hmaps : ¬ e.Maps seg.nrParts :=
              fun hm => Bool.false_ne_true (hmapped.symm.trans hm.2)
            exact ⟨_, _, rfl, iff_of_false nofun hmaps, fun hm => absurd hm hmaps,
              fun _ => ⟨rfl, rfl⟩, fun _ _ => rfl, fun hl => absurd hlists hl⟩
        | true =>
            have hmaps : e.Maps seg.nrParts := ⟨hlists, hmapped⟩
            exact ⟨_, _, rfl, iff_of_true rfl hmaps, fun _ => ⟨rfl, rfl, rfl⟩,
              fun hm => absurd hmaps hm, fun hm => absurd hmaps hm, fun hl => absurd hlists hl⟩

/-- The segment is as it was granted if it arrives. -/
theorem Segment.Comes.granted_iff {pageAt : ℕ → φ} {useg : UserSegment}
    {before after : Segment (Page φ)} (h : Segment.Comes e (addSegment pageAt useg) before after) :
    useg.Granted pageAt after ↔ useg.Arrives e pageAt before := by
  unfold UserSegment.Granted UserSegment.Arrives
  dsimp only
  by_cases hmaps : e.Maps (addSegment pageAt useg).nrParts
  · obtain ⟨hpages, hoffset, hlength⟩ := h.mapped hmaps
    constructor
    · rintro ⟨-, -, hlen⟩
      exact .inl ⟨hmaps, hlen ▸ hlength ▸ Nat.mod_lt _ (by omega)⟩
    · rintro (⟨-, hlen⟩ | ⟨hnot, -⟩)
      · exact ⟨hpages, hoffset, hlength.trans (Nat.mod_eq_of_lt hlen)⟩
      · exact absurd hmaps hnot
  · obtain ⟨hpages, hlength⟩ := h.failed hmaps
    rw [hpages, hlength, or_iff_right fun hm => hmaps hm.1, and_iff_right hmaps]
    refine and_congr_right' (and_congr_left' ?_)
    by_cases hlists : e.Lists (addSegment pageAt useg).nrParts
    · exact iff_of_true (h.listed hmaps hlists) (.inl hlists)
    · rw [h.unlisted hlists, or_iff_right hlists]

/-- A segment that is not empty arrives in an empty place if it is mapped. -/
theorem UserSegment.arrives_zero {pageAt : ℕ → φ} {useg : UserSegment} (hne : useg.len ≠ 0) :
    useg.Arrives e pageAt .zero ↔
      e.Maps (addSegment pageAt useg).nrParts ∧ useg.len.toNat < 2 ^ 32 := by
  refine or_iff_left ?_
  rintro ⟨-, -, -, hlength⟩
  exact hne (UInt64.toNat_inj.1 hlength.symm)

end Segment

/-! ## The segments of a request -/

section Request

variable {refs : Refs} {g : Guest (Page φ)} {e : Outcome} {cur : CreateUserRegion}
  {rest : List (UserRegionSegment φ)} {before : Region (Page φ)} {first : Ret} {i : ℕ}
  {b b' : Backend (Page φ)} {s : Ret × Backend (Page φ)}

/-- The request describes the segments of a list, and their grants stand. -/
structure Describes (refs : Refs) (g : Guest (Page φ)) (rest : List (UserRegionSegment φ))
    (cur : CreateUserRegion) : Prop where
  id : cur.id < omxUserRegionMax
  nrSegments : rest.length = cur.nrSegments
  room : cur.nrSegments ≤ 2
  segs : ∀ i seg, rest[i]? = some seg → Carries refs g i seg ∧
    (∃ stale, cur.segs i = describe refs i seg cur.id cur.eid stale) ∧
      ∃ allocated, seg.Fits allocated

/-- The first `i` segments were registered in the region `before`, and `first` is what its creation
returned. -/
structure Registered (e : Outcome) (rest : List (UserRegionSegment φ)) (cur : CreateUserRegion)
    (before : Region (Page φ)) (first : Ret) (i : ℕ) (s : Ret × Backend (Page φ)) : Prop where
  region : ∃ region, s.2.xenRegion cur.eid cur.id = some region ∧
    region.segments.length = before.segments.length ∧
    ∀ k seg old, rest[k]? = some seg → before.segments[k]? = some old →
      ∃ after, region.segments[k]? = some after ∧
        (k < i → Segment.Comes (e.segment k) seg old after) ∧ (i ≤ k → after = old)
  first : i = 0 → s.1 = first
  ret : ∀ k seg, i = k + 1 → rest[k]? = some seg →
    (s.1 = none ↔ (e.segment k).Maps seg.nrParts)

/-- The next one is. -/
theorem Registered.next (h : Registered e rest cur before first i s)
    (hd : Describes refs g rest cur) (hroom : cur.nrSegments ≤ before.segments.length)
    (hi : i < cur.nrSegments) :
    ∃ s', registerNth g e cur i s = .ok s' ∧ Registered e rest cur before first (i + 1) s' := by
  obtain ⟨region, hregion, hlength, hsegs⟩ := h.region
  obtain ⟨seg, hseg⟩ : ∃ seg, rest[i]? = some seg :=
    ⟨_, List.getElem?_eq_getElem (hd.nrSegments.symm ▸ hi)⟩
  obtain ⟨old, hold⟩ : ∃ old, before.segments[i]? = some old :=
    ⟨_, List.getElem?_eq_getElem (hi.trans_le hroom)⟩
  obtain ⟨hcarries, ⟨stale, hdescribe⟩, allocated, hfits⟩ := hd.segs i seg hseg
  obtain ⟨_, hat, -, hsame⟩ := hsegs i seg old hseg hold
  rw [hsame le_rfl] at hat
  have hparts : (describe refs i seg cur.id cur.eid stale).nrParts ≤ omxXenGrantPagesMax :=
    (nrPages_le hfits.1).1
  obtain ⟨ret, after, hregister, hret, hcomes⟩ :=
    register_describe (e := e.segment i) hcarries hfits hparts old
  have hrid : (describe refs i seg cur.id cur.eid stale).rid < omxUserRegionMax := hd.id
  have hfound : s.2.xenRegion (describe refs i seg cur.id cur.eid stale).eid
      (describe refs i seg cur.id cur.eid stale).rid = some region := hregion
  have hsid : region.segments[(describe refs i seg cur.id cur.eid stale).sid]? = some old := hat
  let region' : Region (Page φ) := { region with
    segments := region.segments.set i after
    totalLength :=
      if ret = none then
        region.totalLength + (describe refs i seg cur.id cur.eid stale).length
      else region.totalLength }
  refine ⟨(ret, s.2.setXenRegion cur.eid cur.id (some region')), ?_,
    ⟨region', ?_, ?_, fun k seg' old' hk hk' => ?_⟩, fun h0 => absurd h0 (Nat.succ_ne_zero i),
    fun k seg' hk hseg' => ?_⟩
  · rw [registerNth, check_pos (hi.trans_le hd.room), hdescribe, registerUserSegment,
      dif_pos hparts, check_pos hrid, hfound]
    dsimp only
    rw [hsid]
    dsimp only
    rw [hregister]
    rfl
  · show (s.2.setXenRegion cur.eid cur.id _).xenRegion cur.eid cur.id = _
    rw [Backend.xenRegion_setXenRegion, if_pos ⟨rfl, rfl⟩]
  · rw [List.length_set]
    exact hlength
  · by_cases hki : k = i
    · subst hki
      cases hseg.symm.trans hk
      cases hold.symm.trans hk'
      exact ⟨after, List.getElem?_set_self (hi.trans_le (hroom.trans hlength.ge)),
        fun _ => hcomes, fun hle => absurd hle (by omega)⟩
    · obtain ⟨after', hafter', hbelow, habove⟩ := hsegs k seg' old' hk hk'
      exact ⟨after', by rwa [List.getElem?_set_ne (Ne.symm hki)], fun hlt => hbelow (by omega),
        fun hle => habove (by omega)⟩
  · obtain rfl : i = k := by omega
    cases hseg.symm.trans hseg'
    exact hret

/-- All of them are, if the region has room for them. -/
theorem dispatchCreate_registered (hd : Describes refs g rest cur)
    (hcreate : createUserRegion e b cur.id cur.nrSegments cur.eid = .ok (first, b'))
    (hbefore : b'.xenRegion cur.eid cur.id = some before)
    (hroom : cur.nrSegments ≤ before.segments.length) :
    ∃ s, dispatchCreate g e b cur = .ok s ∧
      Registered e rest cur before first cur.nrSegments s := by
  have hstart : Registered e rest cur before first 0 (first, b') :=
    ⟨⟨before, hbefore, rfl, fun k seg old _ hold =>
      ⟨old, hold, fun hk => absurd hk (Nat.not_lt_zero k), fun _ => rfl⟩⟩, fun _ => rfl, nofun⟩
  obtain ⟨s, hs, hall⟩ := loop_eq_ok
    (fun i s hi (hs : Registered e rest cur before first i s) => hs.next hd hroom hi)
    (Nat.zero_add _) hstart
  exact ⟨s, bind_eq_ok.2 ⟨_, hcreate, hs⟩, hall⟩

/-- Without memory there is no region, and each segment is refused. -/
theorem dispatchCreate_refused (hd : Describes refs g rest cur) (hmemory : e.memory = false)
    (hnew : b.xenRegion cur.eid cur.id = none) :
    ∃ ret, dispatchCreate g e b cur = .ok (some ret, b) := by
  have hcreate : createUserRegion e b cur.id cur.nrSegments cur.eid = .ok (some .enomem, b) := by
    rw [createUserRegion, if_neg (by rw [hmemory]; exact Bool.false_ne_true)]
  have hstep : ∀ i s, i < cur.nrSegments → (∃ err, s.1 = some err) ∧ s.2 = b →
      ∃ s', registerNth g e cur i s = .ok s' ∧ (∃ err, s'.1 = some err) ∧ s'.2 = b := by
    rintro i ⟨ret, b⟩ hi ⟨-, rfl⟩
    obtain ⟨seg, hseg⟩ : ∃ seg, rest[i]? = some seg :=
      ⟨_, List.getElem?_eq_getElem (hd.nrSegments.symm ▸ hi)⟩
    obtain ⟨-, ⟨stale, hdescribe⟩, allocated, hfits⟩ := hd.segs i seg hseg
    have hparts : (describe refs i seg cur.id cur.eid stale).nrParts ≤ omxXenGrantPagesMax :=
      (nrPages_le hfits.1).1
    have hrid : (describe refs i seg cur.id cur.eid stale).rid < omxUserRegionMax := hd.id
    have hfound : b.xenRegion (describe refs i seg cur.id cur.eid stale).eid
        (describe refs i seg cur.id cur.eid stale).rid = none := hnew
    refine ⟨(some .einval, b), ?_, ⟨_, rfl⟩, rfl⟩
    rw [registerNth, check_pos (hi.trans_le hd.room), hdescribe, registerUserSegment,
      dif_pos hparts, check_pos hrid, hfound]
  have hloop : ∃ s, loop (registerNth g e cur) cur.nrSegments 0 (some .enomem, b) = .ok s ∧
      (∃ err, s.1 = some err) ∧ s.2 = b :=
    loop_eq_ok (I := fun _ (s : Ret × Backend (Page φ)) => (∃ err, s.1 = some err) ∧ s.2 = b) hstep
      (Nat.zero_add _) ⟨⟨.enomem, rfl⟩, rfl⟩
  obtain ⟨⟨_, _⟩, hs, ⟨err, rfl⟩, rfl⟩ := hloop
  exact ⟨err, bind_eq_ok.2 ⟨_, hcreate, hs⟩⟩

/-- A request that the backend can process fits. -/
theorem fits_of_dispatchCreate (h : dispatchCreate g e b cur = .ok s) : cur.Fits g e b :=
  spares_dispatchCreate.1 (h ▸ spares_ok s)

/-- A region that is there already has room for the segments. -/
theorem length_le_of_dispatchCreate (h : dispatchCreate g e b cur = .ok s)
    (hd : Describes refs g rest cur) (hbefore : b.xenRegion cur.eid cur.id = some before) :
    cur.nrSegments ≤ before.segments.length := by
  by_contra hlt
  have hi : before.segments.length < cur.nrSegments := not_le.1 hlt
  obtain ⟨-, ⟨stale, hdescribe⟩, -⟩ :=
    hd.segs _ _ (List.getElem?_eq_getElem (hd.nrSegments.symm ▸ hi))
  have hfits := ((fits_of_dispatchCreate h).2 _ hi).2
  rw [hdescribe] at hfits
  have hat : cur.segmentsAt e b cur.eid cur.id = some before.segments.length := by
    rw [CreateUserRegion.segmentsAt, hbefore]
  exact absurd (hfits.2.2 _ hat).1 (lt_irrefl _)

end Request

/-! ## The command -/

section Command

variable {refs : Refs} {out : CreateOutcome} {pageAt : ℕ → φ} {eid : ℕ} {cmd : Command}
  {g : Guest (Page φ)} {segs : ℕ → RegisterSegment} {b : Backend (Page φ)}

theorem Command.region_eq (h : ∀ useg ∈ cmd.segments, useg.len ≠ 0) :
    cmd.region pageAt = cmd.segments.map (addSegment pageAt) := by
  rw [Command.region, List.filter_eq_self.2 fun useg hu => decide_eq_true (h useg hu)]

/-- An empty segment is missing in the region. -/
theorem Command.len_ne_zero (h : cmd.segments.length ≤ (cmd.region pageAt).length) :
    ∀ useg ∈ cmd.segments, useg.len ≠ 0 := by
  rw [Command.region, List.length_map] at h
  intro useg hu
  exact of_decide_eq_true
    (List.length_filter_eq_length_iff.1 (le_antisymm (List.length_filter_le _ _) h) useg hu)

theorem Command.region_length_ne_zero {seg : UserRegionSegment φ} (h : seg ∈ cmd.region pageAt) :
    seg.length ≠ 0 := by
  obtain ⟨useg, hu, rfl⟩ := List.mem_map.1 h
  have hne : useg.len ≠ 0 := of_decide_eq_true (List.mem_filter.1 hu).2
  exact fun h0 => hne (UInt64.toNat_inj.1 h0)

section
variable {e : Outcome} {cur : CreateUserRegion} {before : Region (Page φ)} {first : Ret}
  {s : Ret × Backend (Page φ)} {usegs : List UserSegment}

/-- The region is there with all of the segments. -/
theorem Registered.granted_iff
    (h : Registered e (usegs.map (addSegment pageAt)) cur before first usegs.length s) :
    (∃ region, s.2.xenRegion cur.eid cur.id = some region ∧
        List.Forall₂ (UserSegment.Granted pageAt) usegs region.segments) ↔
      before.segments.length = usegs.length ∧
        ∀ i (useg : UserSegment) seg, usegs[i]? = some useg → before.segments[i]? = some seg →
          useg.Arrives (e.segment i) pageAt seg := by
  obtain ⟨region, hregion, hlength, hsegs⟩ := h.region
  have hcomes : ∀ i (useg : UserSegment) seg,
      usegs[i]? = some useg → before.segments[i]? = some seg →
        ∃ after, region.segments[i]? = some after ∧
          (useg.Granted pageAt after ↔ useg.Arrives (e.segment i) pageAt seg) := by
    intro i useg seg hi hi'
    obtain ⟨after, hafter, hbelow, -⟩ := hsegs i (addSegment pageAt useg) seg
      (by rw [List.getElem?_map, hi, Option.map_some]) hi'
    exact ⟨after, hafter, (hbelow (List.getElem?_eq_some_iff.1 hi).1).granted_iff⟩
  constructor
  · rintro ⟨_, hregion', hall⟩
    cases hregion.symm.trans hregion'
    obtain ⟨hlen, hget⟩ := List.forall₂_iff_get.1 hall
    refine ⟨hlength.symm.trans hlen.symm, fun i useg seg hi hi' => ?_⟩
    obtain ⟨after, hafter, hiff⟩ := hcomes i useg seg hi hi'
    obtain ⟨hlt, rfl⟩ := List.getElem?_eq_some_iff.1 hi
    obtain ⟨hlt', rfl⟩ := List.getElem?_eq_some_iff.1 hafter
    exact hiff.1 (hget i hlt hlt')
  · rintro ⟨hlen, hall⟩
    refine ⟨region, hregion, List.forall₂_iff_get.2
      ⟨(hlength.trans hlen).symm, fun i hlt hlt' => ?_⟩⟩
    obtain ⟨after, hafter, hiff⟩ := hcomes i _ _ (List.getElem?_eq_getElem hlt)
      (List.getElem?_eq_getElem (hlength ▸ hlt'))
    obtain ⟨_, rfl⟩ := List.getElem?_eq_some_iff.1 hafter
    exact hiff.2 (hall i _ _ (List.getElem?_eq_getElem hlt)
      (List.getElem?_eq_getElem (hlength ▸ hlt')))

/-- The answer is that of the last segment. -/
theorem Registered.ret_eq_none_iff
    (h : Registered e (usegs.map (addSegment pageAt)) cur before first usegs.length s) :
    s.1 = none ↔ usegs = [] ∧ first = none ∨ ∃ useg ∈ usegs.getLast?,
      (e.segment (usegs.length - 1)).Maps (addSegment pageAt useg).nrParts := by
  rcases usegs.eq_nil_or_concat' with rfl | ⟨init, last, rfl⟩
  · rw [h.first rfl]
    exact ⟨fun h0 => .inl ⟨rfl, h0⟩, fun hc => hc.elim And.right nofun⟩
  · have hlast : ((init ++ [last]).map (addSegment pageAt))[init.length]? =
        some (addSegment pageAt last) := by
      rw [List.getElem?_map, List.getElem?_concat_length, Option.map_some]
    rw [h.ret init.length _ (by rw [List.length_append, List.length_singleton]) hlast,
      List.getLast?_concat, List.length_append, List.length_singleton, Nat.add_sub_cancel]
    simp

/-- A region that is there is told of, or left behind. -/
theorem Registered.told_iff
    (h : Registered e (usegs.map (addSegment pageAt)) cur before first usegs.length s) :
    (if out.answered = true ∧ s.1 = none then ∃ region, s.2.xenRegion cur.eid cur.id = some region ∧
        List.Forall₂ (UserSegment.Granted pageAt) usegs region.segments
      else s.2.xenRegion cur.eid cur.id = none) ↔
      (out.answered = true ∧ s.1 = none) ∧ before.segments.length = usegs.length ∧
        ∀ i (useg : UserSegment) seg, usegs[i]? = some useg → before.segments[i]? = some seg →
          useg.Arrives (e.segment i) pageAt seg := by
  obtain ⟨region, hregion, -⟩ := h.region
  split
  · rename_i htold
    rw [h.granted_iff, and_iff_right htold]
  · rename_i hnot
    refine iff_of_false (fun hnone => ?_) fun hc => hnot hc.1
    cases hregion.symm.trans hnone

end

variable [DecidableEq φ]

/-- Exactly then the request describes all segments. -/
theorem Command.described_iff :
    cmd.Described out pageAt ↔ (∀ useg ∈ cmd.segments, useg.len ≠ 0) ∧
      ∃ msg, describeSegments refs out pageAt cmd.id eid cmd.segments.length 0 (cmd.region pageAt)
        (g, segs) = .ok (true, msg) := by
  constructor
  · rintro ⟨hlength, hall⟩
    have hne : ∀ useg ∈ cmd.segments, useg.len ≠ 0 := fun useg hu => by
      obtain ⟨i, hi⟩ := List.mem_iff_getElem?.1 hu
      exact (hall i useg hi).1
    refine ⟨hne, (describeSegments_iff (by rw [Command.region_eq hne, List.length_map])
      fun seg => Command.region_length_ne_zero).2 fun j seg hj => ?_⟩
    rw [Command.region_eq hne, List.getElem?_map] at hj
    obtain ⟨useg, huseg, rfl⟩ := Option.map_eq_some_iff.1 hj
    obtain ⟨-, hcookie, hfits⟩ := hall j useg huseg
    rw [Nat.zero_add]
    exact ⟨hcookie, hfits, (List.getElem?_eq_some_iff.1 huseg).1.trans_le hlength⟩
  · rintro ⟨hne, hmsg⟩
    have hall := (describeSegments_iff (by rw [Command.region_eq hne, List.length_map])
      fun seg => Command.region_length_ne_zero).1 hmsg
    have hseg : ∀ i useg, cmd.segments[i]? = some useg →
        out.cookie i = true ∧ (addSegment pageAt useg).Fits (out.listPages i) ∧ i < 2 := by
      intro i useg hi
      have hall := hall i (addSegment pageAt useg) (by
        rw [Command.region_eq hne, List.getElem?_map, hi, Option.map_some])
      rwa [Nat.zero_add] at hall
    refine ⟨?_, fun i useg hi => ⟨hne useg (List.mem_of_getElem? hi), (hseg i useg hi).1,
      (hseg i useg hi).2.1⟩⟩
    by_contra hlt
    have hlast := hseg 2 _ (List.getElem?_eq_getElem (by omega))
    exact absurd hlast.2.2 (lt_irrefl 2)

/-- Then their grants stand. -/
theorem Command.Described.describes (refs : Refs) (eid : ℕ) (msg : Message φ)
    (h : cmd.Described out pageAt) (hid : cmd.id < omxUserRegionMax) : ∃ g' segs',
      describeSegments refs out pageAt cmd.id eid cmd.segments.length 0 (cmd.region pageAt) msg =
        .ok (true, g', segs') ∧
      Describes refs g' (cmd.segments.map (addSegment pageAt))
        { id := cmd.id, eid, nrSegments := cmd.segments.length, segs := segs' } := by
  obtain ⟨hne, ⟨g', segs'⟩, hmsg⟩ := Command.described_iff.1 h
  have hregion : cmd.region pageAt = cmd.segments.map (addSegment pageAt) :=
    Command.region_eq hne
  refine ⟨g', segs', hmsg, hid, List.length_map _, h.1, fun i seg hi => ?_⟩
  obtain ⟨hdescribe, hcarries⟩ := describeSegments_spec hmsg
    (by rw [hregion, List.length_map]) (fun seg => Command.region_length_ne_zero)
    (hregion ▸ hi)
  rw [Nat.zero_add] at hdescribe hcarries
  rw [List.getElem?_map] at hi
  obtain ⟨useg, huseg, rfl⟩ := Option.map_eq_some_iff.1 hi
  exact ⟨hcarries, ⟨_, hdescribe⟩, _, (h.2 i useg huseg).2.2⟩

/-- The claim about a request that describes all segments, in terms of its processing. -/
theorem createRoundTrip_iff_dispatchCreate {g' : Guest (Page φ)} {segs' : ℕ → RegisterSegment}
    (h : out.created = true ∧ cmd.id < omxUserRegionMax)
    (hmsg : describeSegments refs out pageAt cmd.id eid cmd.segments.length 0 (cmd.region pageAt)
      (g, segs) = .ok (true, g', segs')) :
    CreateRoundTrip refs out pageAt eid cmd (g, segs) b ↔
      ∃ s, dispatchCreate g' out.backend b
          { id := cmd.id, eid, nrSegments := cmd.segments.length, segs := segs' } = .ok s ∧
        if out.answered = true ∧ s.1 = none then ∃ region, s.2.xenRegion eid cmd.id = some region ∧
          List.Forall₂ (UserSegment.Granted pageAt) cmd.segments region.segments
        else s.2.xenRegion eid cmd.id = none := by
  unfold CreateRoundTrip xenUserRegionCreate
  rw [if_pos h, hmsg, ok_bind]
  dsimp only
  constructor
  · rintro ⟨_, _, hok, hgranted⟩
    obtain ⟨⟨ret, b'⟩, hdispatch, hok⟩ := bind_eq_ok.1 hok
    cases hok
    refine ⟨(ret, b'), hdispatch, ?_⟩
    simpa using hgranted
  · rintro ⟨⟨ret, b'⟩, hdispatch, hgranted⟩
    refine ⟨_, _, bind_eq_ok.2 ⟨_, hdispatch, rfl⟩, ?_⟩
    simpa using hgranted

omit [DecidableEq φ] in
/-- In a region that was just created the segments arrive if they are mapped. -/
theorem Command.Described.arrives_replicate (h : cmd.Described out pageAt) :
    (∀ i (useg : UserSegment) seg, cmd.segments[i]? = some useg →
        (List.replicate cmd.segments.length (.zero : Segment (Page φ)))[i]? = some seg →
        useg.Arrives (out.backend.segment i) pageAt seg) ↔
      ∀ i useg, cmd.segments[i]? = some useg →
        (out.backend.segment i).Maps (addSegment pageAt useg).nrParts ∧ useg.len.toNat < 2 ^ 32 := by
  refine forall₂_congr fun i useg => ⟨fun harrive hi => ?_, fun hmaps seg hi hseg => ?_⟩
  · have hlt := (List.getElem?_eq_some_iff.1 hi).1
    refine (UserSegment.arrives_zero (h.2 i useg hi).1).1 (harrive .zero hi ?_)
    rw [List.getElem?_replicate, if_pos hlt]
  · obtain rfl := List.eq_of_mem_replicate (List.mem_of_getElem? hseg)
    exact (UserSegment.arrives_zero (h.2 i useg hi).1).2 (hmaps hi)

/-- What is described comes through as far as the backend maps it. -/
theorem Command.Described.comesThrough_iff (hd : cmd.Described out pageAt)
    (h : out.created = true ∧ cmd.id < omxUserRegionMax) :
    CreateRoundTrip refs out pageAt eid cmd (g, segs) b ↔
      cmd.Arrives out pageAt (b.xenRegion eid cmd.id) := by
  obtain ⟨g', segs', hmsg, hdescribes⟩ := hd.describes refs eid (g, segs) h.2
  rw [createRoundTrip_iff_dispatchCreate h hmsg]
  cases hbefore : b.xenRegion eid cmd.id with
  | none =>
      cases hmemory : out.backend.memory with
      | false =>
          obtain ⟨ret, hok⟩ := dispatchCreate_refused hdescribes hmemory hbefore
          refine iff_of_true ⟨_, hok, ?_⟩ (.inl hmemory)
          rw [if_neg nofun]
          exact hbefore
      | true =>
          have hcreate : createUserRegion out.backend b cmd.id cmd.segments.length eid = .ok (none,
              b.setXenRegion eid cmd.id (some
                { id := ⟨cmd.id, h.2⟩
                  totalLength := 0
                  segments := List.replicate cmd.segments.length .zero })) := by
            rw [createUserRegion, if_pos hmemory, dif_pos h.2, hbefore]
            rfl
          obtain ⟨s, hok, hall⟩ := dispatchCreate_registered hdescribes hcreate
            (by rw [Backend.xenRegion_setXenRegion, if_pos ⟨rfl, rfl⟩]) List.length_replicate.ge
          simp only [hok, Except.ok.injEq, exists_eq_left']
          constructor
          · intro htold
            obtain ⟨⟨hanswered, -⟩, -, harrive⟩ := hall.told_iff.1 htold
            exact .inr ⟨hanswered, hd.arrives_replicate.1 harrive⟩
          · rintro (hnone | ⟨hanswered, hmaps⟩)
            · exact Bool.noConfusion (hmemory.symm.trans hnone)
            · refine hall.told_iff.2 ⟨⟨hanswered, hall.ret_eq_none_iff.2 ?_⟩, List.length_replicate,
                hd.arrives_replicate.2 hmaps⟩
              cases hlast : cmd.segments.getLast? with
              | none => exact .inl ⟨List.getLast?_eq_none_iff.1 hlast, rfl⟩
              | some useg =>
                  rw [List.getLast?_eq_getElem?] at hlast
                  exact .inr ⟨useg, rfl, (hmaps _ useg hlast).1⟩
  | some before =>
      obtain ⟨err, hcreate⟩ : ∃ err, createUserRegion out.backend b cmd.id cmd.segments.length eid =
          .ok (some err, b) := by
        rw [createUserRegion]
        split
        · rw [dif_pos h.2, hbefore]
          exact ⟨.ebusy, rfl⟩
        · exact ⟨.enomem, rfl⟩
      constructor
      · rintro ⟨s, hok, htold⟩
        have hroom := length_le_of_dispatchCreate hok hdescribes hbefore
        obtain ⟨s', hok', hall⟩ := dispatchCreate_registered hdescribes hcreate hbefore hroom
        cases hok.symm.trans hok'
        obtain ⟨⟨hanswered, hret⟩, hlength, harrive⟩ := hall.told_iff.1 htold
        rcases hall.ret_eq_none_iff.1 hret with ⟨-, hfirst⟩ | hlast
        · cases hfirst
        · exact ⟨hanswered, hlength, hlast, harrive⟩
      · rintro ⟨hanswered, hlength, hlast, harrive⟩
        obtain ⟨s, hok, hall⟩ := dispatchCreate_registered hdescribes hcreate hbefore hlength.ge
        exact ⟨s, hok, hall.told_iff.2
          ⟨⟨hanswered, hall.ret_eq_none_iff.2 (.inr hlast)⟩, hlength, harrive⟩⟩

/-- A description of no parts and no pages, for the region `rid`. -/
def RegisterSegment.stale (rid : ℕ) : RegisterSegment :=
  { rid, eid := 0, sid := 0, firstPageOffset := 0, length := 0, nrPages := 0, nrGrefs := 0,
    gref := fun _ => 0, grefOffset := 0, nrParts := 0 }

/-- A command that comes through, whatever the slot held, is described in full: a description that
is left as it was could name a region that cannot exist. -/
theorem described_of_createRoundTrip (h : out.created = true ∧ cmd.id < omxUserRegionMax)
    (hall : ∀ segs, CreateRoundTrip refs out pageAt eid cmd (g, segs) b) :
    cmd.Described out pageAt := by
  obtain ⟨reported, b', hok, -⟩ := hall fun _ => .stale omxUserRegionMax
  rw [xenUserRegionCreate, if_pos h] at hok
  obtain ⟨⟨poked, g', segs'⟩, hmsg, hok⟩ := bind_eq_ok.1 hok
  obtain ⟨s, hdispatch, -⟩ := bind_eq_ok.1 hok
  have hfull : ¬ (poked = false ∨ (cmd.region pageAt).length < cmd.segments.length) := by
    intro hless
    obtain ⟨j, -, hj, hstale⟩ := describeSegments_stale hmsg hless
    rw [Nat.zero_add] at hj
    have hrid := ((fits_of_dispatchCreate hdispatch).2 j hj).2.2.1
    dsimp only at hrid
    rw [hstale] at hrid
    exact absurd hrid (lt_irrefl _)
  obtain ⟨hpoked, hlength⟩ := not_or.1 hfull
  obtain rfl : poked = true := Bool.of_not_eq_false hpoked
  exact Command.described_iff.2 ⟨Command.len_ne_zero (not_lt.1 hlength), _, hmsg⟩

/-- Whatever the slot of the ring held: the command comes through, or it is refused and nothing is
left. -/
theorem createRoundTrip_iff :
    (∀ segs, CreateRoundTrip refs out pageAt eid cmd (g, segs) b) ↔
      if out.created = true ∧ cmd.id < omxUserRegionMax then
        cmd.Described out pageAt ∧ cmd.Arrives out pageAt (b.xenRegion eid cmd.id)
      else b.xenRegion eid cmd.id = none := by
  split
  · rename_i h
    constructor
    · intro hall
      have hd := described_of_createRoundTrip h hall
      exact ⟨hd, (hd.comesThrough_iff h).1 (hall fun _ => .stale 0)⟩
    · rintro ⟨hd, harrives⟩ segs
      exact (hd.comesThrough_iff h).2 harrives
  · rename_i h
    have hrefused : ∀ segs,
        xenUserRegionCreate refs out pageAt eid cmd (g, segs) b = .ok (false, b) :=
      fun segs => if_neg h
    constructor
    · intro hall
      obtain ⟨reported, b', hok, hnone⟩ := hall fun _ => .stale 0
      cases (hrefused _).symm.trans hok
      exact hnone
    · exact fun hnone segs => ⟨false, b, hrefused segs, hnone⟩

end Command

/-! ## A segment that is empty -/

/-- References that are numbered by segment and place. -/
def pairedRefs : Refs := ⟨Nat.pair, fun h => Nat.pair_eq_pair.1 h⟩

/-- Everything that is asked for is had. -/
def everythingSucceeds : CreateOutcome :=
  { created := true
    cookie := fun _ => true
    listPages := fun _ => true
    backend :=
      { memory := true
        segment := fun _ => { memory := true, accept := fun _ => .mapped, mapped := true }
        unmap := fun _ _ => true, sendq := true, recvq := true, attached := true, released := true }
    answered := true }

/-- One empty segment, on a slot whose first description is that of a region which is gone: the
command is refused, and its region is left on the backend. -/
theorem createRoundTrip_empty :
    ¬ CreateRoundTrip pairedRefs everythingSucceeds id 0 { id := 0, segments := [⟨0, 0⟩] }
      (⟨fun _ => none, fun _ _ => 0⟩, fun _ => .stale 3) backendCreateOmx := by
  rintro ⟨reported, b', hok, hcomes⟩
  have hrun : (xenUserRegionCreate pairedRefs everythingSucceeds id 0
      { id := 0, segments := [⟨0, 0⟩] } (⟨fun _ => none, fun _ _ => 0⟩, fun _ => .stale 3)
        backendCreateOmx).toOption.map (fun r => (r.1, (r.2.xenRegion 0 0).isSome)) =
      some (false, true) := rfl
  rw [hok] at hrun
  obtain ⟨rfl, hsome⟩ := Prod.mk.inj (Option.some.inj hrun)
  rw [if_neg Bool.false_ne_true] at hcomes
  dsimp only at hcomes
  rw [hcomes] at hsome
  cases hsome

end Xen2mx.Xenreg
