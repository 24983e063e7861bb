/-
# `Xen2mx.Xenreg.Segment` — mapping the pages of one segment

The frontend grants the pages of a segment one by one, writes the grant
references into a list of pages of its own, grants those as well and sends
their references: `gref`, one for each of the `nr_parts` pages of the list.
`omx_xen_register_user_segment` maps the list, reads it with two counters, `idx`
for the page and `sidx` for the entry, and maps what it finds.

    copy       gref[k] = req->gref[k], k < nr_parts         16 entries on both sides
    accept     map the page of gref[k], k < nr_parts
    read       gref_list[idx][sidx], i < nr_pages           nr_parts pages of 4096 bytes
    next       i++; i % nr_grefs == 0 ? idx++ : sidx++      a division
    map        map the page of every reference read

Nothing of the request is checked on the way; a `Fault` is what an access out of
bounds becomes here.
-/
import Mathlib.Data.List.Basic
import Mathlib.Data.List.Range
import Mathlib.Data.Nat.ModEq
import Xen2mx.Lib.Faults

namespace Xen2mx.Xenreg

/-! ## What goes wrong, and what is reported -/

/-- What stops the processing of a request.  Where an array is named, it is
indexed out of its bounds. -/
inductive Fault where
  /-- `omxdev->endpoints` -/
  | endpoints
  /-- `endpoint->xen_regions` -/
  | xenRegions
  /-- `segs` of the ring message -/
  | segs
  /-- `region->segments` -/
  | segments
  /-- an array of `OMX_XEN_GRANT_PAGES_MAX` entries -/
  | gref
  /-- the list of grant references, or one of its pages -/
  | grefList
  | divideByZero
  /-- a `BUG` or a `BUG_ON` -/
  | bug
  | nullPointer
  deriving DecidableEq, Repr

/-- The error codes; `grant` is the status of a failed grant operation. -/
inductive Errno where
  | enomem | einval | ebusy | enosys | efault | grant
  deriving DecidableEq, Repr

/-- What a function returns: `none` is 0. -/
abbrev Ret := Option Errno

def pageSize : ℕ := 4096

/-- `OMX_XEN_GRANT_PAGES_MAX`. -/
def omxXenGrantPagesMax : ℕ := 16

/-! ## The guest and the requests -/

/-- The guest as the backend sees it: the page behind a grant reference, if there
is one, and the four bytes at an offset of a page, as a grant reference. -/
structure Guest (π : Type*) where
  page : ℕ → Option π
  word : π → ℕ → ℕ

/-- `struct omx_ring_msg_register_user_segment`, as far as the backend reads it. -/
structure RegisterSegment where
  rid : ℕ
  eid : ℕ
  sid : ℕ
  firstPageOffset : ℕ
  length : ℕ
  nrPages : ℕ
  nrGrefs : ℕ
  gref : ℕ → ℕ
  grefOffset : ℕ
  nrParts : ℕ

/-- How mapping one page of the list goes. -/
inductive Accept where
  | mapped
  /-- `alloc_vm_area` fails -/
  | noArea
  /-- the hypervisor refuses -/
  | refused
  deriving DecidableEq, Repr

/-- What the allocators and the hypervisor do for one segment. -/
structure MapOutcome where
  memory : Bool
  accept : ℕ → Accept
  mapped : Bool

/-- `struct omx_xen_user_region_segment`.  `areas` counts the entries of `vm_gref`
that are set, and `unmap` says whether the pointer is. -/
structure Segment (π : Type*) where
  nrPages : ℕ
  length : ℕ
  firstPageOffset : ℕ
  grefOffset : ℕ
  nrParts : ℕ
  nrParts_le : nrParts ≤ omxXenGrantPagesMax
  areas : ℕ
  unmap : Bool
  pages : List π

variable {π : Type*}

/-- What `kzalloc` leaves. -/
def Segment.zero : Segment π :=
  { nrPages := 0, length := 0, firstPageOffset := 0, grefOffset := 0, nrParts := 0,
    nrParts_le := Nat.zero_le _, areas := 0, unmap := false, pages := [] }

/-! ## Registering -/

variable (g : Guest π) (e : MapOutcome)

/-- `omx_xen_accept_gref_list` on the first `n` parts: the entries of `vm_gref` set
by then, and the pages of the list, unless a part fails. -/
def acceptGrefLists (gref : ℕ → ℕ) (areas : ℕ) : ℕ → ℕ × Except Errno (List π)
  | 0 => (areas, .ok [])
  | k + 1 =>
      match acceptGrefLists gref areas k with
      | (areas, .error err) => (areas, .error err)
      | (areas, .ok parts) =>
          match e.accept k, g.page (gref k) with
          | .noArea, _ => (areas, .error .enomem)
          | .refused, _ => (max areas (k + 1), .error .enosys)
          | .mapped, none => (max areas (k + 1), .error .grant)
          | .mapped, some p => (max areas (k + 1), .ok (parts ++ [p]))

/-- The counters of the loop over the pages. -/
structure Cursor where
  i : ℕ
  idx : ℕ
  sidx : ℕ

/-- `i++`, and the move to the next entry or the next page of the list. -/
def Cursor.next (nrGrefs : ℕ) (c : Cursor) : Except Fault Cursor :=
  check (nrGrefs ≠ 0) .divideByZero <|
    .ok (if (c.i + 1) % nrGrefs = 0 then ⟨c.i + 1, c.idx + 1, 0⟩ else ⟨c.i + 1, c.idx, c.sidx + 1⟩)

/-- `gref_list[idx][sidx]`, where the pages of the list start at `gref_offset`. -/
def grefAt (parts : List π) (grefOffset : ℕ) (c : Cursor) : Except Fault ℕ :=
  match parts[c.idx]? with
  | none => .error .grefList
  | some p =>
      check (grefOffset + 4 * c.sidx + 4 ≤ pageSize) .grefList (.ok (g.word p (grefOffset + 4 * c.sidx)))

/-- The references of `n` more pages. -/
def readGrefs (parts : List π) (grefOffset nrGrefs : ℕ) : ℕ → Cursor → Except Fault (List ℕ)
  | 0, _ => .ok []
  | n + 1, c =>
      (grefAt g parts grefOffset c).bind fun gref =>
        (c.next nrGrefs).bind fun c' =>
          (readGrefs parts grefOffset nrGrefs n c').bind fun grefs => .ok (gref :: grefs)

/-- `gnttab_map_refs`, and the loop over the status of every page. -/
def gnttabMapRefs (grefs : List ℕ) : Option (List π) :=
  if e.mapped then grefs.mapM g.page else none

/-- `omx_xen_register_user_segment`, once it has found the segment. -/
def Segment.register (seg : Segment π) (req : RegisterSegment)
    (hparts : req.nrParts ≤ omxXenGrantPagesMax) : Except Fault (Ret × Segment π) :=
  let seg := { seg with
    grefOffset := req.grefOffset, nrParts := req.nrParts, nrParts_le := hparts }
  if e.memory then
    match acceptGrefLists g e req.gref seg.areas req.nrParts with
    | (areas, .error err) => .ok (some err, { seg with areas })
    | (areas, .ok parts) =>
        let seg := { seg with
          areas, nrPages := req.nrPages, firstPageOffset := req.firstPageOffset, unmap := true }
        (readGrefs g parts seg.grefOffset req.nrGrefs req.nrPages ⟨0, 0, 0⟩).bind fun grefs =>
          match gnttabMapRefs g e grefs with
          | none => .ok (some .einval, seg)
          | some pages => .ok (none, { seg with pages, length := req.length })
  else .ok (some .enomem, seg)

/-! ## Mapping the list -/

/-- All of the first `n` parts are mapped. -/
def Accepts (gref : ℕ → ℕ) (n : ℕ) : Prop :=
  ∀ k < n, e.accept k = .mapped ∧ (g.page (gref k)).isSome

section
variable {g e} {gref : ℕ → ℕ} {areas areas' n : ℕ} {parts : List π}

theorem Accepts.succ_iff :
    Accepts g e gref (n + 1) ↔
      Accepts g e gref n ∧ e.accept n = .mapped ∧ (g.page (gref n)).isSome := by
  constructor
  · exact fun h => ⟨fun k hk => h k (by omega), h n (Nat.lt_succ_self n)⟩
  · rintro ⟨h, hn⟩ k hk
    rcases Nat.lt_succ_iff_lt_or_eq.1 hk with hlt | rfl
    · exact h k hlt
    · exact hn

theorem acceptGrefLists_eq_ok (h : acceptGrefLists g e gref areas n = (areas', .ok parts)) :
    Accepts g e gref n ∧ areas' = max areas n ∧
      parts.map some = (List.range n).map fun k => g.page (gref k) := by
  induction n generalizing areas' parts with
  | zero =>
      cases h
      exact ⟨nofun, (max_eq_left (Nat.zero_le _)).symm, rfl⟩
  | succ k ih =>
      simp only [acceptGrefLists] at h
      split at h
      · cases h
      · rename_i areas₁ parts₁ hk
        obtain ⟨hacc, rfl, hparts⟩ := ih hk
        split at h
        · cases h
        · cases h
        · cases h
        · rename_i p hmapped hp
          cases h
          refine ⟨Accepts.succ_iff.2 ⟨hacc, hmapped, by simp [hp]⟩, by omega, ?_⟩
          rw [List.map_append, hparts, List.range_succ, List.map_append]
          simp [hp]

theorem Accepts.acceptGrefLists (h : Accepts g e gref n) (areas : ℕ) :
    ∃ parts, acceptGrefLists g e gref areas n = (max areas n, .ok parts) := by
  induction n with
  | zero => exact ⟨[], by rw [max_eq_left (Nat.zero_le _)]; rfl⟩
  | succ k ih =>
      obtain ⟨hacc, hmapped, hp⟩ := Accepts.succ_iff.1 h
      obtain ⟨parts, hk⟩ := ih hacc
      obtain ⟨p, hp⟩ := Option.isSome_iff_exists.1 hp
      refine ⟨parts ++ [p], ?_⟩
      simp only [Xenreg.acceptGrefLists, hk, hmapped, hp, Prod.mk.injEq, and_true]
      omega

end

/-! ## Reading the list -/

/-- Where the counters are at the page `i`. -/
abbrev Cursor.at (nrGrefs i : ℕ) : Cursor := ⟨i, i / nrGrefs, i % nrGrefs⟩

/-- The entry of the page `j` is on a page of the list, and in its bounds. -/
def EntryFits (nrParts off nrGrefs j : ℕ) : Prop :=
  j / nrGrefs < nrParts ∧ off + 4 * (j % nrGrefs) + 4 ≤ pageSize

/-- The reference the loop reads for the page `j`. -/
def entry (parts : List π) (off nrGrefs j : ℕ) : ℕ :=
  match parts[j / nrGrefs]? with
  | none => 0
  | some p => g.word p (off + 4 * (j % nrGrefs))

section
variable {g} {parts : List π} {off nrGrefs n i : ℕ} {c c' : Cursor} {grefs : List ℕ}

theorem Cursor.at_zero (nrGrefs : ℕ) : Cursor.at nrGrefs 0 = ⟨0, 0, 0⟩ := by simp [Cursor.at]

/-- The two counters are the quotient and the remainder. -/
theorem Cursor.next_at (h : nrGrefs ≠ 0) :
    (Cursor.at nrGrefs i).next nrGrefs = .ok (.at nrGrefs (i + 1)) := by
  have hi := Nat.div_add_mod i nrGrefs
  have hi' := Nat.div_add_mod (i + 1) nrGrefs
  have hdiv : (i + 1) / nrGrefs = i / nrGrefs + if nrGrefs ∣ i + 1 then 1 else 0 := Nat.succ_div
  rw [Cursor.next, check_pos h]
  by_cases hdvd : nrGrefs ∣ i + 1
  · have hmod : (i + 1) % nrGrefs = 0 := Nat.mod_eq_zero_of_dvd hdvd
    rw [if_pos hdvd] at hdiv
    simp only [Cursor.at, hmod, hdiv, if_true]
  · have hmod : (i + 1) % nrGrefs ≠ 0 := fun h0 => hdvd (Nat.dvd_of_mod_eq_zero h0)
    have hdiv' : (i + 1) / nrGrefs = i / nrGrefs := by simp only [hdiv, if_neg hdvd, Nat.add_zero]
    rw [hdiv'] at hi'
    have hsucc : i % nrGrefs + 1 = (i + 1) % nrGrefs := by omega
    simp only [Cursor.at, if_neg hmod, hdiv', hsucc]

theorem grefAt_eq_ok {w : ℕ} :
    grefAt g parts off (.at nrGrefs i) = .ok w ↔
      EntryFits parts.length off nrGrefs i ∧ w = entry g parts off nrGrefs i := by
  unfold grefAt entry EntryFits
  cases hp : parts[i / nrGrefs]? with
  | none =>
      have hlen : ¬ i / nrGrefs < parts.length := (List.getElem?_eq_none_iff.1 hp).not_gt
      exact iff_of_false nofun fun h => hlen h.1.1
  | some p =>
      have hlen : i / nrGrefs < parts.length := (List.getElem?_eq_some_iff.1 hp).1
      simp only [and_iff_right hlen]
      rw [check_eq_ok, Except.ok.injEq]
      exact and_congr_right' eq_comm

theorem readGrefs_eq_ok (h : nrGrefs ≠ 0) :
    readGrefs g parts off nrGrefs n (.at nrGrefs i) = .ok grefs ↔
      (∀ j, i ≤ j → j < i + n → EntryFits parts.length off nrGrefs j) ∧
        grefs = (List.range' i n).map (entry g parts off nrGrefs) := by
  induction n generalizing i grefs with
  | zero =>
      rw [readGrefs, Except.ok.injEq, eq_comm]
      exact (and_iff_right fun j hi hj => absurd hj (by omega)).symm
  | succ n ih =>
      simp only [readGrefs, bind_eq_ok, grefAt_eq_ok, Cursor.next_at h, Except.ok.injEq]
      constructor
      · rintro ⟨_, ⟨hi, rfl⟩, _, rfl, _, hok, rfl⟩
        obtain ⟨hrest, rfl⟩ := ih.1 hok
        refine ⟨fun j hj hj' => ?_, rfl⟩
        rcases hj.eq_or_lt with rfl | hlt
        · exact hi
        · exact hrest j hlt (by omega)
      · rintro ⟨hall, rfl⟩
        exact ⟨_, ⟨hall i le_rfl (by omega), rfl⟩, _, rfl, _,
          ih.2 ⟨fun j hj hj' => hall j (by omega) (by omega), rfl⟩, rfl⟩

theorem readGrefs_ne_ok (h : nrGrefs = 0) : readGrefs g parts off nrGrefs (n + 1) c ≠ .ok grefs := by
  intro hok
  obtain ⟨_, _, hok⟩ := bind_eq_ok.1 hok
  obtain ⟨_, hnext, _⟩ := bind_eq_ok.1 hok
  exact (check_eq_ok.1 hnext).1 h

theorem readGrefs_error {f : Fault} (h : readGrefs g parts off nrGrefs n c = .error f) :
    f = .grefList ∨ f = .divideByZero := by
  induction n generalizing c with
  | zero => cases h
  | succ n ih =>
      rw [readGrefs] at h
      cases hgref : grefAt g parts off c with
      | error f' =>
          rw [hgref] at h
          cases h
          left
          unfold grefAt check at hgref
          split at hgref
          · cases hgref; rfl
          · split at hgref <;> cases hgref
            rfl
      | ok w =>
          rw [hgref, ok_bind] at h
          cases hnext : c.next nrGrefs with
          | error f' =>
              rw [hnext] at h
              cases h
              right
              unfold Cursor.next check at hnext
              split at hnext <;> cases hnext
              rfl
          | ok c' =>
              rw [hnext, ok_bind] at h
              cases hrest : readGrefs g parts off nrGrefs n c' with
              | error f' =>
                  rw [hrest] at h
                  cases h
                  exact ih hrest
              | ok grefs => rw [hrest] at h; cases h

end

/-- The list that a request describes is large enough for its pages, and the code
can divide by the size of its pages. -/
def RegisterSegment.ListFits (req : RegisterSegment) : Prop :=
  req.nrPages = 0 ∨ req.nrGrefs ≠ 0 ∧ (req.nrPages - 1) / req.nrGrefs < req.nrParts ∧
    req.grefOffset + 4 * min req.nrPages req.nrGrefs ≤ pageSize

theorem RegisterSegment.listFits_iff (req : RegisterSegment) (h : req.nrGrefs ≠ 0) :
    req.ListFits ↔
      ∀ j < req.nrPages, EntryFits req.nrParts req.grefOffset req.nrGrefs j := by
  unfold ListFits EntryFits
  constructor
  · rintro (h0 | ⟨_, hidx, hoff⟩) j hj
    · omega
    · refine ⟨lt_of_le_of_lt (Nat.div_le_div_right (by omega)) hidx, ?_⟩
      have hlt : j % req.nrGrefs < req.nrGrefs := Nat.mod_lt j (Nat.pos_of_ne_zero h)
      have hle : j % req.nrGrefs ≤ j := Nat.mod_le j req.nrGrefs
      have hmin : j % req.nrGrefs + 1 ≤ min req.nrPages req.nrGrefs := by omega
      omega
  · intro hall
    by_cases h0 : req.nrPages = 0
    · exact .inl h0
    · have hlast := (hall (req.nrPages - 1) (by omega)).1
      have hmost := (hall (min req.nrPages req.nrGrefs - 1) (by omega)).2
      rw [Nat.mod_eq_of_lt (by omega)] at hmost
      exact .inr ⟨h, hlast, by omega⟩

/-! ## Registering a segment -/

section
variable {g e} {bad : Fault → Prop} {seg : Segment π} {req : RegisterSegment}

theorem spares_readGrefs (hlist : bad .grefList) (hdiv : bad .divideByZero) {parts : List π}
    (hlen : parts.length = req.nrParts) :
    Spares bad (readGrefs g parts req.grefOffset req.nrGrefs req.nrPages ⟨0, 0, 0⟩) ↔
      req.ListFits := by
  have hbad : Spares bad (readGrefs g parts req.grefOffset req.nrGrefs req.nrPages ⟨0, 0, 0⟩) ↔
      ∃ grefs, readGrefs g parts req.grefOffset req.nrGrefs req.nrPages ⟨0, 0, 0⟩ = .ok grefs := by
    cases h : readGrefs g parts req.grefOffset req.nrGrefs req.nrPages ⟨0, 0, 0⟩ with
    | ok grefs => exact iff_of_true (spares_ok _) ⟨grefs, rfl⟩
    | error f =>
        refine iff_of_false (fun hs => spares_error.1 hs ?_) nofun
        rcases readGrefs_error h with rfl | rfl
        · exact hlist
        · exact hdiv
  rw [hbad]
  by_cases h0 : req.nrGrefs = 0
  · cases hn : req.nrPages with
    | zero => exact iff_of_true ⟨[], rfl⟩ (.inl hn)
    | succ n =>
        refine iff_of_false (fun ⟨grefs, hok⟩ => readGrefs_ne_ok h0 hok) ?_
        rintro (hz | ⟨hne, _⟩)
        · omega
        · exact hne h0
  · rw [← Cursor.at_zero req.nrGrefs, req.listFits_iff h0]
    simp only [readGrefs_eq_ok h0, hlen, Nat.zero_add, Nat.zero_le, true_imp_iff, exists_and_left,
      exists_eq, and_true]

theorem spares_register (hlist : bad .grefList) (hdiv : bad .divideByZero)
    (hparts : req.nrParts ≤ omxXenGrantPagesMax) :
    Spares bad (seg.register g e req hparts) ↔
      (e.memory = true → Accepts g e req.gref req.nrParts → req.ListFits) := by
  unfold Segment.register
  cases hmem : e.memory with
  | false => exact iff_of_true (spares_ok _) nofun
  | true =>
      simp only [if_true, true_imp_iff]
      split
      · rename_i areas err hacc
        refine iff_of_true (spares_ok _) fun h => ?_
        obtain ⟨parts, hok⟩ := h.acceptGrefLists seg.areas
        rw [hacc] at hok
        cases hok
      · rename_i areas parts hacc
        obtain ⟨haccepts, -, hpages⟩ := acceptGrefLists_eq_ok hacc
        have hlen : parts.length = req.nrParts := by simpa using congrArg List.length hpages
        rw [spares_bind, spares_readGrefs hlist hdiv hlen, and_iff_left, imp_iff_right haccepts]
        intro grefs _
        split <;> exact spares_ok _

end

end Xen2mx.Xenreg
