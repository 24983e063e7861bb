/-
# `Xen2mx.Xenreg.Frontend` — granting the pages of a region

`omx_ioctl_xen_user_region_create` first has the region created and pinned as
on a native endpoint, which leaves out empty segments, then takes a request off
the ring and goes through the segments of the command: it grants the pages of
a list, grants the pages of the segment and writes their references into the
list, and describes the segment in the request.

    the command                      the region
    nr_segments, empty ones too      the segments that are not empty, then zeros
    i counts the segments            seg advances past those it describes

The request holds two descriptions.  Those that are not written keep what the
slot of the ring held before.  A request that is given up on the way stays on the
ring, and the next push hands it to the backend with the others.
-/
import Mathlib.Data.Nat.Log
import Xen2mx.Xenreg.Backend

namespace Xen2mx.Xenreg

variable {φ : Type*}

/-! ## The command and the region -/

/-- `struct omx_cmd_user_segment`. -/
structure UserSegment where
  vaddr : UInt64
  len : UInt64

/-- `struct omx_cmd_create_user_region`, with its segments read. -/
structure Command where
  id : ℕ
  segments : List UserSegment

/-- `struct omx_user_region_segment`, pinned. -/
structure UserRegionSegment (φ : Type*) where
  firstPageOffset : ℕ
  length : ℕ
  nrPages : ℕ
  page : ℕ → φ

/-- `omx_wrapper_user_region_add_segment`, in the 64 bits of `unsigned long`; `pageAt`
is the page behind an address of the process. -/
def addSegment (pageAt : ℕ → φ) (useg : UserSegment) : UserRegionSegment φ :=
  let offset := useg.vaddr.toNat % pageSize
  { firstPageOffset := offset
    length := useg.len.toNat
    nrPages := (offset + useg.len.toNat + (pageSize - 1)) % 2 ^ 64 / pageSize
    page := fun j => pageAt (useg.vaddr.toNat - offset + j * pageSize) }

/-- The segments of the region: empty ones are skipped. -/
def Command.region (cmd : Command) (pageAt : ℕ → φ) : List (UserRegionSegment φ) :=
  (cmd.segments.filter fun useg => useg.len ≠ 0).map (addSegment pageAt)

/-- What lies behind the segments of the region, which is allocated with as many as
the command has and zeroed. -/
def UserRegionSegment.zero (pageAt : ℕ → φ) : UserRegionSegment φ :=
  { firstPageOffset := 0, length := 0, nrPages := 0, page := pageAt }

/-! ## Grants -/

/-- A page of the frontend: page `k` of the list of segment `i`, or one of a process. -/
inductive Page (φ : Type*) where
  | list (i k : ℕ)
  | user (p : φ)
  deriving DecidableEq

/-- The references in the order they are claimed for each segment; no two claims
get the same. -/
structure Refs where
  ref : ℕ → ℕ → ℕ
  inj : ∀ {i k i' k'}, ref i k = ref i' k' → i = i' ∧ k = k'

/-- `gnttab_grant_foreign_access_ref`. -/
def Guest.grant {π : Type*} (g : Guest π) (ref : ℕ) (p : π) : Guest π :=
  { g with page := Function.update g.page ref (some p) }

/-- Writing an entry of a list. -/
def Guest.write {π : Type*} [DecidableEq π] (g : Guest π) (p : π) (off w : ℕ) : Guest π :=
  { g with word := fun p' off' => if p' = p ∧ off' = off then w else g.word p' off' }

/-- What the allocators, the backend and time do for a create command. -/
structure CreateOutcome where
  /-- `omx_ioctl_wrapper_user_region_create` -/
  created : Bool
  /-- segment `i` gets the references it asks for -/
  cookie : ℕ → Bool
  /-- segment `i` gets the pages of its list -/
  listPages : ℕ → Bool
  backend : Outcome
  /-- the response comes before the frontend stops waiting -/
  answered : Bool

/-! ## Describing the segments -/

namespace UserRegionSegment

/-- The pages that the list of references of a segment takes. -/
def parts (seg : UserRegionSegment φ) : ℕ := (seg.nrPages * 4 + (pageSize - 1)) / pageSize

/-- `seg->nr_parts`, a `uint8_t`. -/
def nrParts (seg : UserRegionSegment φ) : ℕ := seg.parts % 256

end UserRegionSegment

/-- The entries that `__get_free_pages` makes room for; there is no order for no pages. -/
def listRoom (allocated : Bool) (nrParts : ℕ) : ℕ :=
  if allocated ∧ nrParts ≠ 0 then 1024 * 2 ^ Nat.clog 2 nrParts else 0

section
variable [DecidableEq φ] (refs : Refs) (i : ℕ) (seg : UserRegionSegment φ)

/-- Grant the pages of the list. -/
def grantList (g : Guest (Page φ)) : Except Fault (Guest (Page φ)) :=
  loop (fun k g => check (k < omxXenGrantPagesMax) .gref (.ok (g.grant (refs.ref i k) (.list i k))))
    seg.nrParts 0 g

/-- Grant the pages of the segment, and write the list. -/
def grantPages (allocated : Bool) (g : Guest (Page φ)) : Except Fault (Guest (Page φ)) :=
  loop (fun j g => check (j < listRoom allocated seg.nrParts) .grefList <|
      .ok ((g.write (.list i (j / 1024)) (4 * (j % 1024)) (refs.ref i (seg.nrParts + j))).grant
        (refs.ref i (seg.nrParts + j)) (.user (seg.page j))))
    seg.nrPages 0 g

/-- The description of a segment, in the widths of the message. -/
def describe (id eid : ℕ) (stale : RegisterSegment) : RegisterSegment :=
  { rid := id
    eid
    sid := i
    firstPageOffset := seg.firstPageOffset
    length := seg.length % 2 ^ 32
    nrPages := seg.nrPages % 2 ^ 32
    nrGrefs := 1024
    gref := fun k => if k < seg.nrParts then refs.ref i k else stale.gref k
    grefOffset := 0
    nrParts := seg.nrParts }

end

section
variable [DecidableEq φ] (refs : Refs) (out : CreateOutcome) (pageAt : ℕ → φ) (id eid : ℕ)

/-- The pages of the guest and the descriptions of the request. -/
abbrev Message (φ : Type*) := Guest (Page φ) × (ℕ → RegisterSegment)

/-- The loop over the segments of the command from number `i` on, with `n` to go and
the segments `rest` of the region ahead; it returns whether it comes to its end. -/
def describeSegments : (n i : ℕ) → List (UserRegionSegment φ) → Message φ →
    Except Fault (Bool × Message φ)
  | 0, _, _, msg => .ok (true, msg)
  | n + 1, i, rest, (g, segs) =>
      let seg := rest.headD (.zero pageAt)
      if out.cookie i then
        (grantList refs i seg g).bind fun g' =>
          if seg.length = 0 then describeSegments n (i + 1) rest (g', segs)
          else
            (grantPages refs i seg (out.listPages i) g').bind fun g'' =>
              check (i < 2) .segs <| describeSegments n (i + 1) rest.tail
                (g'', Function.update segs i (describe refs i seg id eid (segs i)))
      else .ok (false, (g, segs))

/-- `omx_ioctl_xen_user_region_create` on the endpoint `eid`: whether it returns 0, and
the backend once it has processed the request, whoever pushed it. -/
def xenUserRegionCreate (cmd : Command) (msg : Message φ) (b : Backend (Page φ)) :
    Except Fault (Bool × Backend (Page φ)) :=
  if out.created ∧ cmd.id < omxUserRegionMax then
    (describeSegments refs out pageAt cmd.id eid cmd.segments.length 0 (cmd.region pageAt) msg).bind
      fun (poked, g, segs) =>
        (dispatchCreate g out.backend b
            { id := cmd.id, eid, nrSegments := cmd.segments.length, segs }).bind fun (ret, b') =>
          .ok (poked && out.answered && ret.isNone, b')
  else .ok (false, b)

end

end Xen2mx.Xenreg
