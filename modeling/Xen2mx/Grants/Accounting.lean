/-
# `Xen2mx.Grants.Accounting` — where the grant references of the frontend are

A grant reference is free, in the pool of the kernel, or in the chain of a cookie, or it is claimed:
then it stands in a segment of a region, or in an endpoint, and the backend may map a page by it.

    operation        references
    open             of the pool: one for each page of the queues, two for the lists of these, and
                     one for the endpoint
    close            ended, and back to the pool
    create           of a cookie, for each segment: one for each page, and one for each part of the
                     list of these
    destroy          for each segment: ended, and back to the cookie, which is put back

Each can fail on the way, and the backend can map and unmap pages at any time, also in the middle of
a destruction or a closing.  What it has mapped when a reference is looked at and when its access is
ended comes with the operation, as does everything else that is not up to the frontend.

Where the source goes through a null pointer, through memory that is freed or never set, or past the
end of an array, anything may happen; nothing is said of the references any more, and the state is
`none`.  This includes a second release of a reference that is in a chain already.  What the third
segment of a region and those after it write behind their ring request is left out.

**Proved here.**

    the cookie that is got is the one the wait of `Xen2mx.Grants.Cookies` returns, whenever that
        returns                                                           (`Table.getCookie_eq`)
-/
import Mathlib.Algebra.Group.Nat.Defs
import Xen2mx.Grants.Cookies
import Xen2mx.Lib.Runs

namespace Xen2mx.Grants

/-! ## The grant table -/

/-- The entry of a reference in the grant table: the backend may not map a page by it, may, or
does. -/
inductive Access where
  | ended | granted | mapped
  deriving DecidableEq, Repr

/-- The free references of the kernel, the grant table, and the cookies of the frontend. -/
structure Table where
  pool : List ℕ
  access : ℕ → Access
  cookies : Cookies

/-- A cookie that is changed where it is. -/
def Cookies.set (fe : Cookies) (k : ℕ) (c : Cookie) : Cookies :=
  { fe with cookie := Function.update fe.cookie k c }

/-- The references in the chains. -/
def Cookies.chains (fe : Cookies) : List ℕ :=
  (fe.grefCookiesFree ++ fe.grefCookiesInuse).flatMap fun k => (fe.cookie k).grefHead

namespace Table

variable (t : Table)

/-- `gnttab_claim_grant_reference`, of a chain that goes on with `chain` after `gref`, and
`gnttab_grant_foreign_access_ref`. -/
def grant (k gref : ℕ) (chain : List ℕ) : Table :=
  { t with
    access := Function.update t.access gref .granted
    cookies := t.cookies.set k { t.cookies.cookie k with grefHead := chain } }

/-- The access of the backend to a page, when the frontend looks at it. -/
def setAccess (gref : ℕ) (a : Access) : Table :=
  { t with access := Function.update t.access gref a }

@[simp] theorem access_setAccess (gref : ℕ) (a : Access) :
    (t.setAccess gref a).access = Function.update t.access gref a := rfl

/-- `omx_gnttab_release_grant_reference`. -/
def release (k gref : ℕ) : Table :=
  { t with
    cookies := t.cookies.set k
      { t.cookies.cookie k with grefHead := gref :: (t.cookies.cookie k).grefHead } }

/-- A reference that the backend does not give up is taken off the count of its cookie. -/
def decrCount (k : ℕ) : Table :=
  { t with
    cookies := t.cookies.set k
      { t.cookies.cookie k with count := ((t.cookies.cookie k).count + (2 ^ 32 - 1)) % 2 ^ 32 } }

/-- The cookie that `omx_xenfront_gref_get_cookie` returns: the first that is large enough, or a new
one, if there is memory for it and the pool has the references. -/
def getCookie (memory : Bool) (count : ℕ) : Option (ℕ × Table) :=
  match hk : t.cookies.search count with
  | some k => some (k, { t with cookies := t.cookies.take k (t.cookies.mem_of_search hk) })
  | none =>
      if memory ∧ count ≤ t.pool.length then
        some (t.cookies.next,
          { t with
            pool := t.pool.drop count
            cookies := (t.cookies.reallyAlloc (fun i => t.pool.getD i 0) count).take t.cookies.next
              (List.mem_append_right _ (List.mem_singleton_self _)) })
      else none

/-- The first `m` references of the pool are claimed, and granted. -/
def takeGrefs (m : ℕ) : Table :=
  { t with
    pool := t.pool.drop m
    access := fun gref => if gref ∈ t.pool.take m then .granted else t.access gref }

@[simp] theorem access_takeGrefs (m gref : ℕ) :
    (t.takeGrefs m).access gref = if gref ∈ t.pool.take m then .granted else t.access gref := rfl

/-- `omx_xenfront_gref_put_cookie`, for a cookie in use. -/
def putCookie (k : ℕ) : Option Table :=
  if hk : k ∈ t.cookies.grefCookiesInuse then some { t with cookies := t.cookies.putCookie k hk }
  else none

end Table

/-! ## Regions -/

/-- `struct omx_user_region_segment`, with `gref_head` in the cookie. -/
structure UserRegionSegment where
  nrPages : ℕ
  grefCookie : Option ℕ
  allGref : List ℕ
  grefList : List ℕ
  deriving DecidableEq, Repr

/-- `nr_parts`: the pages that hold four bytes for each page. -/
def nrParts (nrPages : ℕ) : ℕ := (4 * nrPages + 4095) / 4096

/-- `OMX_XEN_GRANT_PAGES_MAX`, the size of `all_gref`. -/
def omxXenGrantPagesMax : ℕ := 16

namespace UserRegionSegment

/-- A segment before its pages are granted. -/
def blank (nrPages : ℕ) : UserRegionSegment := ⟨nrPages, none, [], []⟩

/-- The references it records, in the order in which they are released. -/
def refs (seg : UserRegionSegment) : List ℕ := seg.grefList ++ seg.allGref

/-- It has a cookie and all references. -/
def Full (seg : UserRegionSegment) : Prop :=
  seg.grefCookie ≠ none ∧ seg.grefList.length = seg.nrPages ∧
    seg.allGref.length = nrParts seg.nrPages

instance (seg : UserRegionSegment) : Decidable seg.Full :=
  inferInstanceAs (Decidable (_ ∧ _ ∧ _))

end UserRegionSegment

/-- `struct omx_user_region`.  Nothing in it tells whether its references are released. -/
structure UserRegion where
  id : ℕ
  segments : List UserRegionSegment
  released : Bool
  deriving DecidableEq, Repr

/-- The segments whose references are claimed. -/
def UserRegion.claimed (region : UserRegion) : List UserRegionSegment :=
  if region.released then [] else region.segments

/-- `OMX_USER_REGION_MAX`. -/
def omxUserRegionMax : ℕ := 256

/-! ## Creating a region -/

/-- How the allocations for a segment go. -/
structure GrantEnv where
  /-- `__get_free_pages`, for the parts of the list -/
  listPages : Bool
  cookieMemory : Bool

/-- `n` references are claimed, and granted as they are.  The loop ends early if the chain of the
cookie is empty. -/
def claimLoop (k : ℕ) : ℕ → Table → List ℕ × Bool × Table
  | 0, t => ([], true, t)
  | n + 1, t =>
      match (t.cookies.cookie k).grefHead with
      | [] => ([], false, t)
      | gref :: chain =>
          let (grefs, done, t) := claimLoop k n (t.grant k gref chain)
          (gref :: grefs, done, t)

/-- The array of references has room for the parts, and there are pages for them. -/
def Listed (nrPages : ℕ) (env : GrantEnv) : Prop :=
  nrParts nrPages ≤ omxXenGrantPagesMax ∧ (nrPages ≠ 0 → env.listPages)

instance (nrPages : ℕ) (env : GrantEnv) : Decidable (Listed nrPages env) :=
  inferInstanceAs (Decidable (_ ∧ _))

/-- One segment, and whether it goes on after it.  As many references are asked for as there are
pages, and for the parts the square of their number. -/
def grantSegment (env : GrantEnv) (nrPages : ℕ) (t : Table) :
    Option (UserRegionSegment × Bool × Table) :=
  if Listed nrPages env then
    match t.getCookie env.cookieMemory (nrPages + nrParts nrPages * nrParts nrPages) with
    | none => some (.blank nrPages, false, t)
    | some (k, t) =>
        match claimLoop k (nrParts nrPages) t with
        | (allGref, false, t) => some (⟨nrPages, some k, allGref, []⟩, false, t)
        | (allGref, true, t) =>
            let (grefList, done, t) := claimLoop k nrPages t
            some (⟨nrPages, some k, allGref, grefList⟩, done, t)
  else none

/-- The segments that are not empty; they come first. -/
def grantSegments : List (ℕ × GrantEnv) → Table → Option (List UserRegionSegment × Bool × Table)
  | [], t => some ([], true, t)
  | (nrPages, env) :: segs, t =>
      match grantSegment env nrPages t with
      | none => none
      | some (seg, false, t) => some (seg :: segs.map fun s => .blank s.1, false, t)
      | some (seg, true, t) =>
          (grantSegments segs t).map fun (rest, done, t) => (seg :: rest, done, t)

/-- The empty ones take a cookie each, for no reference.  The segment with the pointer to it is
behind the last of the region. -/
def grantEmpty : List Bool → Table → Table
  | [], t => t
  | memory :: empties, t =>
      match t.getCookie memory 0 with
      | none => t
      | some (_, t) => grantEmpty empties t

/-! ## Destroying a region -/

/-- What happens during a destruction. -/
structure DestroyEnv where
  /-- the backend answers, and it has deregistered the region -/
  deregistered : Bool
  /-- the backend has the page mapped when the reference is looked at -/
  atQuery : ℕ → Bool
  /-- it has when the access is to be ended -/
  atEnd : ℕ → Bool
  /-- the region that is read from the command the second time -/
  uparam : Option ℕ

namespace DestroyEnv

variable (env : DestroyEnv)

/-- A page.  Without the access ended, the reference is left as it is. -/
def releasePage (k : ℕ) (t : Table) (gref : ℕ) : Table :=
  if env.atQuery gref then (t.setAccess gref .mapped).decrCount k
  else if env.atEnd gref then t.setAccess gref .mapped
  else (t.setAccess gref .ended).release k gref

/-- A part of the list.  Here, it is released. -/
def releasePart (k : ℕ) (t : Table) (gref : ℕ) : Table :=
  if env.atQuery gref then (t.setAccess gref .mapped).decrCount k
  else (t.setAccess gref (if env.atEnd gref then .mapped else .ended)).release k gref

/-- A segment that was not granted in full has no cookie, or fewer references than pages. -/
def releaseSegment (seg : UserRegionSegment) (t : Table) : Option Table :=
  if seg.Full then
    seg.grefCookie.bind fun k =>
      (seg.allGref.foldl (env.releasePart k) (seg.grefList.foldl (env.releasePage k) t)).putCookie k
  else none

def releaseSegments : List UserRegionSegment → Table → Option Table
  | [], t => some t
  | seg :: segs, t => (env.releaseSegment seg t).bind (releaseSegments segs)

end DestroyEnv

/-! ## Endpoints -/

/-- `enum omx_endpoint_status`, and the endpoints whose memory is freed. -/
inductive EndpointStatus where
  | free | initializing | ok | freed
  deriving DecidableEq, Repr

/-- `struct omx_endpoint`.  It has regions once its fields were set. -/
structure Endpoint where
  status : EndpointStatus
  /-- those of the lists of the queues, of the endpoint, and of the pages -/
  grefs : List ℕ
  userRegions : Option (List UserRegion)
  deriving DecidableEq, Repr

namespace Endpoint

/-- `omx_miscdev_open`. -/
def new : Endpoint := ⟨.free, [], none⟩

/-- `kfree`. -/
def gone : Endpoint := ⟨.freed, [], none⟩

/-- The segments of its regions. -/
def segments (ep : Endpoint) : List UserRegionSegment :=
  (ep.userRegions.getD []).flatMap UserRegion.claimed

/-- The references of its queues.  One that is not open has them only where a failed opening left
them. -/
def claimed (ep : Endpoint) : List ℕ :=
  if ep.status = .initializing ∨ ep.status = .ok then ep.grefs else []

/-- The native creation comes to its end, with the region in the list. -/
def Creates (id : ℕ) (native : Bool) (regions : List UserRegion) : Prop :=
  id < omxUserRegionMax ∧ native = true ∧ ∀ region ∈ regions, region.id ≠ id

instance (id : ℕ) (native : Bool) (regions : List UserRegion) :
    Decidable (Creates id native regions) :=
  inferInstanceAs (Decidable (_ ∧ _ ∧ _))

/-- `omx_ioctl_xen_user_region_create`.  The region stays in the list whatever the backend
answers. -/
def createUserRegion (id : ℕ) (native : Bool) (segs : List (ℕ × GrantEnv)) (empties : List Bool)
    (t : Table) (ep : Endpoint) : Option (Table × Endpoint) :=
  if ep.status = .freed then none
  else
    match ep.userRegions with
    | none => none
    | some regions =>
        if Creates id native regions then
          (grantSegments segs t).map fun (segments, done, t) =>
            (if done then grantEmpty empties t else t,
              { ep with userRegions := some (regions ++ [⟨id, segments, false⟩]) })
        else some (t, ep)

/-- The regions after a destruction: `region` has no references any more, and the native destruction
takes one off the list. -/
def afterDestroy (env : DestroyEnv) (id : ℕ) (regions : List UserRegion) : List UserRegion :=
  (regions.map fun region =>
    if region.id = id then { region with released := true } else region).filter fun region =>
      env.uparam ≠ some region.id

/-- `omx_ioctl_xen_user_region_destroy`.  It does not check the number of the region. -/
def destroyUserRegion (id : ℕ) (env : DestroyEnv) (t : Table) (ep : Endpoint) :
    Option (Table × Endpoint) :=
  if ep.status = .freed ∨ omxUserRegionMax ≤ id then none
  else
    match ep.userRegions with
    | none => none
    | some regions =>
        match regions.find? (·.id = id) with
        | none => some (t, ep)
        | some region =>
            if env.deregistered = false then some (t, ep)
            else if region.released = true ∧ region.segments ≠ [] then none
            else (env.releaseSegments region.segments t).map fun t =>
              (t, { ep with userRegions := some (afterDestroy env id regions) })

/-- How the backend answers a request. -/
inductive Answer where
  /-- not in time -/
  | none
  | refused
  | done
  deriving DecidableEq, Repr

/-- The status that an opening leaves. -/
def Answer.status : Answer → EndpointStatus
  | .none => .initializing
  | .refused => .free
  | .done => .ok

/-- What happens during an opening. -/
structure OpenEnv where
  /-- `omx_xen_endpoint_alloc_resources` -/
  resources : Bool
  /-- memory for the lists of references -/
  lists : Bool
  answer : Answer

/-- `omx_ioctl_xen_open_endpoint`, with `pages` pages in the queues.  All references that are taken
off the pool are claimed and granted. -/
def openEndpoint (pages : ℕ) (env : OpenEnv) (t : Table) (ep : Endpoint) :
    Option (Table × Endpoint) :=
  match ep.status with
  | .freed => none
  | .initializing | .ok => some (t, ep)
  | .free =>
      if env.resources then
        if env.lists ∧ pages + 3 ≤ t.pool.length then
          some (t.takeGrefs (pages + 3), ⟨env.answer.status, t.pool.take (pages + 3), some []⟩)
        else some (t, { ep with userRegions := some [] })
      else some (t, ep)

/-- One reference of an endpoint: released, whatever comes of ending the access. -/
def ungrant (atEnd : ℕ → Bool) : Table × List ℕ → ℕ → Table × List ℕ
  | (t, chain), gref => (t.setAccess gref (if atEnd gref then .mapped else .ended), gref :: chain)

/-- `omx_xen_endpoint_ungrant_resources`: the pages first, then the lists and the endpoint.  The
chain starts empty, and goes to the pool. -/
def ungrantResources (atEnd : ℕ → Bool) (t : Table) (ep : Endpoint) : Table :=
  let (t, chain) := (ep.grefs.drop 3 ++ ep.grefs.take 3).foldl (ungrant atEnd) (t, [])
  { t with pool := chain ++ t.pool }

/-- `omx_ioctl_xen_close_endpoint`.  The last reference on the endpoint is put. -/
def closeEndpoint (answered : Bool) (atEnd : ℕ → Bool) (t : Table) (ep : Endpoint) :
    Option (Table × Endpoint) :=
  match ep.status with
  | .freed => none
  | .free => some (t, ep)
  | .initializing | .ok =>
      if answered then some (ungrantResources atEnd t ep, .gone) else some (t, ep)

/-- `omx_miscdev_release`.  The references of an open endpoint are released as by a closing; then
the endpoint is used, and its last reference put a second time. -/
def releaseFile (answered : Bool) (t : Table) (ep : Endpoint) : Option (Table × Endpoint) :=
  match ep.status with
  | .freed => none
  | .free => some (t, .gone)
  | .initializing => some (t, ep)
  | .ok => if answered then none else some (t, .gone)

end Endpoint

/-! ## The frontend -/

structure Frontend extends Table where
  endpoints : List Endpoint

inductive Action where
  | openFile
  | openEndpoint (e : ℕ) (env : Endpoint.OpenEnv)
  | closeEndpoint (e : ℕ) (answered : Bool) (atEnd : ℕ → Bool)
  | releaseFile (e : ℕ) (answered : Bool)
  | createUserRegion (e id : ℕ) (native : Bool) (segs : List (ℕ × GrantEnv)) (empties : List Bool)
  | destroyUserRegion (e id : ℕ) (env : DestroyEnv)
  /-- the backend maps a page -/
  | map (gref : ℕ)
  | unmap (gref : ℕ)

namespace Frontend

variable (fe : Frontend)

/-- An operation on an endpoint. -/
def onEndpoint (e : ℕ) (op : Table → Endpoint → Option (Table × Endpoint)) :
    Option (Option Frontend) :=
  fe.endpoints[e]?.map fun ep =>
    (op fe.toTable ep).map fun (t, ep') => { t with endpoints := fe.endpoints.set e ep' }

/-- One step, with `pages` pages in the queues of an endpoint. -/
def step (pages : ℕ) : Option Frontend → Action → Option (Option Frontend)
  | none, _ => some none
  | some fe, .openFile => some (some { fe with endpoints := fe.endpoints ++ [.new] })
  | some fe, .openEndpoint e env => fe.onEndpoint e (Endpoint.openEndpoint pages env)
  | some fe, .closeEndpoint e answered atEnd =>
      fe.onEndpoint e (Endpoint.closeEndpoint answered atEnd)
  | some fe, .releaseFile e answered => fe.onEndpoint e (Endpoint.releaseFile answered)
  | some fe, .createUserRegion e id native segs empties =>
      fe.onEndpoint e (Endpoint.createUserRegion id native segs empties)
  | some fe, .destroyUserRegion e id env => fe.onEndpoint e (Endpoint.destroyUserRegion id env)
  | some fe, .map gref =>
      if fe.access gref = .granted then some (some { fe with toTable := fe.setAccess gref .mapped })
      else none
  | some fe, .unmap gref =>
      if fe.access gref = .mapped then some (some { fe with toTable := fe.setAccess gref .granted })
      else none

/-- The segments of all regions. -/
def segments : List UserRegionSegment := fe.endpoints.flatMap Endpoint.segments

/-- The references that are claimed: by segments, and by endpoints. -/
def held : List ℕ :=
  fe.segments.flatMap UserRegionSegment.refs ++ fe.endpoints.flatMap Endpoint.claimed

/-- A frontend that is connected, with `grefs` references in the pool. -/
def connected (grefs : ℕ) : Frontend where
  pool := List.range grefs
  access := fun _ => .ended
  cookies := noCookies
  endpoints := []

end Frontend

/-- The frontend of a guest with `grefs` references. -/
def frontend (grefs pages : ℕ) : Machine (Option Frontend) Action where
  init := some (.connected grefs)
  step := Frontend.step pages

/-! ## Accounts -/

/-- The references that the segments of a list have claimed from a cookie. -/
def claimedFrom (k : ℕ) (segs : List UserRegionSegment) : List ℕ :=
  (segs.filter fun seg => seg.grefCookie = some k).flatMap UserRegionSegment.refs

/-- The accounts of the references. -/
structure Accounted (grefs : ℕ) (fe : Frontend) : Prop where
  /-- what a cookie records is in its chain, or claimed from it -/
  recorded : ∀ k ∈ fe.cookies.grefCookiesFree ++ fe.cookies.grefCookiesInuse,
    (fe.cookies.cookie k).grefHead.length + (claimedFrom k fe.segments).length =
      (fe.cookies.cookie k).count
  /-- of a free cookie, all of it is in the chain -/
  unused : ∀ k ∈ fe.cookies.grefCookiesFree, claimedFrom k fe.segments = []
  /-- each reference is in one place: it is claimed once, and released once -/
  once : (fe.pool ++ fe.cookies.chains ++ fe.held).Perm (List.range grefs)
  /-- the backend may map a page by those that are claimed, and by no other -/
  access : ∀ gref, fe.access gref ≠ .ended ↔ gref ∈ fe.held

/-! ## The wait for a cookie -/

/-- What comes of an allocation of `count` references of the pool. -/
def Table.alloc (t : Table) (memory : Bool) (count : ℕ) : Alloc :=
  if memory = false then .enomem
  else if count ≤ t.pool.length then .refs fun i => t.pool.getD i 0
  else .enospc

section
variable {fe fe' : Cookies} {count fuel i n n' tries : ℕ} {tryAgain done : Bool} {a : Alloc}

/-- Without new references the wait changes nothing. -/
theorem waitLoop_of_not_refs (ha : ∀ gref, a ≠ .refs gref)
    (h : waitLoop count (fun _ => a) fuel i n tryAgain fe = some (done, n', fe')) : fe' = fe := by
  induction fuel generalizing i n tryAgain with
  | zero => cases h
  | succ fuel ih =>
      rw [waitLoop] at h
      split at h
      · cases a with
        | enomem => cases h; rfl
        | enospc => exact ih h
        | refs gref => exact absurd rfl (ha gref)
      · cases h
        rfl

/-- With them it ends with a cookie, and that is new if there was none or it tries again. -/
theorem waitLoop_of_refs {gref : ℕ → ℕ}
    (h : waitLoop count (fun _ => .refs gref) fuel i n tryAgain fe = some (done, n', fe')) :
    done = true ∧ (fe' = fe.reallyAlloc gref count ∨ fe' = fe ∧ tryAgain = false) := by
  cases fuel with
  | zero => cases h
  | succ fuel =>
      rw [waitLoop] at h
      split at h
      · cases fuel with
        | zero => cases h
        | succ fuel =>
            have hfree : (fe.reallyAlloc gref count).grefCookiesFree ≠ [] :=
              List.append_ne_nil_of_right_ne_nil _ (List.cons_ne_nil _ _)
            dsimp only at h
            rw [waitLoop_of_free hfree] at h
            cases h
            exact ⟨rfl, .inl rfl⟩
      · rename_i hfree
        cases h
        rw [not_or, Bool.not_eq_true] at hfree
        exact ⟨rfl, .inr ⟨rfl, hfree.2⟩⟩

theorem getCookieLoop_of_not_refs (ha : ∀ gref, a ≠ .refs gref) (hsearch : fe.search count = none)
    {r : Option ℕ × Cookies}
    (h : getCookieLoop count (fun _ => a) fuel tries n tryAgain fe = some r) : r = (none, fe) := by
  induction tries using Nat.strong_induction_on generalizing n tryAgain with
  | _ tries ih =>
      cases hwait : waitLoop count (fun _ => a) fuel 0 n tryAgain fe with
      | none => rw [getCookieLoop, hwait] at h; cases h
      | some w =>
          obtain ⟨done, n', fe'⟩ := w
          cases waitLoop_of_not_refs ha hwait
          cases done with
          | false => cases (getCookieLoop_of_enomem hwait).symm.trans h; rfl
          | true =>
              rw [getCookieLoop_of_small hwait hsearch] at h
              cases tries with
              | zero => cases h; rfl
              | succ tries => exact ih tries (Nat.lt_succ_self tries) h

/-- A new cookie is the one that is returned. -/
theorem getCookieLoop_of_refs {gref : ℕ → ℕ} (hsearch : fe.search count = none)
    {r : Option ℕ × Cookies}
    (h : getCookieLoop count (fun _ => .refs gref) fuel (tries + 1) n tryAgain fe = some r) :
    r = (some fe.next, (fe.reallyAlloc gref count).take fe.next
      (List.mem_append_right _ (List.mem_singleton_self _))) := by
  have hnew := Cookies.search_reallyAlloc gref hsearch
  cases hwait : waitLoop count (fun _ => .refs gref) fuel 0 n tryAgain fe with
  | none => rw [getCookieLoop, hwait] at h; cases h
  | some w =>
      obtain ⟨done, n', fe'⟩ := w
      obtain ⟨rfl, rfl | ⟨rfl, -⟩⟩ := waitLoop_of_refs hwait
      · cases (getCookieLoop_of_wait hwait hnew).symm.trans h
        rfl
      · rw [getCookieLoop_of_small hwait hsearch] at h
        dsimp only at h
        cases hwait' : waitLoop count (fun _ => .refs gref) fuel 0 n' true fe' with
        | none => rw [getCookieLoop, hwait'] at h; cases h
        | some w =>
            obtain ⟨done, n'', fe''⟩ := w
            obtain ⟨rfl, rfl | ⟨-, hagain⟩⟩ := waitLoop_of_refs hwait'
            · cases (getCookieLoop_of_wait hwait' hnew).symm.trans h
              rfl
            · cases hagain

end

namespace Table

variable {t : Table} {memory : Bool} {count k : ℕ}

theorem getCookie_of_search (hk : t.cookies.search count = some k) :
    t.getCookie memory count =
      some (k, { t with cookies := t.cookies.take k (t.cookies.mem_of_search hk) }) := by
  unfold getCookie
  split
  · rename_i hk'
    cases hk.symm.trans hk'
    rfl
  · rename_i hnone
    cases hk.symm.trans hnone

theorem getCookie_of_none (hnone : t.cookies.search count = none) :
    t.getCookie memory count =
      if memory = true ∧ count ≤ t.pool.length then
        some (t.cookies.next,
          { t with
            pool := t.pool.drop count
            cookies := (t.cookies.reallyAlloc (fun i => t.pool.getD i 0) count).take t.cookies.next
              (List.mem_append_right _ (List.mem_singleton_self _)) })
      else none := by
  unfold getCookie
  split
  · rename_i hk
    cases hnone.symm.trans hk
  · rfl

end Table

/-- `Table.getCookie` is what `omx_xenfront_gref_get_cookie` returns, whenever it returns. -/
theorem Table.getCookie_eq (t : Table) (memory : Bool) (count : ℕ) {fuel : ℕ}
    {r : Option ℕ × Cookies}
    (h : Grants.getCookie count (fun _ => t.alloc memory count) fuel t.cookies = some r) :
    r = match t.getCookie memory count with
      | some (k, t') => (some k, t'.cookies)
      | none => (none, t.cookies) := by
  rw [Grants.getCookie] at h
  cases hsearch : t.cookies.search count with
  | some k =>
      have hfree : t.cookies.grefCookiesFree ≠ [] :=
        List.ne_nil_of_mem (t.cookies.mem_of_search hsearch)
      rw [Table.getCookie_of_search hsearch]
      cases fuel with
      | zero => cases h
      | succ fuel =>
          cases (getCookieLoop_of_wait (waitLoop_of_free hfree) hsearch).symm.trans h
          rfl
  | none =>
      rw [Table.getCookie_of_none hsearch]
      by_cases hrefs : memory = true ∧ count ≤ t.pool.length
      · have halloc : t.alloc memory count = .refs fun i => t.pool.getD i 0 := by
          rw [Table.alloc, if_neg (by rw [hrefs.1]; rintro ⟨⟩), if_pos hrefs.2]
        rw [if_pos hrefs]
        rw [halloc] at h
        exact getCookieLoop_of_refs hsearch h
      · have hnot : ∀ gref, t.alloc memory count ≠ .refs gref := by
          intro gref
          unfold Table.alloc
          split
          · rintro ⟨⟩
          · rename_i hmemory
            rw [if_neg fun hpool => hrefs ⟨eq_true_of_ne_false hmemory, hpool⟩]
            rintro ⟨⟩
        rw [if_neg hrefs]
        exact getCookieLoop_of_not_refs hnot hsearch h

end Xen2mx.Grants
