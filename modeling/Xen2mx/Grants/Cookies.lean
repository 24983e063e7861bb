/-
# `Xen2mx.Grants.Cookies` — batches of grant references

Grant references are allocated in batches.  A batch is a cookie: a chain of references, from which
they are claimed and to which they are released, and a count.  The frontend keeps its cookies in
two lists, those that are free and those that somebody uses.

    omx_xenfront_gref_get_cookie     the first free cookie with a count that is large enough; a new
                                     one is allocated while there is no free cookie, and whenever
                                     none is large enough
    omx_xenfront_gref_put_cookie     to the end of the free list

The wait for a cookie ends when a batch can be allocated, or when there is no memory for a cookie.
It counts its rounds, but the count ends nothing.

**Proved here.**

    the search tries again a thousand times at most                 (`getCookieLoop_of_free`)
    a large enough cookie that nobody uses is returned, or nothing is changed
        ⟺  the wait ends, and the count of the cookie found is right (`getCookie_iff`)
    no cookie, and no references any more                           (`getCookie_waits`)
-/
import Mathlib.Data.List.Nodup
import Mathlib.Data.Nat.Find
import Mathlib.Logic.Function.Basic
import Mathlib.Tactic.Common

namespace Xen2mx.Grants

/-- `struct omx_xenfront_gref_cookie`: the references in the chain at `gref_head`, and the count. -/
structure Cookie where
  grefHead : List ℕ
  count : ℕ
  deriving DecidableEq, Repr

/-- The cookies of `struct omx_xenfront_info`; a cookie is known by its number.  Each is in one list
at most, and only once. -/
structure Cookies where
  cookie : ℕ → Cookie
  grefCookiesFree : List ℕ
  grefCookiesInuse : List ℕ
  /-- the number of the next cookie -/
  next : ℕ
  nodup : (grefCookiesFree ++ grefCookiesInuse).Nodup
  lt_next : ∀ k ∈ grefCookiesFree ++ grefCookiesInuse, k < next

/-- How the allocation of a batch goes. -/
inductive Alloc where
  /-- there is no memory for the cookie -/
  | enomem
  /-- there are no references -/
  | enospc
  /-- the references -/
  | refs (gref : ℕ → ℕ)

namespace Cookies

variable (fe : Cookies)

/-- Where the lists have the same members, each as often. -/
theorem nodup_of_perm {free inuse : List ℕ}
    (h : (free ++ inuse).Perm (fe.grefCookiesFree ++ fe.grefCookiesInuse)) :
    (free ++ inuse).Nodup ∧ ∀ k ∈ free ++ inuse, k < fe.next :=
  ⟨h.nodup_iff.2 fe.nodup, fun k hk => fe.lt_next k (h.mem_iff.1 hk)⟩

/-- `omx_xen_gnttab_really_alloc_grant_references`, if nothing fails: a cookie with `count` references
at the end of the free list. -/
def reallyAlloc (gref : ℕ → ℕ) (count : ℕ) : Cookies where
  cookie := Function.update fe.cookie fe.next ⟨(List.range count).map gref, count⟩
  grefCookiesFree := fe.grefCookiesFree ++ [fe.next]
  grefCookiesInuse := fe.grefCookiesInuse
  next := fe.next + 1
  nodup := by
    have hperm : (fe.grefCookiesFree ++ [fe.next] ++ fe.grefCookiesInuse).Perm
        (fe.next :: (fe.grefCookiesFree ++ fe.grefCookiesInuse)) := by
      rw [List.append_assoc]
      exact List.perm_middle
    exact hperm.nodup_iff.2 (List.nodup_cons.2
      ⟨fun hmem => Nat.lt_irrefl _ (fe.lt_next _ hmem), fe.nodup⟩)
  lt_next := by
    intro k hk
    rw [List.append_assoc] at hk
    rcases List.mem_cons.1 (List.perm_middle.mem_iff.1 hk) with rfl | hk
    · exact Nat.lt_succ_self _
    · exact Nat.lt_succ_of_lt (fe.lt_next k hk)

theorem cookie_reallyAlloc_self (gref : ℕ → ℕ) (count : ℕ) :
    (fe.reallyAlloc gref count).cookie fe.next = ⟨(List.range count).map gref, count⟩ :=
  Function.update_self ..

theorem cookie_reallyAlloc_of_ne {k : ℕ} (h : k ≠ fe.next) (gref : ℕ → ℕ) (count : ℕ) :
    (fe.reallyAlloc gref count).cookie k = fe.cookie k := Function.update_of_ne h _ _

/-- `list_move_tail` of a free cookie to the list of those in use. -/
def take (k : ℕ) (hk : k ∈ fe.grefCookiesFree) : Cookies :=
  have hperm : (fe.grefCookiesFree.erase k ++ (fe.grefCookiesInuse ++ [k])).Perm
      (fe.grefCookiesFree ++ fe.grefCookiesInuse) := by
    rw [← List.append_assoc]
    exact (List.perm_append_singleton k _).trans ((List.perm_cons_erase hk).symm.append_right _)
  { fe with
    grefCookiesFree := fe.grefCookiesFree.erase k
    grefCookiesInuse := fe.grefCookiesInuse ++ [k]
    nodup := (fe.nodup_of_perm hperm).1
    lt_next := (fe.nodup_of_perm hperm).2 }

/-- `omx_xenfront_gref_put_cookie`, for a cookie in use. -/
def putCookie (k : ℕ) (hk : k ∈ fe.grefCookiesInuse) : Cookies :=
  have hperm : (fe.grefCookiesFree ++ [k] ++ fe.grefCookiesInuse.erase k).Perm
      (fe.grefCookiesFree ++ fe.grefCookiesInuse) := by
    rw [List.append_assoc]
    exact (List.perm_cons_erase hk).symm.append_left _
  { fe with
    grefCookiesFree := fe.grefCookiesFree ++ [k]
    grefCookiesInuse := fe.grefCookiesInuse.erase k
    nodup := (fe.nodup_of_perm hperm).1
    lt_next := (fe.nodup_of_perm hperm).2 }

/-- The first free cookie with a count that is large enough. -/
def search (count : ℕ) : Option ℕ :=
  fe.grefCookiesFree.find? fun k => count ≤ (fe.cookie k).count

theorem mem_of_search {count k : ℕ} (h : fe.search count = some k) : k ∈ fe.grefCookiesFree :=
  List.mem_of_find?_eq_some h

end Cookies

/-! ## Getting a cookie -/

/-- `XEN_GRANT_TIMEOUT`. -/
def xenGrantTimeout : ℕ := 1000

section
variable (count : ℕ) (alloc : ℕ → Alloc)

/-- The wait for a free cookie: `i` counts its rounds and `n` the allocations, of which `alloc` is what
comes out.  It ends with a cookie in the list, or for want of memory. -/
def waitLoop : (fuel i n : ℕ) → (tryAgain : Bool) → Cookies → Option (Bool × ℕ × Cookies)
  | 0, _, _, _, _ => none
  | fuel + 1, i, n, tryAgain, fe =>
      if fe.grefCookiesFree = [] ∨ tryAgain = true then
        match alloc n with
        | .enomem => some (false, n + 1, fe)
        | .enospc => waitLoop fuel (if i < xenGrantTimeout then i + 1 else i) (n + 1) false fe
        | .refs gref => waitLoop fuel i (n + 1) false (fe.reallyAlloc gref count)
      else some (true, n, fe)

/-- From `again` on, with so many tries to go: what is returned, and what is left. -/
def getCookieLoop (fuel : ℕ) :
    (tries n : ℕ) → (tryAgain : Bool) → Cookies → Option (Option ℕ × Cookies)
  | tries, n, tryAgain, fe =>
      match waitLoop count alloc fuel 0 n tryAgain fe with
      | none => none
      | some (false, _, fe) => some (none, fe)
      | some (true, n, fe) =>
          match hk : fe.search count with
          | some k => some (some k, fe.take k (fe.mem_of_search hk))
          | none =>
              match tries with
              | 0 => some (none, fe)
              | tries + 1 => getCookieLoop fuel tries n true fe

/-- `omx_xenfront_gref_get_cookie`, if so much fuel is enough for each wait. -/
def getCookie (fuel : ℕ) (fe : Cookies) : Option (Option ℕ × Cookies) :=
  getCookieLoop count alloc fuel xenGrantTimeout 0 false fe

end

/-! ## What comes of it -/

/-- A cookie nobody used that holds as many references as asked for, or everything as it was. -/
def Good (fe : Cookies) (count : ℕ) : Option ℕ × Cookies → Prop
  | (some k, fe') => count ≤ (fe'.cookie k).grefHead.length ∧ k ∉ fe.grefCookiesInuse ∧
      k ∈ fe'.grefCookiesInuse ∧ k ∉ fe'.grefCookiesFree
  | (none, fe') => fe' = fe

variable {fe : Cookies} {count fuel i n tries : ℕ} {alloc : ℕ → Alloc} {tryAgain : Bool} {k : ℕ}

/-- A free cookie that is taken. -/
theorem Cookies.good_take (hk : k ∈ fe.grefCookiesFree)
    (hcount : count ≤ (fe.cookie k).grefHead.length) : Good fe count (some k, fe.take k hk) := by
  have hfree : fe.grefCookiesFree.Nodup := (List.nodup_append.1 fe.nodup).1
  have hdisjoint : k ∉ fe.grefCookiesInuse := fun hmem =>
    (List.nodup_append.1 fe.nodup).2.2 k hk k hmem rfl
  exact ⟨hcount, hdisjoint, List.mem_append_right _ (List.mem_singleton_self k),
    hfree.not_mem_erase⟩

/-- A cookie that was allocated is found. -/
theorem Cookies.search_reallyAlloc (gref : ℕ → ℕ) (h : fe.search count = none) :
    (fe.reallyAlloc gref count).search count = some fe.next := by
  have hold : (fe.grefCookiesFree.find?
      fun k => count ≤ ((fe.reallyAlloc gref count).cookie k).count) = none := by
    refine List.find?_eq_none.2 fun k hk => ?_
    have hne : k ≠ fe.next := Nat.ne_of_lt (fe.lt_next k (List.mem_append_left _ hk))
    rw [fe.cookie_reallyAlloc_of_ne hne]
    exact List.find?_eq_none.1 h k hk
  rw [search]
  show (fe.grefCookiesFree ++ [fe.next]).find? _ = _
  rw [List.find?_append, hold, Option.none_or, List.find?_cons_of_pos]
  rw [cookie_reallyAlloc_self]
  exact decide_eq_true (Nat.le_refl count)

/-- And it has as many references as were asked for. -/
theorem Cookies.good_reallyAlloc (gref : ℕ → ℕ)
    (hk : fe.next ∈ (fe.reallyAlloc gref count).grefCookiesFree) :
    Good fe count (some fe.next, (fe.reallyAlloc gref count).take fe.next hk) := by
  have hcount : count ≤ ((fe.reallyAlloc gref count).cookie fe.next).grefHead.length := by
    rw [cookie_reallyAlloc_self, List.length_map, List.length_range]
  obtain ⟨hlength, -, hinuse, hfree⟩ := good_take hk hcount
  exact ⟨hlength, fun hmem => Nat.lt_irrefl _ (fe.lt_next _ (List.mem_append_right _ hmem)),
    hinuse, hfree⟩

/-! ## The wait -/

/-- With a free cookie there is nothing to wait for. -/
theorem waitLoop_succ : waitLoop count alloc (fuel + 1) i n tryAgain fe =
    if fe.grefCookiesFree = [] ∨ tryAgain = true then
      match alloc n with
      | .enomem => some (false, n + 1, fe)
      | .enospc =>
          waitLoop count alloc fuel (if i < xenGrantTimeout then i + 1 else i) (n + 1) false fe
      | .refs gref => waitLoop count alloc fuel i (n + 1) false (fe.reallyAlloc gref count)
    else some (true, n, fe) :=
  rfl

theorem waitLoop_of_free (hfree : fe.grefCookiesFree ≠ []) :
    waitLoop count alloc (fuel + 1) i n false fe = some (true, n, fe) := by
  rw [waitLoop_succ, if_neg (by simpa using hfree)]

/-- With a free cookie there is one allocation at most. -/
theorem waitLoop_cases (hfree : fe.grefCookiesFree ≠ []) :
    ∃ n', waitLoop count alloc (fuel + 2) i n tryAgain fe = some (false, n', fe) ∨
      waitLoop count alloc (fuel + 2) i n tryAgain fe = some (true, n', fe) ∨
      ∃ gref, waitLoop count alloc (fuel + 2) i n tryAgain fe =
        some (true, n', fe.reallyAlloc gref count) := by
  cases tryAgain with
  | false => exact ⟨n, .inr (.inl (waitLoop_of_free hfree))⟩
  | true =>
      refine ⟨n + 1, ?_⟩
      rw [waitLoop_succ, if_pos (.inr rfl)]
      cases alloc n with
      | enomem => exact .inl rfl
      | enospc => exact .inr (.inl (waitLoop_of_free hfree))
      | refs gref =>
          refine .inr (.inr ⟨gref, waitLoop_of_free ?_⟩)
          exact List.append_ne_nil_of_right_ne_nil _ (List.cons_ne_nil _ _)

/-- Without one, there are allocations until one does not fail for want of references. -/
theorem waitLoop_of_empty (hfree : fe.grefCookiesFree = []) {m : ℕ} (hm : alloc (n + m) ≠ .enospc)
    (hbefore : ∀ j < m, alloc (n + j) = .enospc) :
    waitLoop count alloc (m + 2) i n false fe = some (false, n + m + 1, fe) ∨
      ∃ gref, waitLoop count alloc (m + 2) i n false fe =
        some (true, n + m + 1, fe.reallyAlloc gref count) := by
  induction m generalizing i n with
  | zero =>
      rw [waitLoop_succ, if_pos (.inl hfree)]
      cases halloc : alloc n with
      | enomem => exact .inl rfl
      | enospc => exact absurd halloc hm
      | refs gref =>
          refine .inr ⟨gref, waitLoop_of_free ?_⟩
          exact List.append_ne_nil_of_right_ne_nil _ (List.cons_ne_nil _ _)
  | succ m ih =>
      have hfirst : alloc n = .enospc := hbefore 0 (Nat.succ_pos m)
      have hshift : ∀ j, n + 1 + j = n + (j + 1) := fun j => by omega
      rw [← hshift] at hm ⊢
      rw [waitLoop_succ, if_pos (.inl hfree), hfirst]
      refine ih hm fun j hj => ?_
      rw [hshift]
      exact hbefore (j + 1) (Nat.succ_lt_succ hj)

/-- If they all do, the wait does not end. -/
theorem waitLoop_eq_none (hfree : fe.grefCookiesFree = []) (h : ∀ n, alloc n = .enospc) :
    waitLoop count alloc fuel i n false fe = none := by
  induction fuel generalizing i n with
  | zero => rfl
  | succ fuel ih =>
      rw [waitLoop_succ, if_pos (.inl hfree), h n]
      exact ih

/-! ## The search -/

theorem getCookieLoop_eq : getCookieLoop count alloc fuel tries n tryAgain fe =
    match waitLoop count alloc fuel 0 n tryAgain fe with
    | none => none
    | some (false, _, fe) => some (none, fe)
    | some (true, n, fe) =>
        match hk : fe.search count with
        | some k => some (some k, fe.take k (fe.mem_of_search hk))
        | none =>
            match tries with
            | 0 => some (none, fe)
            | tries + 1 => getCookieLoop count alloc fuel tries n true fe := by
  rw [getCookieLoop]

/-- A wait that ends with a cookie in the list. -/
theorem getCookieLoop_of_wait {n' : ℕ} {fe' : Cookies}
    (h : waitLoop count alloc fuel 0 n tryAgain fe = some (true, n', fe'))
    (hk : fe'.search count = some k) :
    getCookieLoop count alloc fuel tries n tryAgain fe =
      some (some k, fe'.take k (fe'.mem_of_search hk)) := by
  rw [getCookieLoop_eq, h]
  dsimp only
  split
  · rename_i k' hk'
    cases hk.symm.trans hk'
    rfl
  · rename_i hnone
    cases hk.symm.trans hnone

/-- One that ends for want of memory. -/
theorem getCookieLoop_of_enomem {n' : ℕ} {fe' : Cookies}
    (h : waitLoop count alloc fuel 0 n tryAgain fe = some (false, n', fe')) :
    getCookieLoop count alloc fuel tries n tryAgain fe = some (none, fe') := by
  rw [getCookieLoop_eq, h]

/-- One that ends with cookies that are too small. -/
theorem getCookieLoop_of_small {n' : ℕ} {fe' : Cookies}
    (h : waitLoop count alloc fuel 0 n tryAgain fe = some (true, n', fe'))
    (hsearch : fe'.search count = none) :
    getCookieLoop count alloc fuel tries n tryAgain fe =
      match tries with
      | 0 => some (none, fe')
      | tries + 1 => getCookieLoop count alloc fuel tries n' true fe' := by
  rw [getCookieLoop_eq, h]
  dsimp only
  split
  · rename_i k hk
    cases hsearch.symm.trans hk
  · rfl

/-- Where all cookies are too small, a new one is returned, or nothing is changed. -/
theorem getCookieLoop_of_free (hfree : fe.grefCookiesFree ≠ []) (hsearch : fe.search count = none) :
    ∃ r, getCookieLoop count alloc (fuel + 2) tries n tryAgain fe = some r ∧ Good fe count r := by
  induction tries using Nat.strong_induction_on generalizing n tryAgain with
  | _ tries ih =>
      obtain ⟨n', hwait | hwait | ⟨gref, hwait⟩⟩ :=
        @waitLoop_cases fe count fuel 0 n alloc tryAgain hfree
      · exact ⟨_, getCookieLoop_of_enomem hwait, rfl⟩
      · rw [getCookieLoop_of_small hwait hsearch]
        cases tries with
        | zero => exact ⟨_, rfl, rfl⟩
        | succ tries => exact ih tries (Nat.lt_succ_self tries)
      · exact ⟨_, getCookieLoop_of_wait hwait (Cookies.search_reallyAlloc gref hsearch),
          Cookies.good_reallyAlloc gref _⟩

/-- A batch is allocated some time, or there is no memory for a cookie. -/
def WaitEnds (alloc : ℕ → Alloc) : Prop := ∃ n, alloc n ≠ .enospc

/-- With no free cookie. -/
theorem getCookie_of_empty (hfree : fe.grefCookiesFree = []) (h : WaitEnds alloc) :
    ∃ fuel r, getCookie count alloc fuel fe = some r ∧ Good fe count r := by
  classical
  have hfirst : ∀ j < Nat.find h, alloc (0 + j) = .enospc := fun j hj =>
    (Nat.zero_add j).symm ▸ not_not.1 (Nat.find_min h hj)
  have hend : alloc (0 + Nat.find h) ≠ .enospc := (Nat.zero_add _).symm ▸ Nat.find_spec h
  have hsearch : fe.search count = none := by
    rw [Cookies.search, hfree]
    rfl
  refine ⟨Nat.find h + 2, ?_⟩
  rcases @waitLoop_of_empty fe count 0 0 alloc hfree _ hend hfirst with hwait | ⟨gref, hwait⟩
  · exact ⟨_, getCookieLoop_of_enomem hwait, rfl⟩
  · exact ⟨_, getCookieLoop_of_wait hwait (Cookies.search_reallyAlloc gref hsearch),
      Cookies.good_reallyAlloc gref _⟩

/-- A cookie is returned that nobody uses and that holds the references asked for, or everything is
as it was, exactly when there is a free cookie or the wait for one ends, and the count of the first
cookie that seems large enough is not too large. -/
theorem getCookie_iff (fe : Cookies) (count : ℕ) (alloc : ℕ → Alloc) :
    (∃ fuel r, getCookie count alloc fuel fe = some r ∧ Good fe count r) ↔
      (fe.grefCookiesFree = [] → WaitEnds alloc) ∧
      ∀ k, fe.search count = some k → count ≤ (fe.cookie k).grefHead.length := by
  constructor
  · rintro ⟨fuel, r, hr, hgood⟩
    constructor
    · intro hfree
      by_contra hnever
      have hnone : waitLoop count alloc fuel 0 0 false fe = none :=
        waitLoop_eq_none hfree fun n => not_not.1 fun hn => hnever ⟨n, hn⟩
      rw [getCookie, getCookieLoop, hnone] at hr
      cases hr
    · intro k hk
      have hfree : fe.grefCookiesFree ≠ [] := List.ne_nil_of_mem (fe.mem_of_search hk)
      cases fuel with
      | zero => cases hr
      | succ fuel =>
          have hwait := @waitLoop_of_free fe count fuel 0 0 alloc hfree
          cases (getCookieLoop_of_wait hwait hk).symm.trans hr
          exact hgood.1
  · rintro ⟨hempty, hcount⟩
    by_cases hfree : fe.grefCookiesFree = []
    · exact getCookie_of_empty hfree (hempty hfree)
    · cases hsearch : fe.search count with
      | none => exact ⟨2, getCookieLoop_of_free hfree hsearch⟩
      | some k =>
          exact ⟨1, _, getCookieLoop_of_wait (waitLoop_of_free hfree) hsearch,
            Cookies.good_take _ (hcount k hsearch)⟩

/-- No cookie at all, as when the frontend connects. -/
def noCookies : Cookies where
  cookie := fun _ => ⟨[], 0⟩
  grefCookiesFree := []
  grefCookiesInuse := []
  next := 0
  nodup := List.nodup_nil
  lt_next := nofun

/-- No cookie, and no references any more: the wait for one does not end. -/
theorem getCookie_waits : ¬ ∃ fuel r, getCookie 1 (fun _ => .enospc) fuel noCookies = some r := by
  rintro ⟨fuel, r, hr⟩
  have hnone : waitLoop 1 (fun _ => .enospc) fuel 0 0 false noCookies = none :=
    waitLoop_eq_none rfl fun _ => rfl
  rw [getCookie, getCookieLoop, hnone] at hr
  cases hr

end Xen2mx.Grants
