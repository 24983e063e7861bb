/-
# `Xen2mx.Regcache.Holders` — who uses the regions

Nothing in the library says who uses a region: the count of its users and its reserver are all there
is.  The list of the users says what the two stand for; a user that reserves is the reserver.

**Proved here.**

    the order of the users does not matter        (`Held.perm`)
    a user of another region does not matter      (`Held.cons_iff_of_ne`)
    one user more, one user less                  (`Held.use`, `Held.leave`)
-/
import Xen2mx.Regcache.Cache

namespace Xen2mx.Regcache

/-- A call of `omx__get_region` that succeeded: the region, and what it was asked for. -/
structure Holder where
  region : ℕ
  segs : ReqSegs
  reserver : Option ℕ
  deriving DecidableEq

/-- How many use a region. -/
def users (holders : List Holder) (id : ℕ) : ℕ := holders.countP fun h => h.region = id

/-- Who reserves a region. -/
def reservers (holders : List Holder) (id : ℕ) : List ℕ :=
  holders.filterMap fun h => if h.region = id then h.reserver else none

/-- The region is as its users have it. -/
structure Held (holders : List Holder) (id : ℕ) (region : LargeRegion) : Prop where
  useCount : region.useCount = users holders id
  reserver : (reservers holders id).Perm region.reserver.toList
  covers : ∀ h ∈ holders, h.region = id → h.segs.addresses <+: region.segs.addresses

variable {holders holders' : List Holder} {h : Holder} {id : ℕ} {region region' : LargeRegion}

theorem users_cons (h : Holder) (holders : List Holder) (id : ℕ) :
    users (h :: holders) id = users holders id + if h.region = id then 1 else 0 := by
  rw [users, List.countP_cons]
  simp only [decide_eq_true_eq, users]

theorem reservers_cons (h : Holder) (holders : List Holder) (id : ℕ) :
    reservers (h :: holders) id =
      (if h.region = id then h.reserver else none).toList ++ reservers holders id := by
  rw [reservers, List.filterMap_cons]
  split
  · rename_i heq
    rw [heq]
    rfl
  · rename_i heq
    rw [heq]
    rfl

theorem users_eq_zero : users holders id = 0 ↔ ∀ h ∈ holders, h.region ≠ id := by
  rw [users, List.countP_eq_zero]
  simp only [decide_eq_true_eq]

namespace Held

theorem perm (hheld : Held holders id region) (hperm : holders.Perm holders') :
    Held holders' id region where
  useCount := hheld.useCount.trans (hperm.countP_eq _)
  reserver := (hperm.symm.filterMap _).trans hheld.reserver
  covers := fun h hmem => hheld.covers h (hperm.symm.subset hmem)

theorem cons_iff_of_ne (hne : h.region ≠ id) :
    Held (h :: holders) id region ↔ Held holders id region := by
  have husers : users (h :: holders) id = users holders id := by
    rw [users_cons, if_neg hne, Nat.add_zero]
  have hreservers : reservers (h :: holders) id = reservers holders id := by
    rw [reservers_cons, if_neg hne]
    rfl
  constructor
  · intro hheld
    exact ⟨hheld.useCount.trans husers, hreservers ▸ hheld.reserver,
      fun h' hmem => hheld.covers h' (List.mem_cons_of_mem _ hmem)⟩
  · intro hheld
    refine ⟨hheld.useCount.trans husers.symm, hreservers.symm ▸ hheld.reserver,
      fun h' hmem hid => ?_⟩
    rcases List.mem_cons.1 hmem with rfl | hmem
    · exact absurd hid hne
    · exact hheld.covers h' hmem hid

theorem erase_of_ne (hheld : Held holders id region) (hmem : h ∈ holders) (hne : h.region ≠ id) :
    Held (holders.erase h) id region :=
  (cons_iff_of_ne hne).1 (hheld.perm (List.perm_cons_erase hmem))

/-- Nobody uses a region that was just created. -/
theorem created (hnone : ∀ h ∈ holders, h.region ≠ id) (segs : ReqSegs) :
    Held holders id ⟨0, segs, none⟩ where
  useCount := (users_eq_zero.2 hnone).symm
  reserver := by
    have hnil : reservers holders id = [] :=
      List.filterMap_eq_nil_iff.2 fun h hmem => if_neg (hnone h hmem)
    rw [hnil]
    exact List.Perm.refl _
  covers := fun h hmem hid => absurd hid (hnone h hmem)

/-- Who uses the region, and reserves it if it says so. -/
theorem use (hheld : Held holders h.region region)
    (hreserver : h.reserver.isSome → region.reserver = none)
    (hcovers : h.segs.addresses <+: region.segs.addresses) :
    Held (h :: holders) h.region
      { region with
        useCount := region.useCount + 1
        reserver := if h.reserver.isSome then h.reserver else region.reserver } where
  useCount := by rw [users_cons, if_pos rfl, hheld.useCount]
  reserver := by
    rw [reservers_cons, if_pos rfl]
    cases hh : h.reserver with
    | none => exact hheld.reserver
    | some r =>
        have hnil : reservers holders h.region = [] := by
          have hperm := hheld.reserver
          rw [hreserver (hh ▸ rfl)] at hperm
          exact hperm.eq_nil
        rw [hnil]
        exact List.Perm.refl _
  covers := fun h' hmem hid => by
    rcases List.mem_cons.1 hmem with rfl | hmem
    · exact hcovers
    · exact hheld.covers h' hmem hid

/-- The user that is left out uses the region no more. -/
theorem leave (hheld : Held (h :: holders) h.region region) :
    Held holders h.region
      { region with
        useCount := region.useCount - 1
        reserver := if h.reserver.isSome then none else region.reserver } where
  useCount := by
    have hcount := hheld.useCount
    rw [users_cons, if_pos rfl] at hcount
    change region.useCount - 1 = _
    rw [hcount, Nat.add_sub_cancel]
  reserver := by
    have hperm := hheld.reserver
    rw [reservers_cons, if_pos rfl] at hperm
    cases hh : h.reserver with
    | none =>
        rw [hh] at hperm
        exact hperm
    | some r =>
        rw [hh] at hperm
        -- there is one reserver at most, and this is it
        have hlen := hperm.length_eq
        rw [List.length_append] at hlen
        have hone : (some r : Option ℕ).toList.length = 1 := rfl
        have hle : region.reserver.toList.length ≤ 1 := by
          cases region.reserver with
          | none => exact Nat.zero_le _
          | some _ => exact Nat.le_refl _
        have hnil : reservers holders h.region = [] := List.length_eq_zero_iff.1 (by omega)
        rw [hnil]
        exact List.Perm.refl _
  covers := fun h' hmem hid => hheld.covers h' (List.mem_cons_of_mem _ hmem) hid

end Held

end Xen2mx.Regcache
