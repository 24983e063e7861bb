/-
# `Xen2mx.Regcache.Cache` — the regions of memory that an endpoint has registered

A large message is pulled from a region of the sender to a region of the receiver.  A region has
one of the slots of the map, and the driver knows it by the index of the slot.  Contigous regions
may stay registered when nobody uses them, for the next request of the same memory.

    list               the regions                                   with the regcache
    reg_list           contigous                                     used or not
    reg_unused_list    contigous and not used, the oldest first      evicted when no slot is free
    reg_vect_list      of more than one segment                      always used

A region may have many users, but one reserver: the send whose rndv announces it.

Whether the driver registers a region is part of the call; where it answers that the memory is not
there, and where an application frees memory that a region uses, the library aborts.
-/
import Xen2mx.Lib.FreeList

namespace Xen2mx.Regcache

/-- `OMX_USER_REGION_MAX`. -/
abbrev userRegionMax : ℕ := 256

/-! ## Segments -/

/-- `struct omx_cmd_user_segment`. -/
structure UserSegment where
  vaddr : ℕ
  len : ℕ
  deriving DecidableEq, Repr

/-- `struct omx__req_segs`.  `omx_cache_segments` makes one empty segment of none. -/
structure ReqSegs where
  segs : List UserSegment
  ne_nil : segs ≠ []
  deriving DecidableEq

namespace ReqSegs

def nseg (reqsegs : ReqSegs) : ℕ := reqsegs.segs.length

/-- `single`, which is the segment of a request that has one. -/
def single (reqsegs : ReqSegs) : UserSegment := reqsegs.segs.head reqsegs.ne_nil

/-- `omx_cache_single_segment`. -/
def ofSingle (vaddr len : ℕ) : ReqSegs := ⟨[⟨vaddr, len⟩], List.cons_ne_nil _ _⟩

/-- The addresses of the memory, in the order of the offsets. -/
def addresses (reqsegs : ReqSegs) : List ℕ :=
  reqsegs.segs.flatMap fun seg => List.range' seg.vaddr seg.len

variable {reqsegs reqsegs' : ReqSegs}

theorem nseg_pos (reqsegs : ReqSegs) : 0 < reqsegs.nseg := List.length_pos_iff.2 reqsegs.ne_nil

theorem addresses_single (h : reqsegs.nseg = 1) :
    reqsegs.addresses = List.range' reqsegs.single.vaddr reqsegs.single.len := by
  obtain ⟨segs, hne⟩ := reqsegs
  obtain ⟨seg, rfl⟩ := List.length_eq_one_iff.1 h
  exact List.flatMap_singleton _ _

/-- Memory from the same address on, and no longer. -/
theorem addresses_prefix (h : reqsegs.nseg = 1) (h' : reqsegs'.nseg = 1)
    (hvaddr : reqsegs'.single.vaddr = reqsegs.single.vaddr)
    (hlen : reqsegs.single.len ≤ reqsegs'.single.len) :
    reqsegs.addresses <+: reqsegs'.addresses := by
  rw [addresses_single h, addresses_single h', hvaddr, ← Nat.add_sub_of_le hlen]
  exact ⟨_, List.range'_append_1⟩

end ReqSegs

/-! ## The map of the regions -/

/-- `struct omx__large_region`; its `id` is the index of the slot. -/
structure LargeRegion where
  useCount : ℕ
  segs : ReqSegs
  reserver : Option ℕ

/-- `struct omx__large_region_slot`: the index of the next free one is `-1` where there is none. -/
structure LargeRegionSlot where
  nextFree : Option ℕ
  region : LargeRegion

/-- `struct omx__large_region_map`. -/
structure LargeRegionMap where
  array : ℕ → LargeRegionSlot
  firstFree : Option ℕ
  nrFree : ℕ

namespace LargeRegionMap

/-- The map in `omx__endpoint_large_region_map_init`; the regions are what `malloc` left. -/
def init (malloc : ℕ → LargeRegion) : LargeRegionMap where
  array := fun i => ⟨if i + 1 < userRegionMax then some (i + 1) else none, malloc i⟩
  firstFree := some 0
  nrFree := userRegionMax

variable (map : LargeRegionMap)

def region (id : ℕ) : LargeRegion := (map.array id).region

def nextFree (id : ℕ) : Option ℕ := (map.array id).nextFree

def modify (id : ℕ) (f : LargeRegion → LargeRegion) : LargeRegionMap :=
  { map with
    array := Function.update map.array id { map.array id with region := f (map.region id) } }

/-- The slot is not the first free one any more. -/
def pop (index : ℕ) : LargeRegionMap :=
  { map.modify index ({ · with useCount := 0 }) with
    firstFree := map.nextFree index
    nrFree := map.nrFree - 1 }

/-- `omx__endpoint_large_region_try_alloc`. -/
def tryAlloc : Option (ℕ × LargeRegionMap) :=
  match map.firstFree with
  | none => none
  | some index => some (index, map.pop index)

/-- `omx__endpoint_large_region_free`. -/
def free (id : ℕ) : LargeRegionMap where
  array := Function.update map.array id { map.array id with nextFree := map.firstFree }
  firstFree := some id
  nrFree := map.nrFree + 1

variable (id : ℕ) (f : LargeRegion → LargeRegion)

@[simp] theorem region_modify : (map.modify id f).region =
    Function.update map.region id (f (map.region id)) := by
  funext j
  exact Function.apply_update (fun _ => LargeRegionSlot.region) map.array id _ j

@[simp] theorem nextFree_modify : (map.modify id f).nextFree = map.nextFree := by
  funext j
  refine (Function.apply_update (fun _ => LargeRegionSlot.nextFree) map.array id _ j).trans ?_
  exact congrFun (Function.update_eq_self id map.nextFree) j

@[simp] theorem firstFree_modify : (map.modify id f).firstFree = map.firstFree := rfl

@[simp] theorem nrFree_modify : (map.modify id f).nrFree = map.nrFree := rfl

@[simp] theorem region_pop : (map.pop id).region =
    Function.update map.region id { map.region id with useCount := 0 } :=
  map.region_modify id ({ · with useCount := 0 })

@[simp] theorem nextFree_pop : (map.pop id).nextFree = map.nextFree :=
  map.nextFree_modify id ({ · with useCount := 0 })

@[simp] theorem firstFree_pop : (map.pop id).firstFree = map.nextFree id := rfl

@[simp] theorem nrFree_pop : (map.pop id).nrFree = map.nrFree - 1 := rfl

@[simp] theorem region_free : (map.free id).region = map.region := by
  funext j
  refine (Function.apply_update (fun _ => LargeRegionSlot.region) map.array id _ j).trans ?_
  exact congrFun (Function.update_eq_self id map.region) j

@[simp] theorem nextFree_free :
    (map.free id).nextFree = Function.update map.nextFree id map.firstFree := by
  funext j
  exact Function.apply_update (fun _ => LargeRegionSlot.nextFree) map.array id _ j

@[simp] theorem firstFree_free : (map.free id).firstFree = some id := rfl

@[simp] theorem nrFree_free : (map.free id).nrFree = map.nrFree + 1 := rfl

end LargeRegionMap

/-! ## The endpoint -/

/-- `omx__globals.regcache` and `omx__globals.parallel_regcache`. -/
structure Globals where
  regcache : Bool
  parallelRegcache : Bool
  deriving DecidableEq, Repr

structure Endpoint where
  largeRegionMap : LargeRegionMap
  regList : List ℕ
  regUnusedList : List ℕ
  regVectList : List ℕ

namespace Endpoint

/-- `omx__endpoint_large_region_map_init`. -/
def init (malloc : ℕ → LargeRegion) : Endpoint where
  largeRegionMap := .init malloc
  regList := []
  regUnusedList := []
  regVectList := []

variable (g : Globals) (ep : Endpoint)

abbrev region (id : ℕ) : LargeRegion := ep.largeRegionMap.region id

def modify (id : ℕ) (f : LargeRegion → LargeRegion) : Endpoint :=
  { ep with largeRegionMap := ep.largeRegionMap.modify id f }

/-- `omx__destroy_region`; the region is in one of the lists. -/
def destroyRegion (id : ℕ) : Endpoint :=
  { ep with
    largeRegionMap := ep.largeRegionMap.free id
    regList := ep.regList.erase id
    regVectList := ep.regVectList.erase id }

def tryAlloc : Option ℕ × Endpoint :=
  match ep.largeRegionMap.tryAlloc with
  | none => (none, ep)
  | some (id, map) => (some id, { ep with largeRegionMap := map })

/-- `omx__endpoint_large_region_alloc`. -/
def alloc : Option ℕ × Endpoint :=
  match ep.tryAlloc with
  | (some id, ep) => (some id, ep)
  | (none, ep) =>
      if g.regcache then
        match ep.regUnusedList with
        | [] => (none, ep)
        | id :: unused => (destroyRegion { ep with regUnusedList := unused } id).tryAlloc
      else (none, ep)

/-- `omx__create_region`; `registers` is whether the driver registers the region. -/
def createRegion (reqsegs : ReqSegs) (registers : Bool) : Option ℕ × Endpoint :=
  match ep.alloc g with
  | (none, ep) => (none, ep)
  | (some id, ep) =>
      let ep := ep.modify id ({ · with segs := reqsegs })
      if registers then (some id, ep.modify id ({ · with reserver := none }))
      else (none, { ep with largeRegionMap := ep.largeRegionMap.free id })

/-- The condition on a region of the cache in `omx__get_contigous_region`. -/
def reuses (seg : UserSegment) (reserver : Option ℕ) (id : ℕ) : Bool :=
  (reserver.isNone || (ep.region id).reserver.isNone) &&
  (g.parallelRegcache || (ep.region id).useCount == 0) &&
  (ep.region id).segs.single.vaddr == seg.vaddr &&
  decide (seg.len ≤ (ep.region id).segs.single.len)

/-- A user more, and the reserver if there is one. -/
def use (id : ℕ) (reserver : Option ℕ) : Endpoint :=
  ep.modify id fun region =>
    { region with
      useCount := region.useCount + 1
      reserver := if reserver.isSome then reserver else region.reserver }

@[simp] theorem region_use (id : ℕ) (reserver : Option ℕ) :
    (ep.use id reserver).largeRegionMap.region =
      Function.update ep.largeRegionMap.region id
        { ep.region id with
          useCount := (ep.region id).useCount + 1
          reserver := if reserver.isSome then reserver else (ep.region id).reserver } := by
  simp only [use, modify, LargeRegionMap.region_modify]

@[simp] theorem nextFree_use (id : ℕ) (reserver : Option ℕ) :
    (ep.use id reserver).largeRegionMap.nextFree = ep.largeRegionMap.nextFree := by
  simp only [use, modify, LargeRegionMap.nextFree_modify]

/-- `omx__get_contigous_region`. -/
def getContigousRegion (reqsegs : ReqSegs) (reserver : Option ℕ) (registers : Bool) :
    Option ℕ × Endpoint :=
  match if g.regcache then ep.regList.find? (ep.reuses g reqsegs.single reserver) else none with
  | some id =>
      (some id,
        use
          { ep with
            regUnusedList :=
              if (ep.region id).useCount = 0 then ep.regUnusedList.erase id
              else ep.regUnusedList }
          id reserver)
  | none =>
      match ep.createRegion g reqsegs registers with
      | (none, ep) => (none, ep)
      | (some id, ep) => (some id, use { ep with regList := ep.regList ++ [id] } id reserver)

/-- `omx__get_vect_region`. -/
def getVectRegion (reqsegs : ReqSegs) (reserver : Option ℕ) (registers : Bool) :
    Option ℕ × Endpoint :=
  match ep.createRegion g reqsegs registers with
  | (none, ep) => (none, ep)
  | (some id, ep) => (some id, use { ep with regVectList := ep.regVectList ++ [id] } id reserver)

/-- `omx__get_region`: the region, and none for `OMX_INTERNAL_MISSING_RESOURCES`. -/
def getRegion (reqsegs : ReqSegs) (reserver : Option ℕ) (registers : Bool) :
    Option ℕ × Endpoint :=
  if 1 < reqsegs.nseg then ep.getVectRegion g reqsegs reserver registers
  else ep.getContigousRegion g reqsegs reserver registers

/-- A user less, and no reserver if the user was. -/
def unuse (id : ℕ) (reserver : Option ℕ) : Endpoint :=
  ep.modify id fun region =>
    { region with
      useCount := region.useCount - 1
      reserver := if reserver.isSome then none else region.reserver }

@[simp] theorem region_unuse (id : ℕ) (reserver : Option ℕ) :
    (ep.unuse id reserver).largeRegionMap.region =
      Function.update ep.largeRegionMap.region id
        { ep.region id with
          useCount := (ep.region id).useCount - 1
          reserver := if reserver.isSome then none else (ep.region id).reserver } := by
  simp only [unuse, modify, LargeRegionMap.region_modify]

@[simp] theorem nextFree_unuse (id : ℕ) (reserver : Option ℕ) :
    (ep.unuse id reserver).largeRegionMap.nextFree = ep.largeRegionMap.nextFree := by
  simp only [unuse, modify, LargeRegionMap.nextFree_modify]

/-- `omx__put_region`. -/
def putRegion (id : ℕ) (reserver : Option ℕ) : Endpoint :=
  let ep := ep.unuse id reserver
  if g.regcache && (ep.region id).segs.nseg == 1 then
    { ep with
      regUnusedList :=
        if (ep.region id).useCount = 0 then ep.regUnusedList ++ [id] else ep.regUnusedList }
  else ep.destroyRegion id

/-- `omx__segments_intersect`. -/
def segmentsIntersect (begin₁ end₁ begin₂ end₂ : ℕ) : Bool :=
  decide (max begin₁ begin₂ < min end₁ end₂)

/-- The loop of `omx__endpoint_regcache_clean`, over what is left of `reg_list`. -/
def regcacheCleanLoop (begin_ end_ : ℕ) : List ℕ → Endpoint → Option Endpoint
  | [], ep => some ep
  | id :: ids, ep =>
      let seg := (ep.region id).segs.single
      if segmentsIntersect begin_ end_ seg.vaddr (seg.vaddr + seg.len) then
        -- "Invalidating a region that's being used is an application bug"
        if (ep.region id).useCount = 0 then
          regcacheCleanLoop begin_ end_ ids
            (destroyRegion { ep with regUnusedList := ep.regUnusedList.erase id } id)
        else none
      else regcacheCleanLoop begin_ end_ ids ep

/-- `omx__regcache_clean`. -/
def regcacheClean (ptr size : ℕ) : Option Endpoint :=
  if g.regcache then regcacheCleanLoop ptr (ptr + size) ep.regList ep else some ep

end Endpoint

end Xen2mx.Regcache
