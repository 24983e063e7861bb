/-
# `Xen2mx.Sendq.Slots` — every entry of the send queue comes back once

An entry that is not in the free list is in the array of indexes of one request, its user.  A
request gets its entries at once, and puts them at once when it is completed: after its ack, after
the last event if the ack came first, or when its partner is cleaned up.

    request                    entries    when it is completed unsent
    waits for resources        none       puts none, and so sets the first free entry to what is
                                          before its array
    waits for a sequence
    number                     has them   does not put them
    posted                     has them   is not

**Proved here.**

    in every state of a run the free list has the entries without a user, and each request
    puts what it got once
        ⟺  no cleanup of the run completes a throttled medium, nor one that waits for its
            entries unless the first free entry stands before its array
                                                                       (`machine_slotsConserved_iff`)
-/
import Xen2mx.Sendq.Endpoint

namespace Xen2mx.Sendq

/-! ## Who has the entries -/

/-- The entries that a request has. -/
def Req.slots : Req → List ℕ
  | .mediumsq req => if req.sendqSlot then [] else req.sendqMapIndex
  | .pull _ => []

namespace Endpoint

def heldSlots (ep : Endpoint) (id : ℕ) : List ℕ := (ep.req id).elim [] Req.slots

/-- The free list is as it should be, and what a request got it puts once, when it is completed. -/
structure SlotsConserved (z : Sizes) (ep : Endpoint) : Prop where
  free : ∃ l, ep.sendqMap.Free z.entryNr l ∧ l.Nodup
  once : ∀ id, (ep.taken id).Nodup
  live : ∀ id, ep.req id ≠ none → ep.returned id = []
  completed : ∀ id, ep.req id = none → ep.returned id = ep.taken id

end Endpoint

/-- What is known of a medium by its state. -/
structure MediumsqReq.Placed (req : MediumsqReq) : Prop where
  pos : 0 < req.fragsNr
  index : req.sendqSlot = false → req.sendqMapIndex.length = req.fragsNr
  delayed : req.needResources = req.sendqSlot
  throttled : req.needSeqnum = true → req.needResources = false
  posted : req.needAck = true → req.needResources = false ∧ req.needSeqnum = false

/-- A medium that has its entries. -/
theorem MediumsqReq.Placed.of_index {req : MediumsqReq} (hpos : 0 < req.fragsNr)
    (hindex : req.sendqMapIndex.length = req.fragsNr) (hslot : req.sendqSlot = false)
    (hres : req.needResources = false) (hposted : req.needAck = true → req.needSeqnum = false) :
    req.Placed :=
  ⟨hpos, fun _ => hindex, hres.trans hslot.symm, fun _ => hres, fun hack => ⟨hres, hposted hack⟩⟩

namespace Endpoint

/-- The users of the entries are the requests that have them. -/
structure Slotted (z : Sizes) (ep : Endpoint) : Prop where
  free : ∃ l, ep.sendqMap.Free z.entryNr l
  user : ∀ i id, i ∈ ep.heldSlots id ↔ i < z.entryNr ∧ ep.sendqMap.user i = some id
  live : ∀ id req, ep.req id = some req → ep.taken id = req.slots ∧ ep.returned id = []
  completed : ∀ id, ep.req id = none → ep.returned id = ep.taken id
  nodup : ∀ id, (ep.taken id).Nodup
  fresh : ∀ id, ep.next ≤ id → ep.req id = none ∧ ep.taken id = []
  placed : ∀ id req, ep.req id = some (.mediumsq req) → req.Placed

variable {z : Sizes} {ep ep' : Endpoint} {id : ℕ}

theorem Slotted.init (z : Sizes) : Slotted z (init z) where
  free := ⟨_, SendqMap.Free.init (Nat.lt_of_lt_of_le z.batch_pos (Nat.div_le_self _ _))⟩
  user := fun _ _ => iff_of_false List.not_mem_nil fun h => nomatch h.2
  live := nofun
  completed := fun _ _ => rfl
  nodup := fun _ => List.nodup_nil
  fresh := fun _ _ => ⟨rfl, rfl⟩
  placed := nofun

theorem Slotted.conserved (hep : Slotted z ep) : ep.SlotsConserved z where
  free := by
    obtain ⟨l, hl⟩ := hep.free
    exact ⟨l, hl, hl.threaded.nodup⟩
  once := hep.nodup
  live := fun id hne => by
    obtain ⟨req, hreq⟩ := Option.ne_none_iff_exists'.1 hne
    exact (hep.live id req hreq).2
  completed := hep.completed

theorem Slotted.lt_next (hep : Slotted z ep) {req : Req} (hreq : ep.req id = some req) :
    id < ep.next := by
  by_contra hle
  exact nomatch (hep.fresh id (Nat.le_of_not_lt hle)).1.symm.trans hreq

/-! ## What the functions do with the entries -/

/-- The entries have no part in it. -/
structure SameSlots (ep ep' : Endpoint) : Prop where
  req : ep'.req = ep.req
  next : ep'.next = ep.next
  sendqMap : ep'.sendqMap = ep.sendqMap
  taken : ep'.taken = ep.taken
  returned : ep'.returned = ep.returned

theorem SameSlots.refl (ep : Endpoint) : SameSlots ep ep := ⟨rfl, rfl, rfl, rfl, rfl⟩

theorem Slotted.congr (hep : Slotted z ep) (h : SameSlots ep ep') : Slotted z ep' where
  free := by rw [h.sendqMap]; exact hep.free
  user := by
    unfold heldSlots
    rw [h.sendqMap, h.req]
    exact hep.user
  live := by rw [h.req, h.taken, h.returned]; exact hep.live
  completed := by rw [h.req, h.taken, h.returned]; exact hep.completed
  nodup := by rw [h.taken]; exact hep.nodup
  fresh := by rw [h.req, h.next, h.taken]; exact hep.fresh
  placed := by rw [h.req]; exact hep.placed

theorem heldSlots_set_self (ep : Endpoint) (id : ℕ) (new : Option Req) :
    (ep.set id new).heldSlots id = new.elim [] Req.slots :=
  congrArg (Option.elim · [] Req.slots) (ep.set_req_self id new)

theorem heldSlots_set_of_ne (ep : Endpoint) {id i : ℕ} (h : i ≠ id) (new : Option Req) :
    (ep.set id new).heldSlots i = ep.heldSlots i :=
  congrArg (Option.elim · [] Req.slots) (ep.set_req_of_ne h new)

/-- A request is stored that has what it had. -/
theorem Slotted.set (hep : Slotted z ep) (hid : id < ep.next) (hreturned : ep.returned id = [])
    {new : Req} (htaken : ep.taken id = new.slots) (hheld : ep.heldSlots id = new.slots)
    (hplaced : ∀ req, new = .mediumsq req → req.Placed) : Slotted z (ep.set id (some new)) where
  free := hep.free
  user := fun i id' => by
    refine Iff.trans ?_ (hep.user i id')
    rcases eq_or_ne id' id with rfl | hne
    · rw [hheld, heldSlots_set_self]
      rfl
    · rw [heldSlots_set_of_ne _ hne]
  live := fun id' req hreq => by
    rcases eq_or_ne id' id with rfl | hne
    · cases (ep.set_req_self _ _).symm.trans hreq
      exact ⟨htaken, hreturned⟩
    · exact hep.live id' req ((ep.set_req_of_ne hne _).symm.trans hreq)
  completed := fun id' hreq => by
    rcases eq_or_ne id' id with rfl | hne
    · exact nomatch (ep.set_req_self _ _).symm.trans hreq
    · exact hep.completed id' ((ep.set_req_of_ne hne _).symm.trans hreq)
  nodup := hep.nodup
  fresh := fun id' hle => by
    have hne : id' ≠ id := Nat.ne_of_gt (Nat.lt_of_lt_of_le hid hle)
    obtain ⟨hnone, htaken'⟩ := hep.fresh id' hle
    exact ⟨(ep.set_req_of_ne hne _).trans hnone, htaken'⟩
  placed := fun id' req hreq => by
    rcases eq_or_ne id' id with rfl | hne
    · exact hplaced req (Option.some.inj ((ep.set_req_self _ _).symm.trans hreq))
    · exact hep.placed id' req ((ep.set_req_of_ne hne _).symm.trans hreq)

theorem SameSlots.set (h : SameSlots ep ep') (id : ℕ) (new : Option Req) :
    SameSlots (ep.set id new) (ep'.set id new) := by
  refine ⟨?_, h.next, h.sendqMap, h.taken, h.returned⟩
  change Function.update ep'.req id new = Function.update ep.req id new
  rw [h.req]

/-- A request that had no entries is stored with those that a get found. -/
theorem Slotted.get (hep : Slotted z ep) {req req' : MediumsqReq}
    (hslot : needSendqMapSlot z ep id req = some (some (ep', req'))) (hid : id < ep.next)
    (htaken : ep.taken id = []) (hreturned : ep.returned id = []) (hheld : ep.heldSlots id = [])
    {new : Req} (hnew : new.slots = req'.sendqMapIndex)
    (hplaced : ∀ req, new = .mediumsq req → req.Placed) : Slotted z (ep'.set id (some new)) := by
  obtain ⟨l, hl⟩ := hep.free
  rw [needSendqMapSlot] at hslot
  obtain ⟨got, hget, hgot⟩ := Option.map_eq_some_iff.1 hslot
  obtain ⟨⟨map, founds⟩, rfl, heq⟩ := Option.map_eq_some_iff.1 hgot
  have hnr : req.fragsNr ≤ l.length := by
    by_contra hlt
    cases (hl.get_eq_none (Nat.lt_of_not_le hlt) id).symm.trans hget
  obtain ⟨map', hget', hfree, huser⟩ := hl.get hnr id
  cases hget'.symm.trans hget
  cases heq
  have hself : (some new).elim [] Req.slots = l.take req.fragsNr := hnew
  have hfound : ∀ i, i ∈ l.take req.fragsNr → i < z.entryNr ∧ ep.sendqMap.user i = none :=
    fun i hi => (hl.mem_iff i).1 (List.mem_of_mem_take hi)
  refine ⟨⟨_, hfree⟩, fun i id' => ?_, fun id' req' hreq => ?_, fun id' hreq => ?_, fun id' => ?_,
    fun id' hle => ?_, fun id' req' hreq => ?_⟩
  · change _ ↔ i < z.entryNr ∧ map.user i = some id'
    rw [huser i]
    by_cases hi : i ∈ l.take req.fragsNr
    · rw [if_pos hi]
      rcases eq_or_ne id' id with rfl | hne
      · rw [heldSlots_set_self, hself]
        exact iff_of_true hi ⟨(hfound i hi).1, rfl⟩
      · rw [heldSlots_set_of_ne _ hne]
        refine iff_of_false (fun hmem => ?_) fun h => hne (Option.some.inj h.2).symm
        cases (hfound i hi).2.symm.trans ((hep.user i id').1 hmem).2
    · rw [if_neg hi]
      rcases eq_or_ne id' id with rfl | hne
      · rw [heldSlots_set_self, hself]
        refine iff_of_false hi fun h => ?_
        have hmem := (hep.user i id').2 h
        rw [hheld] at hmem
        cases hmem
      · rw [heldSlots_set_of_ne _ hne]
        exact hep.user i id'
  · rcases eq_or_ne id' id with rfl | hne
    · cases (set_req_self _ _ _).symm.trans hreq
      exact ⟨(Function.update_self ..).trans hnew.symm, hreturned⟩
    · have hold : ep.req id' = some req' := (set_req_of_ne _ hne _).symm.trans hreq
      exact ⟨(Function.update_of_ne hne ..).trans (hep.live id' req' hold).1,
        (hep.live id' req' hold).2⟩
  · rcases eq_or_ne id' id with rfl | hne
    · cases (set_req_self _ _ _).symm.trans hreq
    · have hold : ep.req id' = none := (set_req_of_ne _ hne _).symm.trans hreq
      exact (hep.completed id' hold).trans (Function.update_of_ne hne ..).symm
  · change (Function.update ep.taken id (l.take req.fragsNr) id').Nodup
    rcases eq_or_ne id' id with rfl | hne
    · rw [Function.update_self]
      exact hl.threaded.nodup.sublist (List.take_sublist _ _)
    · rw [Function.update_of_ne hne]
      exact hep.nodup id'
  · have hne : id' ≠ id := Nat.ne_of_gt (Nat.lt_of_lt_of_le hid hle)
    obtain ⟨hnone, htaken'⟩ := hep.fresh id' hle
    exact ⟨(set_req_of_ne _ hne _).trans hnone, (Function.update_of_ne hne ..).trans htaken'⟩
  · rcases eq_or_ne id' id with rfl | hne
    · exact hplaced req' (Option.some.inj ((set_req_self _ _ _).symm.trans hreq))
    · exact hep.placed id' req' ((set_req_of_ne _ hne _).symm.trans hreq)

/-- A medium is completed that has its entries. -/
theorem Slotted.put (hep : Slotted z ep) {req req' : MediumsqReq}
    (hreq : ep.req id = some (.mediumsq req)) (hslot : req.sendqSlot = false)
    (hfrags : req'.fragsNr = req.fragsNr) (hindex : req'.sendqMapIndex = req.sendqMapIndex)
    (hseq : req'.needSeqnum = false) : Slotted z (ep.sendComplete id req') := by
  obtain ⟨l, hl⟩ := hep.free
  have hplaced := hep.placed id req hreq
  have hslots : (Req.mediumsq req).slots = req.sendqMapIndex := by
    rw [Req.slots, hslot]
    rfl
  have hheld : ep.heldSlots id = req.sendqMapIndex := by
    rw [heldSlots, hreq]
    exact hslots
  obtain ⟨htaken, hreturned⟩ := hep.live id _ hreq
  rw [hslots] at htaken
  have hnodup := hep.nodup id
  rw [htaken] at hnodup
  have hlen : req'.sendqMapIndex.length = req'.fragsNr := by
    rw [hindex, hfrags]
    exact hplaced.index hslot
  have htake : req'.sendqMapIndex.take req'.fragsNr = req.sendqMapIndex := by
    rw [← hlen, List.take_length, hindex]
  have hmine : ∀ i, i ∈ req.sendqMapIndex ↔ i < z.entryNr ∧ ep.sendqMap.user i = some id := by
    intro i
    rw [← hheld]
    exact hep.user i id
  have hfree := hl.put hlen (hfrags ▸ hplaced.pos) (hindex ▸ hnodup)
    (fun i hi => by
      obtain ⟨hlt, huser⟩ := (hmine i).1 (hindex ▸ hi)
      exact ⟨hlt, by rw [huser]; nofun⟩) req'.beforeIndex
  rw [sendComplete, hseq, if_neg Bool.false_ne_true]
  refine ⟨⟨_, hfree⟩, fun i id' => ?_, fun id' req'' hreq'' => ?_, fun id' hnone => ?_, hep.nodup,
    fun id' hle => ?_, fun id' req'' hreq'' => ?_⟩
  · change _ ↔ i < z.entryNr ∧
      (ep.sendqMap.put req'.fragsNr req'.beforeIndex req'.sendqMapIndex).user i = some id'
    rw [SendqMap.put_user, htake]
    rcases eq_or_ne id' id with rfl | hne
    · refine iff_of_false (by rw [heldSlots_set_self]; exact List.not_mem_nil) ?_
      rintro ⟨hlt, huser⟩
      split at huser
      · exact nomatch huser
      · rename_i hnot
        exact hnot ((hmine i).2 ⟨hlt, huser⟩)
    · rw [heldSlots_set_of_ne _ hne]
      refine (hep.user i id').trans (and_congr_right fun hlt => ?_)
      by_cases hi : i ∈ req.sendqMapIndex
      · rw [if_pos hi, ((hmine i).1 hi).2]
        exact iff_of_false (fun heq => hne (Option.some.inj heq).symm) nofun
      · rw [if_neg hi]
  · rcases eq_or_ne id' id with rfl | hne
    · exact nomatch (set_req_self _ _ _).symm.trans hreq''
    · have hold : ep.req id' = some req'' := (set_req_of_ne _ hne _).symm.trans hreq''
      exact ⟨(hep.live id' _ hold).1, (Function.update_of_ne hne ..).trans (hep.live id' _ hold).2⟩
  · rcases eq_or_ne id' id with rfl | hne
    · refine (Function.update_self ..).trans ?_
      rw [hreturned, List.nil_append, htake]
      exact htaken.symm
    · have hold : ep.req id' = none := (set_req_of_ne _ hne _).symm.trans hnone
      exact (Function.update_of_ne hne ..).trans (hep.completed id' hold)
  · have hne : id' ≠ id := Nat.ne_of_gt (Nat.lt_of_lt_of_le (hep.lt_next hreq) hle)
    exact ⟨(set_req_of_ne _ hne _).trans (hep.fresh id' hle).1, (hep.fresh id' hle).2⟩
  · rcases eq_or_ne id' id with rfl | hne
    · exact nomatch (set_req_self _ _ _).symm.trans hreq''
    · exact hep.placed id' req'' ((set_req_of_ne _ hne _).symm.trans hreq'')

/-! ## The steps -/

section
variable {req req' : MediumsqReq} {accepted : ℕ}

theorem needExpEvents_sameSlots (h : ep.needExpEvents req = some (ep', req')) :
    SameSlots ep ep' ∧ req' = { req with expEvent := req'.expEvent } := by
  rw [needExpEvents] at h
  split at h
  · obtain ⟨-, h⟩ := Option.ite_none_left_eq_some.1 h
    cases h
    exact ⟨⟨rfl, rfl, rfl, rfl, rfl⟩, rfl⟩
  · cases h
    exact ⟨SameSlots.refl ep, rfl⟩

theorem postIsendMediumsq_sameSlots (h : ep.postIsendMediumsq req accepted = some (ep', req')) :
    SameSlots ep ep' ∧ req' =
      { req with
        fragsPendingNr := req'.fragsPendingNr
        resends := req'.resends
        driverMediumsqSending := req'.driverMediumsqSending } := by
  obtain ⟨n, -, rfl, hreq', -, -⟩ := postIsendMediumsq_eq_some h
  refine ⟨⟨rfl, rfl, rfl, rfl, rfl⟩, ?_⟩
  rw [hreq']

theorem setupIsendMediumsq_sameSlots (h : ep.setupIsendMediumsq req accepted = some (ep', req')) :
    SameSlots ep ep' ∧ req' =
      { req with
        fragsPendingNr := req'.fragsPendingNr
        resends := req'.resends
        driverMediumsqSending := req'.driverMediumsqSending
        needAck := true } := by
  rw [setupIsendMediumsq] at h
  obtain ⟨⟨ep'', req''⟩, hpost, heq⟩ := Option.map_eq_some_iff.1 h
  cases heq
  obtain ⟨hsame, hreq''⟩ := postIsendMediumsq_sameSlots hpost
  refine ⟨hsame, ?_⟩
  rw [hreq'']

/-- A medium that had no entries, and gets what it misses, or as much as there is. -/
theorem Slotted.allocSetupIsendMediumsq {throttling : Bool} {result : Bool × Endpoint × MediumsqReq}
    (halloc : Endpoint.allocSetupIsendMediumsq z ep id req throttling accepted = some result)
    (hep : Slotted z ep) (hid : id < ep.next) (htaken : ep.taken id = [])
    (hreturned : ep.returned id = []) (hheld : ep.heldSlots id = []) (hpos : 0 < req.fragsNr)
    (hslot : req.sendqSlot = true) (hseq : req.needSeqnum = false) (hack : req.needAck = false) :
    Slotted z (storeMediumsq id result) := by
  have hwaits : ∀ (ep₁ : Endpoint) (req₁ : MediumsqReq), SameSlots ep ep₁ →
      req₁ = { req with expEvent := req₁.expEvent } →
      Slotted z (storeMediumsq id (false, ep₁, req₁)) := by
    intro ep₁ req₁ hsame hreq₁
    have hslots : (Req.mediumsq { req₁ with needResources := !false }).slots = [] := by
      rw [hreq₁]
      exact if_pos hslot
    refine (hep.set hid hreturned (htaken.trans hslots.symm) (hheld.trans hslots.symm) ?_).congr
      (hsame.set id _)
    rintro _ heq
    cases heq
    rw [hreq₁]
    exact ⟨hpos, fun h => (by cases hslot.symm.trans h), hslot.symm,
      fun h => (by cases hseq.symm.trans h), fun h => (by cases hack.symm.trans h)⟩
  rw [Endpoint.allocSetupIsendMediumsq] at halloc
  split at halloc
  case h_1 =>
    cases halloc
    exact hwaits ep req (SameSlots.refl ep) rfl
  case h_2 ep₁ req₁ hevents =>
    obtain ⟨hsame₁, hreq₁⟩ := needExpEvents_sameSlots hevents
    obtain ⟨slot, hget, halloc⟩ := Option.bind_eq_some_iff.1 halloc
    cases slot with
    | none =>
        cases halloc
        exact hwaits ep₁ req₁ hsame₁ hreq₁
    | some slot =>
        obtain ⟨ep₂, req₂⟩ := slot
        obtain ⟨hindex, -, hreq₂⟩ := needSendqMapSlot_eq_some hget
        have hframe : req₂.fragsNr = req.fragsNr ∧ req₂.sendqSlot = false ∧
            req₂.needSeqnum = false ∧ req₂.needAck = false := by
          rw [hreq₂, hreq₁]
          exact ⟨rfl, rfl, hseq, hack⟩
        obtain ⟨hfrags₂, hslot₂, hseq₂, hack₂⟩ := hframe
        have hindex₂ : req₂.sendqMapIndex.length = req₂.fragsNr := by
          rw [hindex, hfrags₂, hreq₁]
        have hstore : ∀ req₃ : MediumsqReq, req₃.sendqMapIndex = req₂.sendqMapIndex →
            req₃.sendqSlot = false → req₃.Placed →
            Slotted z (ep₂.set id (some (.mediumsq req₃))) := by
          intro req₃ hindex₃ hslot₃ hplaced
          refine (hep.congr hsame₁).get hget (hsame₁.next ▸ hid) (hsame₁.taken ▸ htaken)
            (hsame₁.returned ▸ hreturned) ?_ ?_ ?_
          · rw [heldSlots, hsame₁.req]
            exact hheld
          · rw [Req.slots, hslot₃]
            exact hindex₃
          · rintro _ heq
            cases heq
            exact hplaced
        dsimp only at halloc
        split at halloc
        · cases halloc
          exact hstore _ rfl hslot₂
            (.of_index (hfrags₂ ▸ hpos) hindex₂ hslot₂ rfl fun h => (by cases hack₂.symm.trans h))
        · obtain ⟨⟨ep₃, req₃⟩, hsetup, heq⟩ := Option.map_eq_some_iff.1 halloc
          cases heq
          obtain ⟨hsame₃, hreq₃⟩ := setupIsendMediumsq_sameSlots hsetup
          refine (hstore _ ?_ ?_ ?_).congr (hsame₃.set id _)
          · rw [hreq₃]
          · rw [hreq₃]
            exact hslot₂
          · rw [hreq₃]
            exact .of_index (hfrags₂ ▸ hpos) hindex₂ hslot₂ rfl fun _ => hseq₂

/-- A medium is stored that has what it had. -/
theorem Slotted.keep (hep : Slotted z ep) (hreq : ep.req id = some (.mediumsq req))
    (hsame : SameSlots ep ep') (hslot : req'.sendqSlot = req.sendqSlot)
    (hindex : req'.sendqMapIndex = req.sendqMapIndex) (hplaced : req'.Placed) :
    Slotted z (ep'.set id (some (.mediumsq req'))) := by
  have hslots : (Req.mediumsq req').slots = (Req.mediumsq req).slots := by
    rw [Req.slots, Req.slots, hslot, hindex]
  have hheld : ep.heldSlots id = (Req.mediumsq req).slots := by
    rw [heldSlots, hreq]
    rfl
  obtain ⟨htaken, hreturned⟩ := hep.live id _ hreq
  refine (hep.set (hep.lt_next hreq) hreturned (htaken.trans hslots.symm) (hheld.trans hslots.symm)
    ?_).congr (hsame.set id _)
  rintro _ heq
  cases heq
  exact hplaced

/-- A request is completed that has no entries. -/
theorem Slotted.setNone {req : Req} (hep : Slotted z ep) (hreq : ep.req id = some req)
    (hslots : req.slots = []) : Slotted z (ep.set id none) where
  free := hep.free
  user := fun i id' => by
    refine Iff.trans ?_ (hep.user i id')
    rcases eq_or_ne id' id with rfl | hne
    · have hheld : ep.heldSlots id' = [] := by
        rw [heldSlots, hreq]
        exact hslots
      rw [heldSlots_set_self, hheld]
      rfl
    · rw [heldSlots_set_of_ne _ hne]
  live := fun id' req' hreq' => by
    rcases eq_or_ne id' id with rfl | hne
    · exact nomatch (set_req_self _ _ _).symm.trans hreq'
    · exact hep.live id' req' ((set_req_of_ne _ hne _).symm.trans hreq')
  completed := fun id' hnone => by
    rcases eq_or_ne id' id with rfl | hne
    · obtain ⟨htaken, hreturned⟩ := hep.live id' req hreq
      exact hreturned.trans (htaken.trans hslots).symm
    · exact hep.completed id' ((set_req_of_ne _ hne _).symm.trans hnone)
  nodup := hep.nodup
  fresh := fun id' hle => by
    have hne : id' ≠ id := Nat.ne_of_gt (Nat.lt_of_lt_of_le (hep.lt_next hreq) hle)
    exact ⟨(set_req_of_ne _ hne _).trans (hep.fresh id' hle).1, (hep.fresh id' hle).2⟩
  placed := fun id' req' hreq' => by
    rcases eq_or_ne id' id with rfl | hne
    · exact nomatch (set_req_self _ _ _).symm.trans hreq'
    · exact hep.placed id' req' ((set_req_of_ne _ hne _).symm.trans hreq')

theorem Slotted.markRequestAcked (hep : Slotted z ep) (hreq : ep.req id = some (.mediumsq req))
    (h : ep.markRequestAcked id (.mediumsq req) = some ep') : Slotted z ep' := by
  rw [Endpoint.markRequestAcked] at h
  obtain ⟨hack, h⟩ := Option.ite_none_right_eq_some.1 h
  have hplaced := hep.placed id req hreq
  obtain ⟨hres, hseq⟩ := hplaced.posted hack
  have hslot : req.sendqSlot = false := hplaced.delayed.symm.trans hres
  split at h
  · cases h
    exact hep.keep hreq (SameSlots.refl ep) rfl rfl
      (.of_index hplaced.pos (hplaced.index hslot) hslot hres nofun)
  · cases h
    exact hep.put hreq hslot rfl rfl hseq

theorem Slotted.resend (hep : Slotted z ep) (hreq : ep.req id = some (.mediumsq req))
    (h : ep.resend id accepted (.mediumsq req) = some ep') : Slotted z ep' := by
  rw [Endpoint.resend] at h
  obtain ⟨hack, h⟩ := Option.ite_none_right_eq_some.1 h
  obtain ⟨hack, -⟩ := Bool.and_eq_true_iff.1 hack
  split at h
  · cases h
    exact hep
  · obtain ⟨⟨ep'', req''⟩, hpost, rfl⟩ := Option.map_eq_some_iff.1 h
    obtain ⟨hsame, hreq''⟩ := postIsendMediumsq_sameSlots hpost
    have hplaced := hep.placed id req hreq
    have hsame' : SameSlots ep ep'' :=
      ⟨hsame.req, hsame.next, hsame.sendqMap, hsame.taken, hsame.returned⟩
    refine hep.keep hreq hsame' ?_ ?_ ?_
    · rw [hreq'']
    · rw [hreq'']
    · rw [hreq'']
      exact ⟨hplaced.pos, hplaced.index, hplaced.delayed, hplaced.throttled, hplaced.posted⟩

theorem Slotted.processThrottling (hep : Slotted z ep) (hreq : ep.req id = some (.mediumsq req))
    (h : ep.processThrottling id accepted (.mediumsq req) = some ep') : Slotted z ep' := by
  rw [Endpoint.processThrottling] at h
  obtain ⟨hseq, h⟩ := Option.ite_none_right_eq_some.1 h
  obtain ⟨⟨ep'', req''⟩, hsetup, rfl⟩ := Option.map_eq_some_iff.1 h
  obtain ⟨hsame, hreq''⟩ := setupIsendMediumsq_sameSlots hsetup
  have hplaced := hep.placed id req hreq
  have hres := hplaced.throttled hseq
  have hslot : req.sendqSlot = false := hplaced.delayed.symm.trans hres
  refine hep.keep hreq hsame ?_ ?_ ?_
  · rw [hreq'']
  · rw [hreq'']
  · rw [hreq'']
    exact .of_index hplaced.pos (hplaced.index hslot) hslot hres fun _ => rfl

theorem Slotted.processDelayed {throttling region handle : Bool} (hep : Slotted z ep)
    (hreq : ep.req id = some (.mediumsq req))
    (h : ep.processDelayed z id throttling accepted region handle (.mediumsq req) = some ep') :
    Slotted z ep' := by
  rw [Endpoint.processDelayed] at h
  obtain ⟨hres, h⟩ := Option.ite_none_right_eq_some.1 h
  obtain ⟨result, halloc, rfl⟩ := Option.map_eq_some_iff.1 h
  have hplaced := hep.placed id req hreq
  have hslot : req.sendqSlot = true := hplaced.delayed.symm.trans hres
  have hslots : (Req.mediumsq req).slots = [] := if_pos hslot
  obtain ⟨htaken, hreturned⟩ := hep.live id _ hreq
  have hheld : ep.heldSlots id = [] := by
    rw [heldSlots, hreq]
    exact hslots
  have hseq : req.needSeqnum = false := eq_false_of_ne_true fun hseq => by
    cases (hplaced.throttled hseq).symm.trans hres
  have hack : req.needAck = false := eq_false_of_ne_true fun hack => by
    cases (hplaced.posted hack).1.symm.trans hres
  exact Slotted.allocSetupIsendMediumsq halloc hep (hep.lt_next hreq) (htaken.trans hslots)
    hreturned hheld hplaced.pos hslot hseq hack

theorem Slotted.fragDone (h : ep.fragDone id (.mediumsq req) = some ep') (hep : Slotted z ep)
    (hreq : ep.req id = some (.mediumsq req)) : Slotted z ep' := by
  rw [Endpoint.fragDone] at h
  obtain ⟨hposted, h⟩ := Option.ite_none_left_eq_some.1 h
  rw [Bool.or_eq_true, not_or, Bool.not_eq_true, Bool.not_eq_true] at hposted
  obtain ⟨hres, hseq⟩ := hposted
  have hplaced := hep.placed id req hreq
  have hslot : req.sendqSlot = false := hplaced.delayed.symm.trans hres
  have hindex := hplaced.index hslot
  dsimp only at h
  split at h
  · split at h
    · cases h
      exact hep.keep hreq (SameSlots.refl ep) rfl rfl
        (.of_index hplaced.pos hindex hslot hres fun _ => hseq)
    · cases h
      exact hep.put hreq hslot rfl rfl hseq
  · cases h
    exact hep.keep hreq (SameSlots.refl ep) rfl rfl
      (.of_index hplaced.pos hindex hslot hres fun _ => hseq)

/-- A put of none by a request that has the first free entry before its array. -/
theorem sendComplete_zero (ep : Endpoint) (id : ℕ) (req : MediumsqReq)
    (hseq : req.needSeqnum = false) (hfrags : req.fragsNr = 0)
    (hfirst : ep.sendqMap.firstFree = some req.beforeIndex) :
    ep.sendComplete id req = ep.set id none := by
  rw [sendComplete, hseq, if_neg Bool.false_ne_true, hfrags, SendqMap.put_zero hfirst,
    List.take_zero, List.append_nil, Function.update_eq_self]

/-- A medium that waits for its entries is completed, and what stands before its array is the first
free entry. -/
theorem Slotted.completeUnsent (hep : Slotted z ep) (hreq : ep.req id = some (.mediumsq req))
    (hseq : req.needSeqnum = false)
    (hfirst : req.needResources = true → ep.sendqMap.firstFree = some req.beforeIndex)
    (h : ep.completeUnsent id (.mediumsq req) = some ep') : Slotted z ep' := by
  rw [Endpoint.completeUnsent] at h
  obtain ⟨hunsent, h⟩ := Option.ite_none_right_eq_some.1 h
  cases h
  have hres : req.needResources = true := by rwa [hseq, Bool.or_false] at hunsent
  have hslot : req.sendqSlot = true := (hep.placed id req hreq).delayed.symm.trans hres
  have hnone := hep.setNone hreq (if_pos hslot)
  let released := ep.releaseUnsent { req with needResources := false }
  have hzero : released.1.sendComplete id released.2 = released.1.set id none :=
    sendComplete_zero released.1 id released.2 hseq (if_pos hslot) (hfirst hres)
  change Slotted z (released.1.sendComplete id released.2)
  rw [hzero]
  exact hnone.congr ⟨rfl, rfl, rfl, rfl, rfl⟩

end

theorem Slotted.allocSetupPull {req : PullReq} {region handle : Bool} (hep : Slotted z ep)
    (hid : id < ep.next) (htaken : ep.taken id = []) (hreturned : ep.returned id = [])
    (hheld : ep.heldSlots id = []) :
    Slotted z (storePull id (ep.allocSetupPull id req region handle)) := by
  have hsame : SameSlots ep (ep.allocSetupPull id req region handle).2.1 := by
    rw [Endpoint.allocSetupPull]
    split
    case h_1 => exact SameSlots.refl ep
    case h_2 ep₁ req₁ hevents =>
      have hsame₁ : SameSlots ep ep₁ := by
        rw [needExpEvent] at hevents
        split at hevents
        · obtain ⟨-, hevents⟩ := Option.ite_none_left_eq_some.1 hevents
          cases hevents
          exact ⟨rfl, rfl, rfl, rfl, rfl⟩
        · cases hevents
          exact SameSlots.refl ep
      split
      · exact hsame₁
      · split
        · exact ⟨hsame₁.req, hsame₁.next, hsame₁.sendqMap, hsame₁.taken, hsame₁.returned⟩
        · exact hsame₁
  generalize ep.allocSetupPull id req region handle = result at hsame ⊢
  obtain ⟨success, ep', req'⟩ := result
  have hnew : Slotted z (ep.set id (some (.pull { req' with needResources := !success }))) :=
    hep.set hid hreturned htaken hheld nofun
  exact hnew.congr (hsame.set id _)

/-- A new request has no entries. -/
theorem Slotted.submit (hep : Slotted z ep) : Slotted z { ep with next := ep.next + 1 } :=
  { hep with fresh := fun id hle => hep.fresh id (Nat.le_of_succ_le hle) }

theorem Slotted.processEvent {event : ExpEvent} (h : ep.processEvent event = some ep')
    (hep : Slotted z ep) : Slotted z ep' := by
  have hcredit : Slotted z { ep with availExpEvents := ep.availExpEvents + 1 } :=
    hep.congr ⟨rfl, rfl, rfl, rfl, rfl⟩
  cases event with
  | sendMediumsqFragDone sendqIndex =>
      obtain ⟨id, -, h⟩ := Option.bind_eq_some_iff.1 h
      obtain ⟨req, hreq, h⟩ := Option.bind_eq_some_iff.1 h
      cases req with
      | mediumsq req => exact Slotted.fragDone h hcredit hreq
      | pull req => exact nomatch h
  | pullDone id =>
      dsimp only [Endpoint.processEvent] at h
      split at h
      · rename_i req hreq
        obtain ⟨-, h⟩ := Option.ite_none_right_eq_some.1 h
        cases h
        exact hcredit.setNone hreq rfl
      · exact nomatch h

end Endpoint

/-! ## Runs -/

open Endpoint

variable {z : Sizes} {ep ep' : Endpoint}

/-- No throttled medium is completed unsent, and none that waits for its entries unless the first
free entry stands before its array. -/
def KeepsSlots (ep : Endpoint) : Action → Prop
  | .completeUnsent id =>
      ∀ req, ep.req id = some (.mediumsq req) → req.needSeqnum = false ∧
        (req.needResources = true → ep.sendqMap.firstFree = some req.beforeIndex)
  | _ => True

theorem Endpoint.Slotted.step (hep : Slotted z ep) {a : Action} (hok : KeepsSlots ep a)
    (hs : (machine z).step ep a = some ep') : Slotted z ep' := by
  cases a with
  | submitMedium length beforeIndex othersDelayed throttling accepted =>
      obtain ⟨hlength, hs⟩ := Option.ite_none_right_eq_some.1 hs
      have hpos : 0 < z.fragsNr length := by
        have hfrag := z.frag_pos
        rw [smallMsgLengthMax] at hlength
        exact Nat.div_pos (by omega) hfrag
      obtain ⟨hnone, htaken⟩ := hep.fresh ep.next (Nat.le_refl _)
      have hreturned := (hep.completed ep.next hnone).trans htaken
      have hheld : ep.heldSlots ep.next = [] := by
        rw [heldSlots, hnone]
        rfl
      rw [submitIsendMedium] at hs
      split at hs
      · cases hs
        refine hep.submit.set (Nat.lt_succ_self _) hreturned htaken hheld ?_
        rintro _ heq
        cases heq
        exact ⟨hpos, nofun, rfl, nofun, nofun⟩
      · obtain ⟨result, halloc, rfl⟩ := Option.map_eq_some_iff.1 hs
        exact Slotted.allocSetupIsendMediumsq halloc hep.submit (Nat.lt_succ_self _) htaken hreturned
          hheld hpos rfl rfl rfl
  | submitPull region handle =>
      cases hs
      obtain ⟨hnone, htaken⟩ := hep.fresh ep.next (Nat.le_refl _)
      have hheld : ep.heldSlots ep.next = [] := by
        rw [heldSlots, hnone]
        rfl
      exact hep.submit.allocSetupPull (Nat.lt_succ_self _) htaken
        ((hep.completed ep.next hnone).trans htaken) hheld
  | completeUnsent id =>
      obtain ⟨req, hreq, hs⟩ := Option.bind_eq_some_iff.1 hs
      cases req with
      | mediumsq req =>
          obtain ⟨hseq, hfirst⟩ := hok req hreq
          exact hep.completeUnsent hreq hseq hfirst hs
      | pull req =>
          obtain ⟨-, hs⟩ := Option.ite_none_right_eq_some.1 hs
          cases hs
          exact hep.setNone hreq rfl
  | ack id =>
      obtain ⟨req, hreq, hs⟩ := Option.bind_eq_some_iff.1 hs
      cases req with
      | mediumsq req => exact hep.markRequestAcked hreq hs
      | pull req => exact nomatch hs
  | resend id accepted =>
      obtain ⟨req, hreq, hs⟩ := Option.bind_eq_some_iff.1 hs
      cases req with
      | mediumsq req => exact hep.resend hreq hs
      | pull req => exact nomatch hs
  | processDelayed id throttling accepted region handle =>
      obtain ⟨req, hreq, hs⟩ := Option.bind_eq_some_iff.1 hs
      cases req with
      | mediumsq req => exact hep.processDelayed hreq hs
      | pull req =>
          obtain ⟨-, hs⟩ := Option.ite_none_right_eq_some.1 hs
          cases hs
          obtain ⟨htaken, hreturned⟩ := hep.live id _ hreq
          have hheld : ep.heldSlots id = [] := by
            rw [heldSlots, hreq]
            rfl
          exact hep.allocSetupPull (hep.lt_next hreq) htaken hreturned hheld
  | processThrottling id accepted =>
      obtain ⟨req, hreq, hs⟩ := Option.bind_eq_some_iff.1 hs
      cases req with
      | mediumsq req => exact hep.processThrottling hreq hs
      | pull req => exact nomatch hs
  | progress =>
      change ep.progress z = some ep' at hs
      rw [Endpoint.progress] at hs
      split at hs
      · exact nomatch hs
      · exact Slotted.processEvent hs (hep.congr ⟨rfl, rfl, rfl, rfl, rfl⟩)
  | report k =>
      obtain ⟨event, -, rfl⟩ := Option.map_eq_some_iff.1 hs
      split
      · exact hep.congr ⟨rfl, rfl, rfl, rfl, rfl⟩
      · exact hep.congr ⟨rfl, rfl, rfl, rfl, rfl⟩

/-- Otherwise the entries of the throttled medium are not put, or the first free entry is wrong. -/
theorem not_slotsConserved_of_not_keepsSlots (hep : Slotted z ep) {a : Action}
    (hok : ¬ KeepsSlots ep a) : ∃ ep' ∈ (machine z).step ep a, ¬ ep'.SlotsConserved z := by
  cases a with
  | completeUnsent id =>
      simp only [KeepsSlots, not_forall] at hok
      obtain ⟨req, hreq, hbad⟩ := hok
      have hplaced := hep.placed id req hreq
      obtain ⟨htaken, hreturned⟩ := hep.live id _ hreq
      let released := ep.releaseUnsent { req with needResources := false }
      have hstep : req.needResources = true ∨ req.needSeqnum = true →
          (machine z).step ep (.completeUnsent id) =
            some (released.1.sendComplete id released.2) := by
        intro hor
        change (ep.req id).bind _ = _
        rw [hreq]
        exact if_pos (Bool.or_eq_true_iff.2 hor)
      by_cases hseq : req.needSeqnum = true
      · refine ⟨_, hstep (.inr hseq), fun hconserved => ?_⟩
        have hslot : req.sendqSlot = false := hplaced.delayed.symm.trans (hplaced.throttled hseq)
        have hcomplete : released.1.sendComplete id released.2 = released.1.set id none :=
          if_pos hseq
        rw [hcomplete] at hconserved
        have hlost : ep.returned id = ep.taken id :=
          hconserved.completed id (set_req_self _ _ _)
        rw [hreturned, htaken, Req.slots, hslot] at hlost
        have hlen := hplaced.index hslot
        have hpos := hplaced.pos
        rw [← hlen] at hpos
        exact absurd (congrArg List.length hlost).symm (Nat.ne_of_gt hpos)
      · have hseq : req.needSeqnum = false := eq_false_of_ne_true hseq
        simp only [hseq, true_and, Classical.not_imp] at hbad
        obtain ⟨hres, hfirst⟩ := hbad
        have hslot : req.sendqSlot = true := hplaced.delayed.symm.trans hres
        refine ⟨_, hstep (.inl hres), fun hconserved => hfirst ?_⟩
        obtain ⟨l, hl⟩ := hep.free
        obtain ⟨l', hl', -⟩ := hconserved.free
        have hmap : (released.1.sendComplete id released.2).sendqMap =
            ep.sendqMap.put 0 req.beforeIndex req.sendqMapIndex := by
          have hfrags : released.2.fragsNr = 0 := if_pos hslot
          have hput : released.2.needSeqnum = false := hseq
          rw [sendComplete, hput, if_neg Bool.false_ne_true, hfrags]
          rfl
        rw [hmap] at hl'
        exact (hl.put_nil_iff req.beforeIndex req.sendqMapIndex).1 ⟨l', hl'⟩
  | _ => exact absurd trivial hok

/-- In every state of a run the free list is as it should be and each request puts what it got once,
exactly when no cleanup of the run completes a throttled medium, nor one that waits for its entries
unless the first free entry stands before its array. -/
theorem machine_slotsConserved_iff (z : Sizes) (as : List Action) :
    (∀ bs, bs <+: as → ∀ ep, (machine z).exec (machine z).init bs = some ep →
        ep.SlotsConserved z) ↔
      (machine z).Meets KeepsSlots (machine z).init as := by
  refine (Machine.meets_iff_forall_prefix (fun ep a ep' hep hok hs => hep.step hok hs)
    (fun ep hep => hep.conserved) (fun ep a hep => ?_) (Slotted.init z)).symm
  constructor
  · exact fun hok ep' hs => (hep.step hok hs).conserved
  · intro hall
    by_contra hok
    obtain ⟨ep', hs, hnot⟩ := not_slotsConserved_of_not_keepsSlots hep hok
    exact hnot (hall ep' hs)

/-- A medium of one fragment is sent, a pull that the driver does not take delays another, and the
partner is cleaned up: the entry of the first is free although the driver sends from it. -/
theorem machine_not_slotsConserved :
    ¬ ∀ (as : List Action) (ep : Endpoint),
      (machine .default).exec (machine .default).init as = some ep →
        ep.SlotsConserved .default := by
  intro h
  have hrun : ∃ ep, (machine .default).exec (machine .default).init
      [.submitMedium 4096 0 false false 1, .submitPull true false,
        .submitMedium 4096 0 false false 1, .completeUnsent 2] = some ep ∧
      (ep.inDriver, ep.sendqMap.firstFree, ep.sendqMap.user 0) =
        ([.sendMediumsqFragDone 0], some 0, some 0) := ⟨_, rfl, by decide⟩
  obtain ⟨ep, hexec, hstate⟩ := hrun
  simp only [Prod.mk.injEq] at hstate
  obtain ⟨-, hfirst, huser⟩ := hstate
  obtain ⟨l, hl, -⟩ := (h _ ep hexec).free
  have hthreaded := hl.threaded
  rw [hfirst] at hthreaded
  have hmem : 0 ∈ l := by
    cases hthreaded
    exact List.mem_cons_self ..
  exact nomatch huser.symm.trans ((hl.mem_iff 0).1 hmem).2

end Xen2mx.Sendq
