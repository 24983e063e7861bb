/-
# `Xen2mx.Isend.LargeSlots` — every slot and every region comes back once

A large send holds its slot and its region from the time it gets them until the notify
comes, or until it fails before.  `Holds` says this of the requests that wait for their
region, those that hold one and those that were notified; a step moves a request from one
to the next, whatever queue it stands in.

    waiting      in need_resources_send_req_q, with a slot or without
    holding      throttled, or still waiting for the reply
    notified     only waiting for the ack

Three steps return what is not held, or do not return what is (`Proper`): an error for a
request that was notified puts its region and its slot again, the cleanup of a partner
completes the acked requests without putting either, and a notify may find a request
that is still throttled, or a region whose reserver was never set.

**Proved here.**

    none of these  ⟹  slots are conserved, regions put once, and reserved by live requests
        only      (`largeSends_balanced`)
-/
import Mathlib.Data.List.Perm.Basic
import Xen2mx.Isend.Large

namespace Xen2mx.Isend.Large

variable {ι : Type*} {z : Regcache}

/-! ## Who holds what -/

namespace Endpoint

/-- The requests whose slot and region are not returned. -/
def holding (ep : Endpoint ι) : List (LargeReq ι) :=
  ep.needSeqnumReqQ ++ ep.nonAckedReqQ.filter LargeReq.needReply ++ ep.largeSendNeedReplyReqQ

def notifiedReqs (ep : Endpoint ι) : List (LargeReq ι) :=
  ep.nonAckedReqQ.filter fun req => !req.needReply

/-- The requests that are not completed. -/
def live (ep : Endpoint ι) : List (LargeReq ι) :=
  ep.needResourcesReqQ ++ ep.needSeqnumReqQ ++ ep.nonAckedReqQ ++ ep.largeSendNeedReplyReqQ

/-- The large sends that hold a slot. -/
def slotsHeld (ep : Endpoint ι) : ℕ :=
  (ep.needResourcesReqQ.countP fun req => !req.missingSlot) + ep.holding.length

/-- Slots and regions are given back, once each, and nobody else is left with them. -/
structure Balanced (ep : Endpoint ι) : Prop where
  /-- `large_sends_avail_nr` and the slots held are constant. -/
  slots : ep.largeSendsAvailNr + ep.slotsHeld = userRegionMax / 2
  /-- A request gets a region at most once, -/
  once : ∀ id, ep.gets id ≤ 1
  /-- and has put it once when it does not hold it. -/
  puts : ∀ id, ep.gets id = ep.puts id + if id ∈ ep.holding.map LargeReq.id then 1 else 0
  /-- A region is reserved by a request that is not completed. -/
  reserver : ∀ r id, (ep.region r).reserver = some id → id ∈ ep.live.map LargeReq.id

/-- A region, and how many pulls use it, is coherent. -/
structure RegionOk (z : Regcache) (region : Region) (pulls : ℕ) : Prop where
  useCount : region.useCount = (if region.reserver.isSome then 1 else 0) + pulls
  registered : 0 < region.useCount → region.registered = true
  shared : 1 < region.useCount → z.regcache = true ∧ region.contigous = true

/-- What the requests of three lists, waiting, holding and notified, have of the endpoint. -/
structure Holds (z : Regcache) (ep : Endpoint ι) (waiting holding notified : List (LargeReq ι)) :
    Prop where
  slots : ep.largeSendsAvailNr + (waiting.countP fun req => !req.missingSlot) + holding.length =
    userRegionMax / 2
  ids : ((waiting ++ holding ++ notified).map LargeReq.id).Nodup
  old : ∀ req ∈ waiting ++ holding ++ notified, req.id < ep.next
  reserved : ∀ r id, (ep.region r).reserver = some id ↔ ∃ req ∈ holding, req.id = id ∧ req.region = r
  regions : ∀ r, RegionOk z (ep.region r) (ep.pulling.count r)
  once : ∀ id, ep.gets id ≤ 1
  puts : ∀ id, ep.gets id = ep.puts id + if id ∈ holding.map LargeReq.id then 1 else 0
  none : ∀ id, id ∈ waiting.map LargeReq.id ∨ ep.next ≤ id → ep.gets id = 0

namespace Holds

variable {ep ep' : Endpoint ι} {req req' : LargeReq ι}
  {waiting holding notified waiting' holding' notified' : List (LargeReq ι)}

theorem init : Holds z (Endpoint.init : Endpoint ι) [] [] [] where
  slots := rfl
  ids := List.nodup_nil
  old := nofun
  reserved := fun _ _ => iff_of_false nofun nofun
  regions := fun _ =>
    ⟨rfl, fun h => absurd h (lt_irrefl 0), fun h => absurd h (not_lt_of_ge zero_le_one)⟩
  once := fun _ => Nat.zero_le _
  puts := fun _ => rfl
  none := fun _ _ => rfl

/-- The queues have no part in it, -/
theorem queues (h : Holds z ep waiting holding notified)
    (needResourcesReqQ needSeqnumReqQ nonAckedReqQ largeSendNeedReplyReqQ : List (LargeReq ι)) :
    Holds z
      { ep with
        needResourcesReqQ
        needSeqnumReqQ
        nonAckedReqQ
        largeSendNeedReplyReqQ } waiting holding notified :=
  ⟨h.slots, h.ids, h.old, h.reserved, h.regions, h.once, h.puts, h.none⟩

/-- and neither has the order of the requests. -/
theorem perm (h : Holds z ep waiting holding notified) (hw : waiting.Perm waiting')
    (hh : holding.Perm holding') (hn : notified.Perm notified') :
    Holds z ep waiting' holding' notified' := by
  have hall := (hw.append hh).append hn
  refine ⟨?_, (hall.map _).nodup_iff.1 h.ids, fun req hreq => h.old req (hall.mem_iff.2 hreq),
    fun r id => ?_, h.regions, h.once, fun id => ?_, fun id hid => ?_⟩
  · rw [← hw.countP_eq, ← hh.length_eq]
    exact h.slots
  · simp only [← hh.mem_iff]
    exact h.reserved r id
  · simp only [← (hh.map _).mem_iff]
    exact h.puts id
  · simp only [← (hw.map _).mem_iff] at hid
    exact h.none id hid

/-! ### What happens to a request -/

/-- A request is called. -/
theorem call (h : Holds z ep waiting holding notified) (hreq : req.id = ep.next)
    (hslot : req.missingSlot = true) :
    Holds z { ep with next := ep.next + 1 } (req :: waiting) holding notified where
  slots := by
    rw [List.countP_cons_of_neg (by simp [hslot])]
    exact h.slots
  ids := by
    refine List.nodup_cons.2 ⟨fun hmem => ?_, h.ids⟩
    obtain ⟨req', hmem', heq⟩ := List.mem_map.1 hmem
    have hlt := h.old req' hmem'
    omega
  old := by
    intro req' hmem
    rcases List.mem_cons.1 hmem with rfl | hold
    · exact hreq.trans_lt (Nat.lt_succ_self _)
    · exact (h.old req' hold).trans (Nat.lt_succ_self _)
  reserved := h.reserved
  regions := h.regions
  once := h.once
  puts := h.puts
  none := by
    intro id hid
    refine h.none id ?_
    rcases hid with hmem | hle
    · rcases List.mem_cons.1 hmem with rfl | hold
      · exact .inr hreq.ge
      · exact .inl hold
    · exact .inr (Nat.le_of_succ_le hle)

/-- A waiting request takes a slot. -/
theorem takeSlot (h : Holds z ep (req :: waiting) holding notified)
    (hslot : req.missingSlot = true) (havail : ep.largeSendsAvailNr ≠ 0) :
    Holds z { ep with largeSendsAvailNr := ep.largeSendsAvailNr - 1 }
      ({ req with missingSlot := false } :: waiting) holding notified where
  slots := by
    have hslots := h.slots
    rw [List.countP_cons_of_neg (by simp [hslot])] at hslots
    rw [List.countP_cons_of_pos (by simp)]
    show ep.largeSendsAvailNr - 1 + _ + _ = _
    omega
  ids := h.ids
  old := by
    intro req' hmem
    rcases List.mem_cons.1 hmem with rfl | hold
    · exact h.old req (List.mem_cons_self ..)
    · exact h.old req' (List.mem_cons_of_mem _ hold)
  reserved := h.reserved
  regions := h.regions
  once := h.once
  puts := h.puts
  none := h.none

/-- A waiting request is dropped, with the slot it has. -/
theorem dropWaiting (h : Holds z ep (req :: waiting) holding notified) :
    Holds z
      { ep with
        largeSendsAvailNr := ep.largeSendsAvailNr + if req.missingSlot then 0 else 1 }
      waiting holding notified where
  slots := by
    have hslots := h.slots
    rw [List.countP_cons] at hslots
    show ep.largeSendsAvailNr + (if req.missingSlot then 0 else 1) + _ + _ = _
    cases hslot : req.missingSlot <;> simp only [hslot] at hslots ⊢ <;> simp at hslots ⊢ <;> omega
  ids := (List.nodup_cons.1 h.ids).2
  old := fun req' hmem => h.old req' (List.mem_cons_of_mem _ hmem)
  reserved := h.reserved
  regions := h.regions
  once := h.once
  puts := h.puts
  none := fun id hid => h.none id (hid.imp_left (List.mem_cons_of_mem _))

/-- A notified request is acked. -/
theorem dropNotified (h : Holds z ep waiting holding (req :: notified)) :
    Holds z ep waiting holding notified where
  slots := h.slots
  ids := by
    have hsub : (waiting ++ holding ++ notified).Sublist (waiting ++ holding ++ req :: notified) :=
      (List.sublist_cons_self req notified).append_left _
    exact h.ids.sublist (hsub.map _)
  old := by
    intro req' hmem
    refine h.old req' ?_
    rcases List.mem_append.1 hmem with hold | hold
    · exact List.mem_append_left _ hold
    · exact List.mem_append_right _ (List.mem_cons_of_mem _ hold)
  reserved := h.reserved
  regions := h.regions
  once := h.once
  puts := h.puts
  none := h.none

/-- The ids of the requests that hold something are their own. -/
theorem not_mem_holding (h : Holds z ep waiting (req :: holding) notified) :
    req.id ∉ holding.map LargeReq.id := by
  have hids := h.ids
  rw [List.append_assoc, List.map_append, List.cons_append, List.map_cons] at hids
  have hnot := (List.nodup_cons.1 (List.nodup_append.1 hids).2.1).1
  exact fun hmem => hnot (List.map_append (f := LargeReq.id) ▸ List.mem_append_left _ hmem)

variable (req') in
/-- A request gives back its slot and its region, and waits for the ack if it must. -/
theorem putLarge (h : Holds z ep waiting (req :: holding) notified) (hreq : req'.id = req.id) :
    Holds z (ep.putLarge z req) waiting holding (req' :: notified) where
  slots := by
    have hslots := h.slots
    rw [List.length_cons] at hslots
    show ep.largeSendsAvailNr + 1 + _ + _ = _
    omega
  ids := by
    have hperm : (waiting ++ req :: holding ++ notified).Perm
        (waiting ++ holding ++ req :: notified) := by
      rw [List.append_assoc, List.append_assoc]
      exact List.Perm.append_left _ List.perm_middle.symm
    have hids := (hperm.map LargeReq.id).nodup_iff.1 h.ids
    rw [List.map_append, List.map_cons, ← hreq, ← List.map_cons, ← List.map_append] at hids
    exact hids
  old := by
    intro req'' hmem
    rcases List.mem_append.1 hmem with hold | hold
    · refine h.old req'' ?_
      rw [List.append_assoc]
      rcases List.mem_append.1 hold with hw | hh
      · exact List.mem_append_left _ hw
      · exact List.mem_append_right _ (List.mem_append_left _ (List.mem_cons_of_mem _ hh))
    · rcases List.mem_cons.1 hold with rfl | hn
      · rw [hreq]
        exact h.old req (by simp)
      · exact h.old req'' (List.mem_append_right _ hn)
  reserved := by
    intro r id
    have hother : ∀ req'' ∈ holding, req''.region ≠ req.region := by
      intro req'' hmem heq
      have hself := (h.reserved req.region req.id).2 ⟨req, List.mem_cons_self .., rfl, rfl⟩
      have hthat := (h.reserved req.region req''.id).2 ⟨req'', List.mem_cons_of_mem _ hmem, rfl, heq⟩
      have hid := Option.some.inj (hself.symm.trans hthat)
      exact h.not_mem_holding (hid ▸ List.mem_map_of_mem hmem)
    show (Function.update ep.region _ _ r).reserver = some id ↔ _
    by_cases hr : r = req.region
    · subst hr
      rw [Function.update_self]
      refine iff_of_false nofun ?_
      rintro ⟨req'', hmem, -, heq⟩
      exact hother req'' hmem heq
    · rw [Function.update_of_ne hr, h.reserved]
      constructor
      · rintro ⟨req'', hmem, hid, heq⟩
        rcases List.mem_cons.1 hmem with rfl | hmem'
        · exact absurd heq.symm hr
        · exact ⟨req'', hmem', hid, heq⟩
      · rintro ⟨req'', hmem, hid, heq⟩
        exact ⟨req'', List.mem_cons_of_mem _ hmem, hid, heq⟩
  regions := by
    intro r
    show RegionOk z (Function.update ep.region _ _ r) _
    by_cases hr : r = req.region
    · subst hr
      rw [Function.update_self]
      have hself := (h.reserved req.region req.id).2 ⟨req, List.mem_cons_self .., rfl, rfl⟩
      obtain ⟨huse, hregistered, hshared⟩ := h.regions req.region
      rw [hself, Option.isSome_some, if_pos rfl] at huse
      refine ⟨?_, fun hpos => ?_, fun hpos => hshared (by dsimp only at hpos; omega)⟩
      · dsimp only
        rw [huse]
        simp
        rfl
      · dsimp only at hpos ⊢
        obtain ⟨hcache, hcontigous⟩ := hshared (by omega)
        rw [hregistered (by omega), hcache, hcontigous]
        rfl
    · rw [Function.update_of_ne hr]
      exact h.regions r
  once := h.once
  puts := by
    intro id
    have hputs := h.puts id
    show ep.gets id = Function.update ep.puts req.id (ep.puts req.id + 1) id + _
    by_cases hid : id = req.id
    · subst hid
      rw [Function.update_self, if_neg h.not_mem_holding]
      rw [List.map_cons, if_pos (List.mem_cons_self ..)] at hputs
      exact hputs
    · rw [Function.update_of_ne hid]
      simp only [List.map_cons, List.mem_cons, hid, false_or] at hputs
      exact hputs
  none := h.none

/-! ### What happens to a region -/

/-- `omx__get_region` finds a region that is free, or that nobody reserved if it is asked to
reserve it, and leaves it coherent. -/
theorem getRegion (h : Holds z ep waiting holding notified) {reserver : Option ℕ} {found : Found}
    (hget : ep.getRegion z reserver found = some ep') :
    ∃ region, ep' = ep.setRegion found.region region ∧
      (reserver ≠ Option.none → (ep.region found.region).reserver = Option.none) ∧
      region.reserver = reserver.or (ep.region found.region).reserver ∧
      RegionOk z region
        (ep.pulling.count found.region + if reserver = Option.none then 1 else 0) := by
  cases found with
  | create r contigous =>
      obtain ⟨huse, hregistered, -⟩ := h.regions r
      simp only [Endpoint.getRegion, Option.ite_none_left_eq_some, Option.some.injEq] at hget
      obtain ⟨hfree, rfl⟩ := hget
      have hzero : (ep.region r).useCount = 0 := by
        by_contra hne
        refine hfree ⟨hregistered (by omega), fun hcache => hne hcache.2.2⟩
      have hnone : (ep.region r).reserver = Option.none := by
        rw [← Option.not_isSome_iff_eq_none]
        intro hsome
        rw [if_pos hsome] at huse
        omega
      have hpulls : ep.pulling.count r = 0 := by
        rw [hnone] at huse
        simp only [Option.isSome_none, Bool.false_eq_true, if_false] at huse
        omega
      refine ⟨_, rfl, fun _ => hnone, ?_, ⟨?_, fun _ => rfl, fun hlt => absurd hlt (lt_irrefl 1)⟩⟩
      · simp only [Found.region, hnone, Option.or_none]
      · simp only [Found.region, hpulls]
        cases reserver <;> rfl
  | reuse r =>
      obtain ⟨huse, hregistered, hshared⟩ := h.regions r
      simp only [Endpoint.getRegion, Option.ite_none_right_eq_some, Option.some.injEq] at hget
      obtain ⟨⟨hcache, hreg, hcontigous, hreserver, -⟩, rfl⟩ := hget
      refine ⟨_, rfl, fun hne => hreserver.resolve_left hne, ?_,
        ⟨?_, fun _ => hreg, fun _ => ⟨hcache, hcontigous⟩⟩⟩
      · cases reserver <;> rfl
      · show (ep.region r).useCount + 1 = _
        rcases hreserver with rfl | hnone
        · rw [huse]
          exact add_assoc _ _ _
        · rw [huse, hnone]
          cases reserver <;> simp [Found.region, add_comm]

variable (req') in
/-- A waiting request with a slot gets its region. -/
theorem getLarge (h : Holds z ep (req :: waiting) holding notified)
    (hslot : req.missingSlot = false) {found : Found}
    (hget : ep.getRegion z (some req.id) found = some ep') (hid : req'.id = req.id)
    (hregion : req'.region = found.region) (lastSeqnum : BitVec 8) :
    Holds z
      { ep'.setRegion found.region { ep'.region found.region with lastSeqnum } with
        gets := Function.update ep'.gets req.id (ep'.gets req.id + 1) }
      waiting (req' :: holding) notified := by
  obtain ⟨region, rfl, hfree, hreserver, hok⟩ := h.getRegion hget
  have hperm : (req :: waiting ++ holding ++ notified).Perm
      (waiting ++ req :: holding ++ notified) :=
    List.Perm.append_right _ List.perm_middle.symm
  have hgets : ep.gets req.id = 0 := h.none req.id (.inl (List.mem_cons_self ..))
  have hnew : ∀ r, (Endpoint.setRegion (ep.setRegion found.region region) found.region
      { (ep.setRegion found.region region).region found.region with lastSeqnum }).region r =
      if r = found.region then { region with lastSeqnum } else ep.region r := by
    intro r
    by_cases hr : r = found.region
    · subst hr
      simp only [setRegion, Function.update_self, if_true]
    · simp only [setRegion, Function.update_of_ne hr, if_neg hr]
  have hwaiting : req.id ∉ waiting.map LargeReq.id := by
    have hids := h.ids
    simp only [List.cons_append, List.map_cons, List.map_append] at hids
    exact fun hmem => (List.nodup_cons.1 hids).1
      (List.mem_append_left _ (List.mem_append_left _ hmem))
  have hholding : req.id ∉ holding.map LargeReq.id := by
    have hids := h.ids
    simp only [List.cons_append, List.map_cons, List.map_append] at hids
    exact fun hmem => (List.nodup_cons.1 hids).1
      (List.mem_append_left _ (List.mem_append_right _ hmem))
  refine ⟨?_, ?_, ?_, fun r id => ?_, fun r => ?_, fun id => ?_, fun id => ?_, fun id hid' => ?_⟩
  · have hslots := h.slots
    rw [List.countP_cons_of_pos (by simp [hslot])] at hslots
    show ep.largeSendsAvailNr + _ + (holding.length + 1) = _
    omega
  · have hids := (hperm.map LargeReq.id).nodup_iff.1 h.ids
    simp only [List.map_append, List.map_cons, hid] at hids ⊢
    exact hids
  · intro req'' hmem
    by_cases hreq : req'' = req'
    · rw [hreq, hid]
      exact h.old req (by simp)
    · refine h.old req'' (hperm.mem_iff.2 ?_)
      simp only [List.mem_append, List.mem_cons, hreq, false_or] at hmem ⊢
      tauto
  · rw [show ({ Endpoint.setRegion _ _ _ with gets := _ } : Endpoint ι).region r = _ from hnew r]
    by_cases hr : r = found.region
    · subst hr
      rw [if_pos rfl, show Region.reserver { region with lastSeqnum } = _ from hreserver]
      constructor
      · intro heq
        obtain rfl : req.id = id := Option.some.inj heq
        exact ⟨req', List.mem_cons_self .., hid, hregion⟩
      · rintro ⟨req'', hmem, rfl, heq⟩
        rcases List.mem_cons.1 hmem with rfl | hold
        · rw [hid]
          rfl
        · have hthat := (h.reserved _ _).2 ⟨req'', hold, rfl, heq⟩
          rw [hfree nofun] at hthat
          exact absurd hthat nofun
    · rw [if_neg hr, h.reserved]
      constructor
      · rintro ⟨req'', hmem, heq⟩
        exact ⟨req'', List.mem_cons_of_mem _ hmem, heq⟩
      · rintro ⟨req'', hmem, hid', heq⟩
        rcases List.mem_cons.1 hmem with rfl | hold
        · exact absurd (heq.symm.trans hregion) hr
        · exact ⟨req'', hold, hid', heq⟩
  · rw [show ({ Endpoint.setRegion _ _ _ with gets := _ } : Endpoint ι).region r = _ from hnew r]
    by_cases hr : r = found.region
    · subst hr
      rw [if_pos rfl]
      exact ⟨hok.useCount, hok.registered, hok.shared⟩
    · rw [if_neg hr]
      exact h.regions r
  · show Function.update ep.gets req.id (ep.gets req.id + 1) id ≤ 1
    by_cases heq : id = req.id
    · rw [heq, Function.update_self, hgets]
    · rw [Function.update_of_ne heq]
      exact h.once id
  · have hputs := h.puts id
    show Function.update ep.gets req.id (ep.gets req.id + 1) id = ep.puts id + _
    by_cases heq : id = req.id
    · subst heq
      rw [if_neg hholding] at hputs
      rw [Function.update_self, List.map_cons, hid, if_pos (List.mem_cons_self ..)]
      omega
    · rw [Function.update_of_ne heq]
      simpa only [List.map_cons, hid, List.mem_cons, heq, false_or] using hputs
  · show Function.update ep.gets req.id (ep.gets req.id + 1) id = 0
    have hne : id ≠ req.id := by
      rintro rfl
      rcases hid' with hmem | hle
      · exact hwaiting hmem
      · exact absurd (h.old req (by simp)) (Nat.not_lt.2 hle)
    rw [Function.update_of_ne hne]
    exact h.none id (hid'.imp_left (List.mem_cons_of_mem _))

/-- A pull gets a region, -/
theorem pull (h : Holds z ep waiting holding notified) {found : Found}
    (hget : ep.getRegion z Option.none found = some ep') :
    Holds z { ep' with pulling := found.region :: ep'.pulling } waiting holding notified := by
  obtain ⟨region, rfl, -, hreserver, hok⟩ := h.getRegion hget
  refine ⟨h.slots, h.ids, h.old, fun r id => ?_, fun r => ?_, h.once, h.puts, h.none⟩
  · show (Function.update ep.region found.region region r).reserver = some id ↔ _
    by_cases hr : r = found.region
    · subst hr
      rw [Function.update_self, hreserver, Option.none_or]
      exact h.reserved _ id
    · rw [Function.update_of_ne hr]
      exact h.reserved r id
  · show RegionOk z (Function.update ep.region found.region region r)
      ((found.region :: ep.pulling).count r)
    by_cases hr : r = found.region
    · subst hr
      rw [Function.update_self, List.count_cons_self]
      exact hok
    · rw [Function.update_of_ne hr, List.count_cons_of_ne (Ne.symm hr)]
      exact h.regions r

/-- and puts it. -/
theorem pullDone (h : Holds z ep waiting holding notified) {r : RegionId} (hr : r ∈ ep.pulling) :
    Holds z { ep.putRegion z r false with pulling := ep.pulling.erase r }
      waiting holding notified := by
  refine ⟨h.slots, h.ids, h.old, fun r' id => ?_, fun r' => ?_, h.once, h.puts, h.none⟩
  · show (Function.update ep.region r _ r').reserver = some id ↔ _
    by_cases hr' : r' = r
    · subst hr'
      rw [Function.update_self]
      exact h.reserved _ id
    · rw [Function.update_of_ne hr']
      exact h.reserved r' id
  · show RegionOk z (Function.update ep.region r _ r') ((ep.pulling.erase r).count r')
    by_cases hr' : r' = r
    · subst hr'
      obtain ⟨huse, hregistered, hshared⟩ := h.regions r'
      have hpos := List.count_pos_iff.2 hr
      rw [Function.update_self, List.count_erase_self]
      refine ⟨?_, fun hlt => ?_, fun hlt => hshared ?_⟩
      · show (ep.region r').useCount - 1 = (if (ep.region r').reserver.isSome then 1 else 0) +
          ((ep.pulling.count r' - 1 : ℕ) : ℤ)
        omega
      · replace hlt : 0 < (ep.region r').useCount - 1 := hlt
        obtain ⟨hcache, hcontigous⟩ := hshared (by omega)
        show ((ep.region r').registered && _) = true
        rw [hregistered (by omega), hcache, hcontigous]
        rfl
      · replace hlt : 1 < (ep.region r').useCount - 1 := hlt
        omega
    · rw [Function.update_of_ne hr', List.count_erase_of_ne hr']
      exact h.regions r'

/-- An unused region is destroyed. -/
theorem regcacheClean (h : Holds z ep waiting holding notified) {r : RegionId}
    (hr : (ep.region r).useCount = 0) :
    Holds z (ep.setRegion r { ep.region r with registered := false }) waiting holding notified := by
  refine ⟨h.slots, h.ids, h.old, fun r' id => ?_, fun r' => ?_, h.once, h.puts, h.none⟩
  · show (Function.update ep.region r _ r').reserver = some id ↔ _
    by_cases hr' : r' = r
    · subst hr'
      rw [Function.update_self]
      exact h.reserved _ id
    · rw [Function.update_of_ne hr']
      exact h.reserved r' id
  · show RegionOk z (Function.update ep.region r _ r') _
    by_cases hr' : r' = r
    · subst hr'
      obtain ⟨huse, -, hshared⟩ := h.regions r'
      rw [Function.update_self]
      exact ⟨huse, fun hlt => absurd hr hlt.ne', hshared⟩
    · rw [Function.update_of_ne hr']
      exact h.regions r'

variable (req') in
/-- A request that holds something changes, but not in its region. -/
theorem relabel (h : Holds z ep waiting (req :: holding) notified) (hid : req'.id = req.id)
    (hregion : req'.region = req.region) : Holds z ep waiting (req' :: holding) notified where
  slots := h.slots
  ids := by
    have hids := h.ids
    simp only [List.map_append, List.map_cons, hid] at hids ⊢
    exact hids
  old := by
    intro req'' hmem
    by_cases hreq : req'' = req'
    · rw [hreq, hid]
      exact h.old req (by simp)
    · refine h.old req'' ?_
      simp only [List.mem_append, List.mem_cons, hreq, false_or] at hmem ⊢
      tauto
  reserved := by
    intro r id
    rw [h.reserved]
    simp only [List.mem_cons, exists_eq_or_imp, hid, hregion]
  regions := h.regions
  once := h.once
  puts := by
    intro id
    simpa only [List.map_cons, hid] using h.puts id
  none := h.none

/-- A request gives back its slot and its region, and is completed. -/
theorem putLast (h : Holds z ep waiting (req :: holding) notified) :
    Holds z (ep.putLarge z req) waiting holding notified :=
  (h.putLarge req rfl).dropNotified

/-- Whoever reserved a region is the one that holds it. -/
theorem mem_holding_of_reserver (h : Holds z ep waiting holding notified) {r : RegionId}
    (hreserver : (ep.region r).reserver = some req.id)
    (hreq : req ∈ waiting ++ holding ++ notified) : req ∈ holding := by
  obtain ⟨req', hmem, hid, -⟩ := (h.reserved r req.id).1 hreserver
  have heq : req' = req :=
    List.inj_on_of_nodup_map h.ids
      (List.mem_append_left _ (List.mem_append_right _ hmem)) hreq hid
  exact heq ▸ hmem

end Holds

/-! ## The queues -/

theorem holding_needSeqnum {ep : Endpoint ι} {req : LargeReq ι} :
    (holding { ep with needSeqnumReqQ := ep.needSeqnumReqQ ++ [req] }).Perm (req :: ep.holding) := by
  have hmiddle : (ep.needSeqnumReqQ ++ req ::
      (ep.nonAckedReqQ.filter LargeReq.needReply ++ ep.largeSendNeedReplyReqQ)).Perm _ :=
    List.perm_middle
  simpa only [holding, List.append_assoc, List.cons_append, List.nil_append] using hmiddle

theorem holding_nonAcked {ep : Endpoint ι} {req : LargeReq ι} (hreply : req.needReply = true) :
    (holding { ep with nonAckedReqQ := ep.nonAckedReqQ ++ [req] }).Perm (req :: ep.holding) := by
  have hfilter : (ep.nonAckedReqQ ++ [req]).filter LargeReq.needReply =
      ep.nonAckedReqQ.filter LargeReq.needReply ++ [req] := by
    rw [List.filter_append, List.filter_cons_of_pos hreply, List.filter_nil]
  have hmiddle : (ep.needSeqnumReqQ ++ ep.nonAckedReqQ.filter LargeReq.needReply ++ req ::
      ep.largeSendNeedReplyReqQ).Perm _ :=
    List.perm_middle
  simpa only [holding, hfilter, List.append_assoc, List.cons_append, List.nil_append] using hmiddle

theorem notifiedReqs_nonAcked {ep : Endpoint ι} {req : LargeReq ι} (hreply : req.needReply = true) :
    notifiedReqs { ep with nonAckedReqQ := ep.nonAckedReqQ ++ [req] } = ep.notifiedReqs := by
  rw [notifiedReqs, List.filter_append, List.filter_cons_of_neg (by simp [hreply]), List.filter_nil,
    List.append_nil, notifiedReqs]

section Erase

variable [DecidableEq ι] {ep : Endpoint ι} {req : LargeReq ι}

theorem holding_erase_needSeqnum (hmem : req ∈ ep.needSeqnumReqQ) :
    ep.holding.Perm (req :: holding { ep with needSeqnumReqQ := ep.needSeqnumReqQ.erase req }) := by
  have hqueue := (List.perm_cons_erase hmem).append_right
    (ep.nonAckedReqQ.filter LargeReq.needReply ++ ep.largeSendNeedReplyReqQ)
  simpa only [holding, List.append_assoc, List.cons_append] using hqueue

theorem holding_erase_needReply (hmem : req ∈ ep.largeSendNeedReplyReqQ) :
    ep.holding.Perm
      (req :: holding { ep with largeSendNeedReplyReqQ := ep.largeSendNeedReplyReqQ.erase req }) :=
  (List.Perm.append_left _ (List.perm_cons_erase hmem)).trans List.perm_middle

theorem holding_erase_nonAcked (hmem : req ∈ ep.nonAckedReqQ) (hreply : req.needReply = true) :
    ep.holding.Perm (req :: holding { ep with nonAckedReqQ := ep.nonAckedReqQ.erase req }) := by
  have hqueue := (List.perm_cons_erase hmem).filter LargeReq.needReply
  rw [List.filter_cons_of_pos hreply] at hqueue
  exact ((hqueue.append_left _).append_right _).trans
    ((List.Perm.append_right _ List.perm_middle).trans (List.Perm.refl _))

theorem notifiedReqs_erase_of_needReply (hmem : req ∈ ep.nonAckedReqQ)
    (hreply : req.needReply = true) :
    ep.notifiedReqs.Perm
      (notifiedReqs { ep with nonAckedReqQ := ep.nonAckedReqQ.erase req }) := by
  have hqueue := (List.perm_cons_erase hmem).filter fun req => !req.needReply
  rwa [List.filter_cons_of_neg (by simp [hreply])] at hqueue

theorem holding_erase_of_notified (hmem : req ∈ ep.nonAckedReqQ) (hreply : req.needReply = false) :
    ep.holding.Perm (holding { ep with nonAckedReqQ := ep.nonAckedReqQ.erase req }) := by
  have hqueue := (List.perm_cons_erase hmem).filter LargeReq.needReply
  rw [List.filter_cons_of_neg (by simp [hreply])] at hqueue
  exact (hqueue.append_left _).append_right _

theorem notifiedReqs_erase_of_notified (hmem : req ∈ ep.nonAckedReqQ)
    (hreply : req.needReply = false) :
    ep.notifiedReqs.Perm
      (req :: notifiedReqs { ep with nonAckedReqQ := ep.nonAckedReqQ.erase req }) := by
  have hqueue := (List.perm_cons_erase hmem).filter fun req => !req.needReply
  rwa [List.filter_cons_of_pos (by simp [hreply])] at hqueue

end Erase

/-- The requests of the queues have what their queue tells. -/
def Inv (z : Regcache) (ep : Endpoint ι) : Prop :=
  Holds z ep ep.needResourcesReqQ ep.holding ep.notifiedReqs

namespace Inv

variable {ep ep' : Endpoint ι}

theorem init : Inv z (Endpoint.init : Endpoint ι) := Holds.init

theorem nodup (h : Inv z ep) :
    ep.needResourcesReqQ.Nodup ∧ ep.needSeqnumReqQ.Nodup ∧ ep.nonAckedReqQ.Nodup ∧
      ep.largeSendNeedReplyReqQ.Nodup := by
  have hids := List.Nodup.of_map _ h.ids
  have hperm : (ep.holding ++ ep.notifiedReqs).Perm
      (ep.needSeqnumReqQ ++ ep.largeSendNeedReplyReqQ ++ ep.nonAckedReqQ) := by
    have hfilter : (ep.nonAckedReqQ.filter LargeReq.needReply ++ ep.notifiedReqs).Perm
        ep.nonAckedReqQ := List.filter_append_perm _ _
    simp only [Endpoint.holding, List.append_assoc]
    refine List.Perm.append_left _ ((List.perm_append_comm_assoc ..).trans ?_)
    exact List.Perm.append_left _ hfilter
  rw [List.append_assoc] at hids
  obtain ⟨hwaiting, hrest, -⟩ := List.nodup_append.1 hids
  obtain ⟨hleft, hnonAcked, -⟩ := List.nodup_append.1 (hperm.nodup_iff.1 hrest)
  obtain ⟨hthrottled, hneedReply, -⟩ := List.nodup_append.1 hleft
  exact ⟨hwaiting, hthrottled, hnonAcked, hneedReply⟩

/-- A request that has its slot gets a region, or stays. -/
theorem allocRegion {req : LargeReq ι}
    (h : Holds z ep (req :: ep.needResourcesReqQ) ep.holding ep.notifiedReqs)
    (hslot : req.missingSlot = false) {found : Option Found} {throttled : Bool}
    (hstep : ep.allocSetup z req found throttled = some ep') : Inv z ep' := by
  have hreq : { req with missingSlot := false } = req := by rw [← hslot]
  simp only [Endpoint.allocSetup, hslot, Bool.false_eq_true, false_and, if_false] at hstep
  cases found with
  | none =>
      cases hstep
      rw [hreq]
      exact h.queues (req :: ep.needResourcesReqQ) _ _ _
  | some found =>
      obtain ⟨ep'', hget, rfl⟩ := Option.map_eq_some_iff.1 hstep
      obtain ⟨region, rfl, -⟩ := h.getRegion hget
      have hlarge := fun b : Bool => h.getLarge
        { req with
          missingSlot := false
          needReply := b
          region := found.region
          regionSeqnum := ((ep.setRegion found.region region).region found.region).lastSeqnum }
        hslot hget rfl rfl
        (((ep.setRegion found.region region).region found.region).lastSeqnum + 1)
      cases throttled
      · refine ((hlarge true).queues ep.needResourcesReqQ ep.needSeqnumReqQ _
          ep.largeSendNeedReplyReqQ).perm (List.Perm.refl _) ?_ ?_
        · exact (holding_nonAcked rfl).symm
        · exact .of_eq (notifiedReqs_nonAcked rfl).symm
      · refine ((hlarge req.needReply).queues ep.needResourcesReqQ _ ep.nonAckedReqQ
          ep.largeSendNeedReplyReqQ).perm (List.Perm.refl _) ?_ (List.Perm.refl _)
        · exact holding_needSeqnum.symm

/-- A request that waits gets all, or stays. -/
theorem allocSetup {req : LargeReq ι}
    (h : Holds z ep (req :: ep.needResourcesReqQ) ep.holding ep.notifiedReqs)
    {found : Option Found} {throttled : Bool}
    (hstep : ep.allocSetup z req found throttled = some ep') : Inv z ep' := by
  cases hmissing : req.missingSlot with
  | false => exact allocRegion h hmissing hstep
  | true =>
      by_cases hzero : ep.largeSendsAvailNr = 0
      · rw [Endpoint.allocSetup, if_pos ⟨hmissing, hzero⟩] at hstep
        cases hstep
        exact h.queues (req :: ep.needResourcesReqQ) _ _ _
      · have hslot : ep.allocSetup z req found throttled =
            Endpoint.allocSetup { ep with largeSendsAvailNr := ep.largeSendsAvailNr - 1 } z
              { req with missingSlot := false } found throttled := by
          simp only [Endpoint.allocSetup, hmissing, hzero, and_false, if_false, if_true,
            Bool.false_eq_true, false_and]
        exact allocRegion
          (h.takeSlot hmissing hzero) rfl (hslot ▸ hstep)

theorem submit (h : Inv z ep) {i : ι} {delayed throttled : Bool} {found : Option Found}
    (hstep : ep.submit z i delayed found throttled = some ep') : Inv z ep' := by
  unfold Endpoint.submit at hstep
  have hcall := @Holds.call _ _ _ ⟨ep.next, i, true, false, 0, 0⟩ _ _ _ h rfl rfl
  split_ifs at hstep
  · cases hstep
    exact (hcall.queues (ep.needResourcesReqQ ++ [⟨ep.next, i, true, false, 0, 0⟩])
      ep.needSeqnumReqQ ep.nonAckedReqQ ep.largeSendNeedReplyReqQ).perm
        (List.perm_append_singleton _ _).symm (List.Perm.refl _) (List.Perm.refl _)
  · exact allocSetup hcall hstep

theorem processDelayed (h : Inv z ep) {throttled : Bool} {found : Option Found}
    (hstep : ep.processDelayed z found throttled = some ep') : Inv z ep' := by
  unfold Endpoint.processDelayed at hstep
  split at hstep
  · cases hstep
  · next req queue hqueue =>
      have hwaiting : Holds z ep (req :: queue) ep.holding ep.notifiedReqs := hqueue ▸ h
      exact allocSetup
        (hwaiting.queues queue _ _ _) hstep

/-- A request that waits for its ack and holds a region waits for the reply too. -/
theorem needReply_of_holding (h : Inv z ep) {req : LargeReq ι} (hmem : req ∈ ep.nonAckedReqQ) (hholding : req ∈ ep.holding) :
    req.needReply = true := by
  by_contra hreply
  have hnotified : req ∈ ep.notifiedReqs := List.mem_filter.2 ⟨hmem, by simp [hreply]⟩
  have hids := List.Nodup.of_map _ h.ids
  exact (List.nodup_append.1 hids).2.2 req (List.mem_append_right _ hholding) req hnotified rfl

theorem mem_of_notified {req : LargeReq ι} {r : RegionId} {regionSeqnum : BitVec 8}
    (hreq : ep.notified r regionSeqnum = some req) :
    (ep.region r).reserver = some req.id ∧
      req ∈ ep.needSeqnumReqQ ++ ep.nonAckedReqQ ++ ep.largeSendNeedReplyReqQ := by
  obtain ⟨id, hreserver, hfind⟩ := Option.bind_eq_some_iff.1 hreq
  have hid := List.find?_some hfind
  simp only [decide_eq_true_eq] at hid
  exact ⟨hid.1 ▸ hreserver, List.mem_of_find?_eq_some hfind⟩

section

variable [DecidableEq ι] {req : LargeReq ι}

theorem processThrottling (h : Inv z ep) (hstep : ep.processThrottling req = some ep') :
    Inv z ep' := by
  simp only [Endpoint.processThrottling, Option.ite_none_right_eq_some, Option.some.injEq] at hstep
  obtain ⟨hmem, rfl⟩ := hstep
  have hholds := (Holds.perm h (List.Perm.refl _) (holding_erase_needSeqnum hmem)
    (List.Perm.refl _)).relabel { req with needReply := true } rfl rfl
  refine (hholds.queues ep.needResourcesReqQ (ep.needSeqnumReqQ.erase req) _
    ep.largeSendNeedReplyReqQ).perm (List.Perm.refl _) ?_ ?_
  · exact (holding_nonAcked rfl).symm
  · exact .of_eq (notifiedReqs_nonAcked rfl).symm

/-- The ack of a rndv. -/
theorem acked (h : Inv z ep) (hmem : req ∈ ep.nonAckedReqQ) :
    Inv z (ep.markRequestAcked z req true) := by
  cases hreply : req.needReply with
  | true =>
      simp only [markRequestAcked, hreply, if_true]
      refine (Holds.queues h ep.needResourcesReqQ ep.needSeqnumReqQ (ep.nonAckedReqQ.erase req)
        (ep.largeSendNeedReplyReqQ ++ [req])).perm (List.Perm.refl _) ?_
        (notifiedReqs_erase_of_needReply hmem hreply)
      refine (holding_erase_nonAcked hmem hreply).trans ?_
      rw [holding, holding, ← List.append_assoc]
      exact (List.perm_append_singleton _ _).symm
  | false =>
      simp only [markRequestAcked, hreply, if_true, Bool.false_eq_true, if_false]
      have hholds := Holds.perm h (List.Perm.refl _) (holding_erase_of_notified hmem hreply)
        (notifiedReqs_erase_of_notified hmem hreply)
      exact hholds.dropNotified.queues _ _ _ _

/-- An error, for a request that still holds its region. -/
theorem nacked (h : Inv z ep) (hmem : req ∈ ep.nonAckedReqQ) (hreply : req.needReply = true) :
    Inv z (ep.markRequestAcked z req false) := by
  have hholds := Holds.perm h (List.Perm.refl _) (holding_erase_nonAcked hmem hreply)
    (notifiedReqs_erase_of_needReply hmem hreply)
  exact (hholds.queues ep.needResourcesReqQ ep.needSeqnumReqQ (ep.nonAckedReqQ.erase req)
    ep.largeSendNeedReplyReqQ).putLast

theorem completeDelayed (h : Inv z ep) (hmem : req ∈ ep.needResourcesReqQ) :
    Inv z (ep.completeDelayed req) := by
  have hholds := (Holds.perm h (List.perm_cons_erase hmem) (List.Perm.refl _)
    (List.Perm.refl _)).dropWaiting
  unfold Endpoint.completeDelayed
  cases hmissing : req.missingSlot <;>
    simp only [hmissing, if_true, Bool.false_eq_true, if_false] at hholds ⊢
  · exact hholds.queues (ep.needResourcesReqQ.erase req) _ _ _
  · exact hholds.queues (ep.needResourcesReqQ.erase req) _ _ _

theorem completeThrottled (h : Inv z ep) (hmem : req ∈ ep.needSeqnumReqQ) :
    Inv z (ep.completeThrottled z req) := by
  have hholds := Holds.perm h (List.Perm.refl _) (holding_erase_needSeqnum hmem)
    (List.Perm.refl _)
  exact (hholds.queues ep.needResourcesReqQ (ep.needSeqnumReqQ.erase req) ep.nonAckedReqQ
    ep.largeSendNeedReplyReqQ).putLast

/-- A notify that finds the request before its ack. -/
theorem notifiedEarly (h : Inv z ep) (hmem : req ∈ ep.nonAckedReqQ) (hreply : req.needReply = true) :
    Inv z { ep.putLarge z req with
      nonAckedReqQ := ep.nonAckedReqQ.map fun req' =>
        if req' = req then { req with needReply := false } else req' } := by
  have hmap : (ep.nonAckedReqQ.map fun req' =>
      if req' = req then { req with needReply := false } else req').Perm
      ({ req with needReply := false } :: ep.nonAckedReqQ.erase req) := by
    refine ((List.perm_cons_erase hmem).map _).trans ?_
    rw [List.map_cons, if_pos rfl]
    refine List.Perm.cons _ (.of_eq ?_)
    have hnot := h.nodup.2.2.1.not_mem_erase (a := req)
    exact (List.map_congr_left fun req' hmem' => if_neg fun heq : req' = req => hnot (by rwa [heq] at hmem')).trans
      (List.map_id _)
  have hholds := (Holds.perm h (List.Perm.refl _) (holding_erase_nonAcked hmem hreply)
    (notifiedReqs_erase_of_needReply hmem hreply)).putLarge
      { req with needReply := false } rfl
  refine (hholds.queues ep.needResourcesReqQ ep.needSeqnumReqQ _
    ep.largeSendNeedReplyReqQ).perm (List.Perm.refl _) ?_ ?_
  · have hqueue := hmap.filter LargeReq.needReply
    rw [List.filter_cons_of_neg (by simp)] at hqueue
    exact ((hqueue.append_left _).append_right _).symm
  · have hqueue := hmap.filter fun req => !req.needReply
    rw [List.filter_cons_of_pos (by simp)] at hqueue
    exact hqueue.symm

theorem processRecvNotify (h : Inv z ep) {r : RegionId} {regionSeqnum : BitVec 8}
    (hproper : ∀ req, ep.notified r regionSeqnum = some req → req ∉ ep.needSeqnumReqQ) :
    Inv z (ep.processRecvNotify z r regionSeqnum) := by
  unfold Endpoint.processRecvNotify
  split
  · exact h
  · next req hreq =>
      obtain ⟨hreserver, hqueues⟩ := mem_of_notified hreq
      have hall : req ∈ ep.needResourcesReqQ ++ ep.holding ++ ep.notifiedReqs := by
        simp only [Endpoint.holding, notifiedReqs, List.mem_append, List.mem_filter] at hqueues ⊢
        cases req.needReply <;> simp <;> tauto
      have hholding := h.mem_holding_of_reserver hreserver hall
      dsimp only
      split_ifs with hmem
      · exact h.notifiedEarly hmem (h.needReply_of_holding hmem hholding)
      · replace hmem : req ∉ ep.nonAckedReqQ := hmem
        have hneedReply : req ∈ ep.largeSendNeedReplyReqQ := by
          have hthrottled := hproper req hreq
          simp only [List.mem_append] at hqueues
          tauto
        exact ((Holds.perm h (List.Perm.refl _) (holding_erase_needReply hneedReply)
          (List.Perm.refl _)).putLast.queues ep.needResourcesReqQ ep.needSeqnumReqQ
            ep.nonAckedReqQ (ep.largeSendNeedReplyReqQ.erase req))

/-! ### Cleanup -/

/-- A loop of `omx__partner_cleanup` over a queue keeps what each of its rounds keeps. -/
theorem foldl_cleanup (P : Endpoint ι → Prop) (ok : LargeReq ι → Prop)
    (queue : Endpoint ι → List (LargeReq ι)) (f : Endpoint ι → LargeReq ι → Endpoint ι)
    (hstep : ∀ ep req, P ep → req ∈ queue ep → ok req → P (f ep req))
    (hqueue : ∀ ep req, queue (f ep req) = (queue ep).erase req) :
    ∀ (reqs : List (LargeReq ι)) (ep : Endpoint ι), reqs.Nodup →
      (∀ req ∈ reqs, req ∈ queue ep ∧ ok req) → P ep → P (reqs.foldl f ep)
  | [], _, _, _, hP => hP
  | req :: reqs, ep, hnodup, hmem, hP => by
      obtain ⟨hreq, hok⟩ := hmem req (List.mem_cons_self ..)
      refine foldl_cleanup P ok queue f hstep hqueue reqs (f ep req) (List.nodup_cons.1 hnodup).2
        (fun req' hmem' => ?_) (hstep ep req hP hreq hok)
      obtain ⟨hreq', hok'⟩ := hmem req' (List.mem_cons_of_mem _ hmem')
      have hne : req' ≠ req := fun heq => (List.nodup_cons.1 hnodup).1 (heq ▸ hmem')
      rw [hqueue]
      exact ⟨(List.mem_erase_of_ne hne).2 hreq', hok'⟩

theorem partnerCleanup (h : Inv z ep) {i : ι}
    (hnonAcked : ∀ req ∈ ep.nonAckedReqQ, req.partner = i → req.needReply = true)
    (hneedReply : ∀ req ∈ ep.largeSendNeedReplyReqQ, req.partner ≠ i) :
    Inv z (ep.partnerCleanup z i) := by
  have hnone : ∀ ep' : Endpoint ι, ep'.largeSendNeedReplyReqQ = ep.largeSendNeedReplyReqQ →
      ep'.largeSendNeedReplyReqQ.filter (fun req => decide (req.partner = i)) = [] := by
    intro ep' heq
    rw [heq]
    exact List.filter_eq_nil_iff.2 fun req hmem => by simpa using hneedReply req hmem
  unfold Endpoint.partnerCleanup
  have h₁ := foldl_cleanup
    (fun ep' => Inv z ep' ∧ ep'.largeSendNeedReplyReqQ = ep.largeSendNeedReplyReqQ)
    (fun req => req.needReply = true) Endpoint.nonAckedReqQ
    (fun ep req => ep.markRequestAcked z req false)
    (fun ep' req hP hmem hreply => ⟨hP.1.nacked hmem hreply, hP.2⟩) (fun _ _ => rfl)
    (ep.nonAckedReqQ.filter fun req => decide (req.partner = i)) ep
    (h.nodup.2.2.1.filter _)
    (fun req hmem => ⟨List.mem_of_mem_filter hmem,
      hnonAcked req (List.mem_of_mem_filter hmem) (by simpa using (List.mem_filter.1 hmem).2)⟩)
    ⟨h, rfl⟩
  obtain ⟨hInv₁, heq₁⟩ := h₁
  dsimp only
  rw [hnone _ heq₁, List.foldl_nil]
  have hInv₂ := foldl_cleanup (Inv z) (fun _ => True) Endpoint.needResourcesReqQ
    (fun ep req => ep.completeDelayed req)
    (fun ep' req hP hmem _ => hP.completeDelayed hmem)
    (fun ep' req => by unfold Endpoint.completeDelayed; split <;> rfl) _ _
    (hInv₁.nodup.1.filter fun req => decide (req.partner = i))
    (fun req hmem => ⟨List.mem_of_mem_filter hmem, trivial⟩) hInv₁
  exact foldl_cleanup (Inv z) (fun _ => True) Endpoint.needSeqnumReqQ
    (fun ep req => ep.completeThrottled z req)
    (fun ep' req hP hmem _ => hP.completeThrottled hmem) (fun _ _ => rfl) _ _
    (hInv₂.nodup.2.1.filter fun req => decide (req.partner = i))
    (fun req hmem => ⟨List.mem_of_mem_filter hmem, trivial⟩) hInv₂

end

theorem balanced (h : Inv z ep) : ep.Balanced where
  slots := by
    rw [slotsHeld, ← Nat.add_assoc]
    exact h.slots
  once := h.once
  puts := h.puts
  reserver := by
    intro r id hreserver
    obtain ⟨req, hmem, rfl, -⟩ := (h.reserved r id).1 hreserver
    refine List.mem_map_of_mem ?_
    simp only [holding, live, List.mem_append, List.mem_filter] at hmem ⊢
    tauto

end Inv

end Endpoint

/-! ## Runs -/

/-- Nothing is returned that was returned before, and all that is held is. -/
def Proper [DecidableEq ι] (ep : Endpoint ι) : Action ι → Prop
  | .nack req => req.needReply = true
  | .notify r regionSeqnum =>
      (ep.region r).created = true ∧
        ∀ req, ep.notified r regionSeqnum = some req → req ∉ ep.needSeqnumReqQ
  | .partnerCleanup i =>
      (∀ req ∈ ep.nonAckedReqQ, req.partner = i → req.needReply = true) ∧
        ∀ req ∈ ep.largeSendNeedReplyReqQ, req.partner ≠ i
  | _ => True

theorem step_inv [DecidableEq ι] {ep ep' : Endpoint ι} {a : Action ι} (h : ep.Inv z)
    (hproper : Proper ep a) (hstep : step z ep a = some ep') : ep'.Inv z := by
  cases a with
  | submit i delayed found throttled => exact h.submit hstep
  | processDelayed found throttled => exact h.processDelayed hstep
  | processThrottling req => exact h.processThrottling hstep
  | ack req =>
      obtain ⟨hmem, heq⟩ := Option.ite_none_right_eq_some.1 hstep
      cases heq
      exact h.acked hmem
  | nack req =>
      obtain ⟨hmem, heq⟩ := Option.ite_none_right_eq_some.1 hstep
      cases heq
      exact h.nacked hmem hproper
  | notify r regionSeqnum =>
      cases hstep
      exact h.processRecvNotify hproper.2
  | partnerCleanup i =>
      cases hstep
      exact h.partnerCleanup hproper.1 hproper.2
  | pull found =>
      obtain ⟨ep'', hget, rfl⟩ := Option.map_eq_some_iff.1 hstep
      obtain ⟨region, rfl, -⟩ := Endpoint.Holds.getRegion h hget
      exact Endpoint.Holds.pull h hget
  | pullDone r =>
      obtain ⟨hmem, heq⟩ := Option.ite_none_right_eq_some.1 hstep
      cases heq
      exact Endpoint.Holds.pullDone h hmem
  | regcacheClean r =>
      obtain ⟨huse, heq⟩ := Option.ite_none_right_eq_some.1 hstep
      cases heq
      exact Endpoint.Holds.regcacheClean h huse

instance [DecidableEq ι] (ep : Endpoint ι) (a : Action ι) : Decidable (Proper ep a) :=
  match a with
  | .nack req => inferInstanceAs (Decidable (req.needReply = true))
  | .notify r regionSeqnum =>
      decidable_of_iff ((ep.region r).created = true ∧
        ∀ req ∈ ep.notified r regionSeqnum, req ∉ ep.needSeqnumReqQ) Iff.rfl
  | .partnerCleanup i =>
      inferInstanceAs (Decidable
        ((∀ req ∈ ep.nonAckedReqQ, req.partner = i → req.needReply = true) ∧
          ∀ req ∈ ep.largeSendNeedReplyReqQ, req.partner ≠ i))
  | .submit .. | .processDelayed .. | .processThrottling _ | .ack _ | .pull _ | .pullDone _
  | .regcacheClean _ => .isTrue trivial

/-- For every order of sends, acks, nacks, notifies, pulls and cleanups: as long as only
requests that wait for the reply are nacked or cleaned up before their ack, no notify is for
a throttled request or a region never created, and no partner is cleaned up that acked a request without a notify, no
slot is lost, each region is put once, and the reservers of regions are live. -/
theorem largeSends_balanced [DecidableEq ι] {ep : Endpoint ι}
    (h : (machine ι z).Reaches Proper ep) : ep.Balanced :=
  (h.invariant Endpoint.Inv.init fun _ _ _ hinv hok hstep =>
    step_inv hinv hok hstep).balanced

/-- The request that the first send is. -/
def firstReq (needReply : Bool) : LargeReq Bool := ⟨0, true, false, needReply, 3, 23⟩

/-- Two sends, the first notified before its ack, the second nacked; a pull in between. -/
def notifiedAndNacked : List (Action Bool) :=
  [.submit true false (some (.create 3 true)) false, .pull (.reuse 3),
    .submit true false (some (.create 4 false)) true, .notify 3 23, .ack (firstReq false),
    .processThrottling ⟨1, true, false, false, 4, 23⟩, .pullDone 3,
    .nack ⟨1, true, false, true, 4, 23⟩]

theorem largeSends_balanced_two :
    ∃ ep, (machine Bool ⟨true, true⟩).exec .init notifiedAndNacked = some ep ∧
      ep.largeSendsAvailNr = 128 ∧ ep.puts 0 = 1 ∧ ep.Balanced := by
  obtain ⟨ep, hep, havail, hputs⟩ :
      ∃ ep, (machine Bool ⟨true, true⟩).exec .init notifiedAndNacked = some ep ∧
        ep.largeSendsAvailNr = 128 ∧ ep.puts 0 = 1 := ⟨_, rfl, by decide⟩
  exact ⟨ep, hep, havail, hputs, largeSends_balanced ⟨notifiedAndNacked, by decide, hep⟩⟩

/-! ## The defects -/

/-- A send is acked, and the partner is cleaned up before the notify: the request is completed,
its slot and its region are not returned, and the region keeps it as the reserver. -/
theorem largeSends_not_balanced :
    ∃ ep, (machine Bool ⟨true, true⟩).exec .init
        [.submit true false (some (.create 3 true)) false, .ack (firstReq true),
          .partnerCleanup true] = some ep ∧
      ep.live = [] ∧ ep.largeSendsAvailNr = 127 ∧ ep.gets 0 = 1 ∧ ep.puts 0 = 0 ∧
        (ep.region 3).reserver = some 0 ∧ ¬ ep.Balanced := by
  obtain ⟨ep, hep, hlive, havail, hgets, hputs, hreserver⟩ :
      ∃ ep, (machine Bool ⟨true, true⟩).exec .init
          [.submit true false (some (.create 3 true)) false, .ack (firstReq true),
            .partnerCleanup true] = some ep ∧
        ep.live = [] ∧ ep.largeSendsAvailNr = 127 ∧ ep.gets 0 = 1 ∧ ep.puts 0 = 0 ∧
          (ep.region 3).reserver = some 0 := ⟨_, rfl, by decide⟩
  refine ⟨ep, hep, hlive, havail, hgets, hputs, hreserver, fun hbalanced => ?_⟩
  have hmem := hbalanced.reserver 3 0 hreserver
  rw [hlive] at hmem
  exact absurd hmem List.not_mem_nil

end Xen2mx.Isend.Large
