/-
# `Xen2mx.Sendq.Credits` — no expected event without a credit

A credit is available, or a request holds it, or the driver has it for what it accepted, or it
is in an event.  Every function hands on what it was given:

    needExpEvents         available      ──▸  the request
    postIsendMediumsq     the request    ──▸  the driver, and back what it did not accept
    report                the driver     ──▸  an event
    progress              an event       ──▸  available
    releaseUnsent         the request    ──▸  available

The cleanup of a partner does so for the medium messages that it completes unsent, wherever they
got.  A pull that waits with its credit is completed without giving it back.

**Proved here.**

    in every state of a run all credits are there, and all that was accepted fits in the queue
        ⟺  no cleanup of the run completes a pull that has its credit  (`machine_conserved_iff`)
-/
import Mathlib.Algebra.BigOperators.Group.Finset.Basic
import Xen2mx.Sendq.Endpoint

namespace Xen2mx.Sendq

open Finset

/-! ## Who has the credits -/

/-- The credits of a medium that is not posted. -/
def MediumsqReq.credits (req : MediumsqReq) : ℕ :=
  if (req.needResources || req.needSeqnum) && !req.expEvent then req.fragsNr else 0

/-- What is known of a medium by its state: it has its entries when it has a sequence number or
waits for one, and waits for one thing at a time. -/
structure MediumsqReq.Shaped (req : MediumsqReq) : Prop where
  index : req.needSeqnum = true ∨ req.needAck = true → req.sendqMapIndex.length = req.fragsNr
  delayed : req.needResources = true → req.needSeqnum = false ∧ req.needAck = false
  throttled : req.needSeqnum = true → req.expEvent = false ∧ req.needAck = false

/-- A medium that waits for its ack waits for nothing else. -/
theorem MediumsqReq.Shaped.posted {req : MediumsqReq} (h : req.Shaped)
    (hack : req.needAck = true) : req.needResources = false ∧ req.needSeqnum = false := by
  constructor
  · exact eq_false_of_ne_true fun hres => (by cases (h.delayed hres).2.symm.trans hack)
  · exact eq_false_of_ne_true fun hseq => (by cases (h.throttled hseq).2.symm.trans hack)

/-- One that waits for resources. -/
theorem MediumsqReq.Shaped.of_delayed {req : MediumsqReq} (hseq : req.needSeqnum = false)
    (hack : req.needAck = false) : req.Shaped where
  index := fun h => h.elim (by cases hseq.symm.trans ·) (by cases hack.symm.trans ·)
  delayed := fun _ => ⟨hseq, hack⟩
  throttled := fun h => (by cases hseq.symm.trans h)

/-- One that waits for nothing, or for its ack. -/
theorem MediumsqReq.Shaped.of_posted {req : MediumsqReq} (hres : req.needResources = false)
    (hseq : req.needSeqnum = false)
    (hindex : req.needAck = true → req.sendqMapIndex.length = req.fragsNr) : req.Shaped where
  index := fun h => h.elim (fun hseq' => (by cases hseq.symm.trans hseq')) hindex
  delayed := fun h => (by cases hres.symm.trans h)
  throttled := fun h => (by cases hseq.symm.trans h)

/-- The credit of a pull that waits. -/
def PullReq.credits (req : PullReq) : ℕ :=
  if req.needResources && !req.expEvent then 1 else 0

def Req.Shaped : Req → Prop
  | .mediumsq req => req.Shaped
  | .pull req => req.driverPulling = true → req.needResources = false

def Req.credits : Req → ℕ
  | .mediumsq req => req.credits
  | .pull req => req.credits

namespace Endpoint

/-- The credits that the requests at hand hold. -/
def held (req : Option Req) : ℕ := req.elim 0 Req.credits

/-- The credits reserved by the requests that are not completed: those that wait hold some, and
the driver has the others for what it accepted and has not reported. -/
def reserved (ep : Endpoint) : ℕ :=
  (∑ id ∈ range ep.next, held (ep.req id)) + ep.inDriver.length

/-- No credit is lost, and the queue has room for all that the driver may report. -/
structure Conserved (z : Sizes) (ep : Endpoint) : Prop where
  credits : ep.availExpEvents + ep.reserved + ep.expEventq.length = z.availExpEvents
  room : ep.inDriver.length + ep.expEventq.length + ep.unreleased ≤ z.entryNr

/-! ## What a function hands on -/

variable {z : Sizes} {ep ep' ep'' : Endpoint} {id h h' h'' : ℕ}

/-- The credits that no request holds. -/
def pool (ep : Endpoint) : ℕ :=
  ep.availExpEvents + ep.inDriver.length + ep.expEventq.length

/-- All credits. -/
def total (ep : Endpoint) : ℕ := ep.pool + ∑ id ∈ range ep.next, held (ep.req id)

/-- A function that works on a request which held `h` credits, and now holds `h'`. -/
structure HandsOn (ep : Endpoint) (h : ℕ) (ep' : Endpoint) (h' : ℕ) : Prop where
  req : ep'.req = ep.req
  next : ep'.next = ep.next
  unreleased : ep'.unreleased = ep.unreleased
  pool : ep'.pool + h' = ep.pool + h

theorem HandsOn.refl (ep : Endpoint) (h : ℕ) : HandsOn ep h ep h := ⟨rfl, rfl, rfl, rfl⟩

theorem HandsOn.trans (hep : HandsOn ep h ep' h') (hep' : HandsOn ep' h' ep'' h'') :
    HandsOn ep h ep'' h'' :=
  ⟨hep'.req.trans hep.req, hep'.next.trans hep.next, hep'.unreleased.trans hep.unreleased,
    hep'.pool.trans hep.pool⟩

theorem total_set (hid : id < ep.next) (new : Option Req) :
    (ep.set id new).total + held (ep.req id) = ep.total + held new := by
  have hmem : id ∈ range ep.next := mem_range.2 hid
  have hself := ep.set_req_self id new
  have hother : ∑ i ∈ (range ep.next).erase id, held ((ep.set id new).req i) =
      ∑ i ∈ (range ep.next).erase id, held (ep.req i) :=
    sum_congr rfl fun i hi => congrArg held (ep.set_req_of_ne (ne_of_mem_erase hi) new)
  have hsum := add_sum_erase (range ep.next) (fun i => held (ep.req i)) hmem
  have hsum' := add_sum_erase (range ep.next) (fun i => held ((ep.set id new).req i)) hmem
  rw [hself, hother] at hsum'
  have hnext : (ep.set id new).next = ep.next := rfl
  have hpool : (ep.set id new).pool = ep.pool := rfl
  rw [total, total, hnext, hpool]
  omega

/-- A request was worked on, and no credit is lost. -/
structure Stored (id : ℕ) (ep ep' : Endpoint) : Prop where
  next : ep'.next = ep.next
  unreleased : ep'.unreleased = ep.unreleased
  total : ep'.total = ep.total
  other : ∀ i, i ≠ id → ep'.req i = ep.req i
  shaped : ∀ req, ep'.req id = some req → req.Shaped

/-- It is stored with what it holds now. -/
theorem HandsOn.set (hep : HandsOn ep h ep' h') (hid : id < ep.next) {new : Option Req}
    (hold : held (ep.req id) = h) (hnew : held new = h')
    (hshaped : ∀ req, new = some req → req.Shaped) : Stored id ep (ep'.set id new) := by
  refine ⟨hep.next, hep.unreleased, ?_, fun i hi => ?_, fun req hreq => hshaped req ?_⟩
  rotate_left
  · exact (ep'.set_req_of_ne hi new).trans (congrFun hep.req i)
  · exact (ep'.set_req_self id new).symm.trans hreq
  have hset := Endpoint.total_set (hep.next ▸ hid : id < ep'.next) new
  have hpool := hep.pool
  rw [hep.req, hold, hnew] at hset
  have htotal : ep'.total = ep'.pool + ∑ id ∈ range ep.next, held (ep.req id) := by
    rw [total, hep.req, hep.next]
  have htotal' : ep.total = ep.pool + ∑ id ∈ range ep.next, held (ep.req id) := rfl
  omega

theorem HandsOn.setMediumsq (hep : HandsOn ep h ep' h') (hid : id < ep.next)
    (hold : held (ep.req id) = h) {req : MediumsqReq} (hnew : req.credits = h')
    (hshaped : req.Shaped) : Stored id ep (ep'.set id (some (.mediumsq req))) :=
  hep.set hid hold hnew fun _ heq => by cases heq; exact hshaped

theorem HandsOn.setPull (hep : HandsOn ep h ep' h') (hid : id < ep.next)
    (hold : held (ep.req id) = h) {req : PullReq} (hnew : req.credits = h')
    (hshaped : req.driverPulling = true → req.needResources = false) :
    Stored id ep (ep'.set id (some (.pull req))) :=
  hep.set hid hold hnew fun _ heq => by cases heq; exact hshaped

theorem HandsOn.setNone (hep : HandsOn ep h ep' 0) (hid : id < ep.next)
    (hold : held (ep.req id) = h) : Stored id ep (ep'.set id none) :=
  hep.set hid hold rfl nofun

/-! ## The functions -/

theorem credits_eq_zero {req : MediumsqReq} (hres : req.needResources = false)
    (hseq : req.needSeqnum = false) : req.credits = 0 := by
  rw [MediumsqReq.credits, hres, hseq]
  rfl

section
variable {req req' : MediumsqReq} {accepted : ℕ}

theorem needExpEvents_handsOn (h : ep.needExpEvents req = some (ep', req')) :
    HandsOn ep (if req.expEvent then 0 else req.fragsNr) ep' req.fragsNr ∧
      req' = { req with expEvent := false } := by
  rw [needExpEvents] at h
  cases hevent : req.expEvent with
  | false =>
      rw [hevent] at h
      cases h
      exact ⟨HandsOn.refl _ _, by cases req; cases hevent; rfl⟩
  | true =>
      rw [hevent, if_pos rfl] at h
      obtain ⟨henough, h⟩ := Option.ite_none_left_eq_some.1 h
      cases h
      refine ⟨⟨rfl, rfl, rfl, ?_⟩, rfl⟩
      simp only [pool, if_true]
      omega

theorem needSendqMapSlot_handsOn
    (hslot : needSendqMapSlot z ep id req = some (some (ep', req'))) (h : ℕ) :
    HandsOn ep h ep' h := by
  obtain ⟨-, hep', -⟩ := needSendqMapSlot_eq_some hslot
  rw [hep']
  exact ⟨rfl, rfl, rfl, rfl⟩

theorem postIsendMediumsq_handsOn (hindex : req.sendqMapIndex.length = req.fragsNr)
    (h : ep.postIsendMediumsq req accepted = some (ep', req')) :
    HandsOn ep req.fragsNr ep' 0 := by
  obtain ⟨n, hn, rfl, -⟩ := postIsendMediumsq_eq_some h
  refine ⟨rfl, rfl, rfl, ?_⟩
  simp only [pool, List.length_append, List.length_map, List.length_take, hindex]
  omega

/-- A medium that is posted. -/
theorem postIsendMediumsq_stored {ep₀ : Endpoint}
    (hpost : ep.postIsendMediumsq req accepted = some (ep', req'))
    (hep : HandsOn ep₀ h ep req.fragsNr) (hid : id < ep₀.next) (hold : held (ep₀.req id) = h)
    (hindex : req.sendqMapIndex.length = req.fragsNr) (hres : req.needResources = false)
    (hseq : req.needSeqnum = false) :
    Stored id ep₀ (ep'.set id (some (.mediumsq { req' with needAck := true }))) := by
  obtain ⟨n, -, -, hreq', -, -⟩ := postIsendMediumsq_eq_some hpost
  refine (hep.trans (postIsendMediumsq_handsOn hindex hpost)).setMediumsq hid hold ?_ ?_
  · refine credits_eq_zero ?_ ?_
    · rw [hreq']
      exact hres
    · rw [hreq']
      exact hseq
  · rw [hreq']
    exact .of_posted hres hseq fun _ => hindex

theorem setupIsendMediumsq_stored {ep₀ : Endpoint}
    (hsetup : ep.setupIsendMediumsq req accepted = some (ep', req'))
    (hep : HandsOn ep₀ h ep req.fragsNr) (hid : id < ep₀.next) (hold : held (ep₀.req id) = h)
    (hindex : req.sendqMapIndex.length = req.fragsNr) (hres : req.needResources = false)
    (hseq : req.needSeqnum = false) :
    req'.needResources = false ∧ Stored id ep₀ (ep'.set id (some (.mediumsq req'))) := by
  rw [setupIsendMediumsq] at hsetup
  obtain ⟨⟨ep'', req''⟩, hpost, heq⟩ := Option.map_eq_some_iff.1 hsetup
  cases heq
  refine ⟨?_, postIsendMediumsq_stored hpost hep hid hold hindex hres hseq⟩
  obtain ⟨n, -, -, hreq'', -, -⟩ := postIsendMediumsq_eq_some hpost
  rw [hreq'']
  exact hres

/-- A medium that gets what it misses, or as much as there is. -/
theorem allocSetupIsendMediumsq_stored {throttling : Bool}
    {result : Bool × Endpoint × MediumsqReq}
    (halloc : allocSetupIsendMediumsq z ep id req throttling accepted = some result)
    (hid : id < ep.next) (hold : held (ep.req id) = if req.expEvent then 0 else req.fragsNr)
    (hres : req.needResources = false) (hseq : req.needSeqnum = false)
    (hack : req.needAck = false) :
    Stored id ep (storeMediumsq id result) := by
  rw [allocSetupIsendMediumsq] at halloc
  split at halloc
  case h_1 =>
    cases halloc
    refine (HandsOn.refl ep _).setMediumsq hid hold ?_ ?_
    · cases hevent : req.expEvent <;> simp [MediumsqReq.credits]
    · exact .of_delayed hseq hack
  case h_2 ep₁ req₁ hevents =>
    obtain ⟨hhands, rfl⟩ := needExpEvents_handsOn hevents
    obtain ⟨slot, hslot, halloc⟩ := Option.bind_eq_some_iff.1 halloc
    cases slot with
    | none =>
        cases halloc
        refine hhands.setMediumsq hid hold ?_ ?_
        · simp [MediumsqReq.credits]
        · exact .of_delayed hseq hack
    | some slot =>
        obtain ⟨ep₂, req₂⟩ := slot
        have hhands₂ := hhands.trans (needSendqMapSlot_handsOn hslot req.fragsNr)
        obtain ⟨hindex, -, hreq₂⟩ := needSendqMapSlot_eq_some hslot
        have hframe : req₂.fragsNr = req.fragsNr ∧ req₂.needResources = false ∧
            req₂.needSeqnum = false ∧ req₂.needAck = false ∧ req₂.expEvent = false := by
          rw [hreq₂]
          exact ⟨rfl, hres, hseq, hack, rfl⟩
        obtain ⟨hfrags, hres₂, hseq₂, hack₂, hevent₂⟩ := hframe
        have hindex₂ : req₂.sendqMapIndex.length = req₂.fragsNr := hindex.trans hfrags.symm
        dsimp only at halloc
        split at halloc
        · cases halloc
          refine hhands₂.setMediumsq hid hold ?_ ?_
          · simp [MediumsqReq.credits, hevent₂, hfrags]
          · exact ⟨fun _ => hindex₂, fun h => (nomatch h), fun _ => ⟨hevent₂, hack₂⟩⟩
        · obtain ⟨⟨ep₃, req₃⟩, hsetup, heq⟩ := Option.map_eq_some_iff.1 halloc
          cases heq
          have hhands₂ : HandsOn ep (if req.expEvent then 0 else req.fragsNr) ep₂ req₂.fragsNr := by
            rw [hfrags]
            exact hhands₂
          obtain ⟨hres₃, hstored⟩ :=
            setupIsendMediumsq_stored hsetup hhands₂ hid hold hindex₂ hres₂ hseq₂
          have hsame : { req₃ with needResources := !true } = req₃ := by
            cases req₃
            cases hres₃
            rfl
          rw [storeMediumsq, hsame]
          exact hstored

end

/-! ## The invariant -/

/-- No credit is lost. -/
structure Credited (z : Sizes) (ep : Endpoint) : Prop where
  total : ep.total = z.availExpEvents
  unreleased : ep.unreleased < z.batchNr
  fresh : ∀ id, ep.next ≤ id → ep.req id = none
  shaped : ∀ id req, ep.req id = some req → req.Shaped

theorem Credited.init (z : Sizes) : Credited z (init z) where
  total := rfl
  unreleased := z.batch_pos
  fresh := fun _ _ => rfl
  shaped := fun _ _ h => nomatch h

theorem Credited.lt_next (hep : Credited z ep) {req : Req} (hreq : ep.req id = some req) :
    id < ep.next := by
  by_contra hle
  exact nomatch (hep.fresh id (Nat.le_of_not_lt hle)).symm.trans hreq

/-- What follows for the queue. -/
theorem Credited.conserved (hep : Credited z ep) : ep.Conserved z where
  credits := by
    rw [← hep.total, reserved, Endpoint.total, pool]
    omega
  room := by
    have htotal := hep.total
    have hunreleased := hep.unreleased
    rw [Endpoint.total, pool, Sizes.availExpEvents] at htotal
    rw [Sizes.batchNr] at hunreleased htotal
    omega

theorem Credited.stored (hep : Credited z ep) (hid : id < ep.next) (hstored : Stored id ep ep') :
    Credited z ep' where
  total := hstored.total.trans hep.total
  unreleased := hstored.unreleased ▸ hep.unreleased
  fresh := fun i hi => by
    rw [hstored.next] at hi
    rw [hstored.other i (Nat.ne_of_gt (Nat.lt_of_lt_of_le hid hi))]
    exact hep.fresh i hi
  shaped := fun i req hreq => by
    rcases eq_or_ne i id with rfl | hne
    · exact hstored.shaped req hreq
    · exact hep.shaped i req (hstored.other i hne ▸ hreq)

/-- A new request has nothing. -/
theorem Credited.submit (hep : Credited z ep) : Credited z { ep with next := ep.next + 1 } where
  total := by
    have hnew : held (ep.req ep.next) = 0 := by
      rw [hep.fresh ep.next (Nat.le_refl _)]
      rfl
    have hsum : ∑ id ∈ range (ep.next + 1), held (ep.req id) =
        ∑ id ∈ range ep.next, held (ep.req id) := by
      rw [sum_range_succ, hnew, Nat.add_zero]
    rw [← hep.total]
    exact congrArg (ep.pool + ·) hsum
  unreleased := hep.unreleased
  fresh := fun i hi => hep.fresh i (Nat.le_of_succ_le hi)
  shaped := hep.shaped

/-! ## The steps -/

section
variable {req : MediumsqReq} {accepted : ℕ}

theorem sendComplete_stored {ep₀ : Endpoint} (hep : HandsOn ep₀ h ep 0) (hid : id < ep₀.next)
    (hold : held (ep₀.req id) = h) (req : MediumsqReq) :
    Stored id ep₀ (ep.sendComplete id req) := by
  rw [sendComplete]
  split
  · exact hep.setNone hid hold
  · have hput : HandsOn ep 0
        { ep with
          sendqMap := ep.sendqMap.put req.fragsNr req.beforeIndex req.sendqMapIndex
          returned :=
            Function.update ep.returned id
              (ep.returned id ++ req.sendqMapIndex.take req.fragsNr) } 0 := ⟨rfl, rfl, rfl, rfl⟩
    exact (hep.trans hput).setNone hid hold

theorem releaseUnsent_handsOn (req : MediumsqReq) :
    HandsOn ep (if req.expEvent then 0 else req.fragsNr) (ep.releaseUnsent req).1 0 := by
  refine ⟨rfl, rfl, rfl, ?_⟩
  simp only [releaseUnsent, pool]
  split <;> omega

/-- A medium that is completed unsent gives back what it has. -/
theorem completeUnsent_stored (hid : id < ep.next) (hreq : ep.req id = some (.mediumsq req))
    (h : ep.completeUnsent id (.mediumsq req) = some ep') : Stored id ep ep' := by
  rw [completeUnsent] at h
  obtain ⟨hunsent, h⟩ := Option.ite_none_right_eq_some.1 h
  cases h
  refine sendComplete_stored (releaseUnsent_handsOn { req with needResources := false }) hid ?_ _
  rw [hreq]
  change req.credits = _
  rw [MediumsqReq.credits, hunsent]
  cases req.expEvent <;> rfl

/-- A pull is completed with what it has. -/
theorem completeUnsent_pull {req : PullReq} (hid : id < ep.next)
    (hreq : ep.req id = some (.pull req)) (h : ep.completeUnsent id (.pull req) = some ep') :
    ep'.total + req.credits = ep.total ∧ (req.credits = 0 → Stored id ep ep') := by
  rw [completeUnsent] at h
  obtain ⟨-, h⟩ := Option.ite_none_right_eq_some.1 h
  cases h
  have hset := total_set hid (none : Option Req)
  rw [hreq] at hset
  exact ⟨hset, fun hnone => (HandsOn.refl ep 0).setNone hid (by rw [hreq]; exact hnone)⟩

theorem markRequestAcked_stored (hid : id < ep.next) (hreq : ep.req id = some (.mediumsq req))
    (hshaped : req.Shaped) (h : ep.markRequestAcked id (.mediumsq req) = some ep') :
    Stored id ep ep' := by
  rw [markRequestAcked] at h
  obtain ⟨hack, h⟩ := Option.ite_none_right_eq_some.1 h
  obtain ⟨hres, hseq⟩ := hshaped.posted hack
  have hold : held (ep.req id) = 0 := by
    rw [hreq]
    exact credits_eq_zero hres hseq
  split at h
  · cases h
    refine (HandsOn.refl ep 0).setMediumsq hid hold (credits_eq_zero hres hseq) ?_
    exact .of_posted hres hseq nofun
  · cases h
    exact sendComplete_stored (HandsOn.refl ep 0) hid hold _

theorem resend_stored (hid : id < ep.next) (hreq : ep.req id = some (.mediumsq req))
    (hshaped : req.Shaped) (h : ep.resend id accepted (.mediumsq req) = some ep') :
    Stored id ep ep' := by
  rw [resend] at h
  obtain ⟨hack, h⟩ := Option.ite_none_right_eq_some.1 h
  obtain ⟨hack, -⟩ := Bool.and_eq_true_iff.1 hack
  obtain ⟨hres, hseq⟩ := hshaped.posted hack
  have hold : held (ep.req id) = 0 := by
    rw [hreq]
    exact credits_eq_zero hres hseq
  split at h
  · cases h
    exact ⟨rfl, rfl, rfl, fun _ _ => rfl, fun req' hreq' => by
      cases hreq.symm.trans hreq'
      exact hshaped⟩
  · rename_i henough
    obtain ⟨⟨ep'', req'⟩, hpost, rfl⟩ := Option.map_eq_some_iff.1 h
    have hhands : HandsOn ep 0 { ep with availExpEvents := ep.availExpEvents - req.fragsNr }
        req.fragsNr := by
      refine ⟨rfl, rfl, rfl, ?_⟩
      simp only [pool]
      omega
    have hstored := postIsendMediumsq_stored hpost hhands hid hold (hshaped.index (.inr hack)) hres hseq
    obtain ⟨n, -, -, hreq', -, -⟩ := postIsendMediumsq_eq_some hpost
    have hsame : { req' with needAck := true } = req' := by
      rw [hreq', hack]
    rw [hsame] at hstored
    exact hstored

theorem processThrottling_stored (hid : id < ep.next) (hreq : ep.req id = some (.mediumsq req))
    (hshaped : req.Shaped) (h : ep.processThrottling id accepted (.mediumsq req) = some ep') :
    Stored id ep ep' := by
  rw [processThrottling] at h
  obtain ⟨hseq, h⟩ := Option.ite_none_right_eq_some.1 h
  obtain ⟨⟨ep'', req'⟩, hsetup, rfl⟩ := Option.map_eq_some_iff.1 h
  have hres : req.needResources = false := eq_false_of_ne_true fun hres => by
    cases (hshaped.delayed hres).1.symm.trans hseq
  have hold : held (ep.req id) = req.fragsNr := by
    rw [hreq]
    change req.credits = _
    rw [MediumsqReq.credits, hres, hseq, (hshaped.throttled hseq).1]
    rfl
  exact (setupIsendMediumsq_stored hsetup (HandsOn.refl ep req.fragsNr) hid hold
    (hshaped.index (.inl hseq)) hres rfl).2

theorem processDelayed_stored {throttling region handle : Bool} (hid : id < ep.next)
    (hreq : ep.req id = some (.mediumsq req)) (hshaped : req.Shaped)
    (h : ep.processDelayed z id throttling accepted region handle (.mediumsq req) = some ep') :
    Stored id ep ep' := by
  rw [processDelayed] at h
  obtain ⟨hres, h⟩ := Option.ite_none_right_eq_some.1 h
  obtain ⟨result, halloc, rfl⟩ := Option.map_eq_some_iff.1 h
  obtain ⟨hseq, hack⟩ := hshaped.delayed hres
  refine allocSetupIsendMediumsq_stored halloc hid ?_ rfl hseq hack
  rw [hreq]
  change req.credits = _
  rw [MediumsqReq.credits, hres]
  cases req.expEvent <;> rfl

theorem fragDone_stored (h : ep.fragDone id (.mediumsq req) = some ep') (hid : id < ep.next)
    (hreq : ep.req id = some (.mediumsq req)) (hshaped : req.Shaped) : Stored id ep ep' := by
  rw [fragDone] at h
  obtain ⟨hposted, h⟩ := Option.ite_none_left_eq_some.1 h
  rw [Bool.or_eq_true, not_or, Bool.not_eq_true, Bool.not_eq_true] at hposted
  obtain ⟨hres, hseq⟩ := hposted
  have hold : held (ep.req id) = 0 := by
    rw [hreq]
    exact credits_eq_zero hres hseq
  have hkept : ∀ req' : MediumsqReq, req'.needResources = req.needResources →
      req'.needSeqnum = req.needSeqnum → req'.needAck = req.needAck →
      req'.sendqMapIndex = req.sendqMapIndex → req'.fragsNr = req.fragsNr →
      Stored id ep (ep.set id (some (.mediumsq req'))) := by
    intro req' hres' hseq' hack' hindex' hfrags'
    refine (HandsOn.refl ep 0).setMediumsq hid hold
      (credits_eq_zero (hres'.trans hres) (hseq'.trans hseq)) ?_
    refine .of_posted (hres'.trans hres) (hseq'.trans hseq) fun hack => ?_
    rw [hindex', hfrags']
    exact hshaped.index (.inr (hack'.symm.trans hack))
  dsimp only at h
  split at h
  · split at h
    · cases h
      exact hkept _ rfl rfl rfl rfl rfl
    · cases h
      exact sendComplete_stored (HandsOn.refl ep 0) hid hold _
  · cases h
    exact hkept _ rfl rfl rfl rfl rfl

end

theorem allocSetupPull_stored {req : PullReq} {region handle : Bool} (hid : id < ep.next)
    (hold : held (ep.req id) = if req.expEvent then 0 else 1)
    (hpulling : req.driverPulling = false) :
    Stored id ep (storePull id (ep.allocSetupPull id req region handle)) := by
  rw [allocSetupPull]
  split
  case h_1 =>
    refine (HandsOn.refl ep _).setPull hid hold ?_ fun hpull => (by cases hpulling.symm.trans hpull)
    cases hevent : req.expEvent <;> simp [PullReq.credits]
  case h_2 ep₁ req₁ hevents =>
    have hhands : HandsOn ep (if req.expEvent then 0 else 1) ep₁ 1 ∧
        req₁ = { req with expEvent := false } := by
      rw [needExpEvent] at hevents
      cases hevent : req.expEvent with
      | false =>
          rw [hevent] at hevents
          cases hevents
          exact ⟨HandsOn.refl _ _, by cases req; cases hevent; rfl⟩
      | true =>
          rw [hevent, if_pos rfl] at hevents
          obtain ⟨henough, hevents⟩ := Option.ite_none_left_eq_some.1 hevents
          cases hevents
          refine ⟨⟨rfl, rfl, rfl, ?_⟩, rfl⟩
          simp only [pool, if_true]
          omega
    obtain ⟨hhands, rfl⟩ := hhands
    split
    · exact hhands.setPull hid hold rfl fun hpull => (by cases hpulling.symm.trans hpull)
    · split
      · have haccept : HandsOn ep₁ 1 { ep₁ with inDriver := ep₁.inDriver ++ [.pullDone id] } 0 := by
          refine ⟨rfl, rfl, rfl, ?_⟩
          simp only [pool, List.length_append, List.length_singleton]
          omega
        exact (hhands.trans haccept).setPull hid hold rfl fun _ => rfl
      · exact hhands.setPull hid hold rfl fun hpull => (by cases hpulling.symm.trans hpull)

theorem processDelayed_pull {req : PullReq} {throttling region handle : Bool} {accepted : ℕ}
    (hid : id < ep.next) (hreq : ep.req id = some (.pull req)) (hshaped : (Req.pull req).Shaped)
    (h : ep.processDelayed z id throttling accepted region handle (.pull req) = some ep') :
    Stored id ep ep' := by
  rw [processDelayed] at h
  obtain ⟨hres, h⟩ := Option.ite_none_right_eq_some.1 h
  cases h
  have hpulling : req.driverPulling = false := eq_false_of_ne_true fun hpulling => by
    cases (hshaped hpulling).symm.trans hres
  refine allocSetupPull_stored hid ?_ hpulling
  rw [hreq]
  change req.credits = _
  rw [PullReq.credits, hres]
  cases req.expEvent <;> rfl

/-- The event of the head is taken, and its credit is available. -/
theorem Credited.takeEvent {event : ExpEvent} {events : List ExpEvent} (hep : Credited z ep)
    (hqueue : ep.expEventq = event :: events) :
    Credited z
      { ep with
        expEventq := events
        unreleased := (ep.unreleased + 1) % z.batchNr
        availExpEvents := ep.availExpEvents + 1 } where
  total := by
    rw [← hep.total, Endpoint.total, Endpoint.total, pool, pool, hqueue, List.length_cons]
    dsimp only
    omega
  unreleased := Nat.mod_lt _ z.batch_pos
  fresh := hep.fresh
  shaped := hep.shaped

theorem Credited.progress (hep : Credited z ep) (h : ep.progress z = some ep') :
    Credited z ep' := by
  rw [Endpoint.progress] at h
  cases hqueue : ep.expEventq with
  | nil => rw [hqueue] at h; exact nomatch h
  | cons event events =>
      rw [hqueue] at h
      have htake := hep.takeEvent hqueue
      cases event with
      | sendMediumsqFragDone sendqIndex =>
          obtain ⟨id, -, h⟩ := Option.bind_eq_some_iff.1 h
          obtain ⟨req, hreq, h⟩ := Option.bind_eq_some_iff.1 h
          have hid := hep.lt_next hreq
          cases req with
          | mediumsq req => exact htake.stored hid (fragDone_stored h hid hreq (hep.shaped id _ hreq))
          | pull req => exact nomatch h
      | pullDone id =>
          dsimp only [processEvent] at h
          split at h
          · rename_i req hreq
            obtain ⟨hpulling, h⟩ := Option.ite_none_right_eq_some.1 h
            cases h
            have hid := hep.lt_next hreq
            have hold : held (ep.req id) = 0 := by
              rw [hreq]
              change req.credits = 0
              rw [PullReq.credits, hep.shaped id _ hreq hpulling]
              rfl
            exact htake.stored hid ((HandsOn.refl _ 0).setNone hid hold)
          · exact nomatch h

theorem Credited.report {k : ℕ} (hep : Credited z ep) (h : ep.report z k = some ep') :
    Credited z ep' := by
  rw [Endpoint.report] at h
  obtain ⟨event, hevent, rfl⟩ := Option.map_eq_some_iff.1 h
  obtain ⟨hk, -⟩ := List.getElem?_eq_some_iff.1 hevent
  have hlen := List.length_eraseIdx_of_lt hk
  have hroom := hep.conserved.room
  -- what the driver accepted has room
  rw [if_pos (by omega)]
  refine ⟨?_, hep.unreleased, hep.fresh, hep.shaped⟩
  rw [← hep.total, Endpoint.total, Endpoint.total, pool, pool]
  dsimp only
  rw [hlen, List.length_append, List.length_singleton]
  omega

end Endpoint

/-! ## Runs -/

open Endpoint

/-- No pull is completed unsent that has its credit. -/
def KeepsCredits (ep : Endpoint) : Action → Prop
  | .completeUnsent id =>
      ∀ req, ep.req id = some (.pull req) → req.needResources = true → req.expEvent = true
  | _ => True

variable {z : Sizes} {ep ep' : Endpoint}

theorem Endpoint.Credited.step (hep : Credited z ep) {a : Action} (hok : KeepsCredits ep a)
    (hs : (machine z).step ep a = some ep') : Credited z ep' := by
  cases a with
  | submitMedium length beforeIndex othersDelayed throttling accepted =>
      obtain ⟨-, hs⟩ := Option.ite_none_right_eq_some.1 hs
      rw [submitIsendMedium] at hs
      have hnew : held (ep.req ep.next) = 0 := by
        rw [hep.fresh ep.next (Nat.le_refl _)]
        rfl
      split at hs
      · cases hs
        refine hep.submit.stored (Nat.lt_succ_self _) ?_
        let ep₁ := { ep with next := ep.next + 1 }
        refine (HandsOn.refl ep₁ 0).setMediumsq (Nat.lt_succ_self _) hnew ?_ ?_
        · rfl
        · exact .of_delayed rfl rfl
      · obtain ⟨result, halloc, rfl⟩ := Option.map_eq_some_iff.1 hs
        exact hep.submit.stored (Nat.lt_succ_self _)
          (allocSetupIsendMediumsq_stored halloc (Nat.lt_succ_self _) hnew rfl rfl rfl)
  | submitPull region handle =>
      cases hs
      have hnew : held (ep.req ep.next) = 0 := by
        rw [hep.fresh ep.next (Nat.le_refl _)]
        rfl
      exact hep.submit.stored (Nat.lt_succ_self _)
        (allocSetupPull_stored (Nat.lt_succ_self _) hnew rfl)
  | completeUnsent id =>
      obtain ⟨req, hreq, hs⟩ := Option.bind_eq_some_iff.1 hs
      have hid := hep.lt_next hreq
      cases req with
      | mediumsq req => exact hep.stored hid (completeUnsent_stored hid hreq hs)
      | pull req =>
          refine hep.stored hid ((completeUnsent_pull hid hreq hs).2 ?_)
          rw [PullReq.credits]
          cases hres : req.needResources with
          | false => rfl
          | true => rw [hok req hreq hres]; rfl
  | ack id =>
      obtain ⟨req, hreq, hs⟩ := Option.bind_eq_some_iff.1 hs
      have hid := hep.lt_next hreq
      cases req with
      | mediumsq req =>
          exact hep.stored hid (markRequestAcked_stored hid hreq (hep.shaped id _ hreq) hs)
      | pull req => exact nomatch hs
  | resend id accepted =>
      obtain ⟨req, hreq, hs⟩ := Option.bind_eq_some_iff.1 hs
      have hid := hep.lt_next hreq
      cases req with
      | mediumsq req => exact hep.stored hid (resend_stored hid hreq (hep.shaped id _ hreq) hs)
      | pull req => exact nomatch hs
  | processDelayed id throttling accepted region handle =>
      obtain ⟨req, hreq, hs⟩ := Option.bind_eq_some_iff.1 hs
      have hid := hep.lt_next hreq
      cases req with
      | mediumsq req =>
          exact hep.stored hid (processDelayed_stored hid hreq (hep.shaped id _ hreq) hs)
      | pull req =>
          exact hep.stored hid (processDelayed_pull hid hreq (hep.shaped id _ hreq) hs)
  | processThrottling id accepted =>
      obtain ⟨req, hreq, hs⟩ := Option.bind_eq_some_iff.1 hs
      have hid := hep.lt_next hreq
      cases req with
      | mediumsq req =>
          exact hep.stored hid (processThrottling_stored hid hreq (hep.shaped id _ hreq) hs)
      | pull req => exact nomatch hs
  | progress => exact hep.progress hs
  | report k => exact hep.report hs

/-- A pull that has its credit is completed: the credit is gone. -/
theorem not_conserved_of_not_keepsCredits (hep : Credited z ep) {a : Action}
    (hok : ¬ KeepsCredits ep a) : ∃ ep' ∈ (machine z).step ep a, ¬ ep'.Conserved z := by
  cases a with
  | completeUnsent id =>
      simp only [KeepsCredits, not_forall] at hok
      obtain ⟨req, hreq, hres, hevent⟩ := hok
      have hevent : req.expEvent = false := eq_false_of_ne_true hevent
      have hstep : (machine z).step ep (.completeUnsent id) = some (ep.set id none) := by
        change (ep.req id).bind _ = _
        rw [hreq]
        exact if_pos hres
      have hcomplete : ep.completeUnsent id (.pull req) = some (ep.set id none) := if_pos hres
      have htotal := (completeUnsent_pull (hep.lt_next hreq) hreq hcomplete).1
      have hcredits : req.credits = 1 := by
        rw [PullReq.credits, hres, hevent]
        rfl
      refine ⟨_, hstep, fun hconserved => ?_⟩
      have hsum := hconserved.credits
      have htotal' := hep.total
      rw [hcredits] at htotal
      rw [reserved] at hsum
      have hunfold : (ep.set id none).total =
        (ep.set id none).availExpEvents + (ep.set id none).inDriver.length +
          (ep.set id none).expEventq.length +
          ∑ i ∈ range (ep.set id none).next, held ((ep.set id none).req i) := rfl
      omega
  | _ => exact absurd trivial hok

/-- In every state of a run the credits that are available, reserved, and in events that are not
processed are those of a new endpoint, and the queue of the events has room for all that the driver
accepted, exactly when no cleanup of the run completes a pull that waits with its credit. -/
theorem machine_conserved_iff (z : Sizes) (as : List Action) :
    (∀ bs, bs <+: as → ∀ ep, (machine z).exec (machine z).init bs = some ep → ep.Conserved z) ↔
      (machine z).Meets KeepsCredits (machine z).init as := by
  refine (Machine.meets_iff_forall_prefix (fun ep a ep' hep hok hs => hep.step hok hs)
    (fun ep hep => hep.conserved) (fun ep a hep => ?_) (Credited.init z)).symm
  constructor
  · exact fun hok ep' hs => (hep.step hok hs).conserved
  · intro hall
    by_contra hok
    obtain ⟨ep', hs, hnot⟩ := not_conserved_of_not_keepsCredits hep hok
    exact hnot (hall ep' hs)

/-- A pull that the driver does not take, and the cleanup of its partner. -/
theorem machine_not_conserved :
    ¬ ∀ (as : List Action) (ep : Endpoint),
      (machine .default).exec (machine .default).init as = some ep → ep.Conserved .default := by
  intro h
  have hep := (Credited.init .default).step (a := .submitPull true false) trivial rfl
  have hleak : ¬ KeepsCredits ((init .default).submitPull true false) (.completeUnsent 0) :=
    fun hok => nomatch hok ⟨true, false, false, false, true⟩ rfl rfl
  obtain ⟨ep, hs, hnot⟩ := not_conserved_of_not_keepsCredits hep hleak
  have hrun : (machine .default).exec (machine .default).init
      [.submitPull true false, .completeUnsent 0] = some ep :=
    (Machine.exec_cons_eq_some _).2 ⟨_, rfl, (Machine.exec_cons_eq_some _).2 ⟨ep, hs, rfl⟩⟩
  exact hnot (h _ ep hrun)

end Xen2mx.Sendq
