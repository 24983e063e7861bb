/-
# `Xen2mx.Ctxid.Mirror` — the queues of a context are those of the endpoint, filtered

Every function that queues a request queues it twice, with the context of its match
information, and every function that removes one removes both its elements:

    anyctxid.unexp_req_q     queue_elt     ctxid[c].unexp_req_q     ctxid_elt
    anyctxid.done_req_q      done_elt      ctxid[c].done_req_q      ctxid_elt

**Proved here.**

    a request is in each of the two anyctxid queues at most once, in the state that the queue asks for
    what changes a request that is queued keeps its match information
        ⟹  every step but a partner cleanup keeps the queues of the contexts      (`Inv.step`)
-/
import Mathlib.Data.List.Nodup
import Xen2mx.Ctxid.Queues

namespace Xen2mx.Ctxid

open Matching (CtxidConfig)
open Request (ReqType ReqState)

variable {ι : Type*} {z : CtxidConfig}

/-! ## The invariant -/

namespace Req

variable (req : Req ι)

/-- A request that is in the done queues. -/
structure Done : Prop where
  done : req.state.done = true
  zombie : req.state.zombie = false
  cancellable : ¬ req.Cancellable

/-- A request that is in the unexpected queues. -/
structure Unexp : Prop where
  unexpectedRecv : req.state.unexpectedRecv = true
  done : req.state.done = false
  zombie : req.state.zombie = false
  cancellable : ¬ req.Cancellable

end Req

namespace Endpoint

/-- The context of a request. -/
def ctxidOf (z : CtxidConfig) (ep : Endpoint ι) (id : ℕ) : Option (BitVec 32) :=
  (ep.req id).map fun req => z.ctxidFromMatching req.matchInfo

theorem set_req_self (ep : Endpoint ι) (id : ℕ) (req : Req ι) :
    (ep.set id req).req id = some req := Function.update_self _ _ _

theorem set_req_of_ne (ep : Endpoint ι) {id id' : ℕ} (req : Req ι) (h : id' ≠ id) :
    (ep.set id req).req id' = ep.req id' := Function.update_of_ne h _ _

/-- The queues of each context have what the anyctxid queues have of it, in the same order. -/
structure Mirrored (z : CtxidConfig) (ep : Endpoint ι) : Prop where
  unexp : Mirrors (ep.ctxidOf z) ep.anyctxid.unexpReqQ fun c => (ep.ctxid c).unexpReqQ
  done : Mirrors (ep.ctxidOf z) ep.anyctxid.doneReqQ fun c => (ep.ctxid c).doneReqQ

end Endpoint

open Endpoint

/-- Each request that is queued is allocated, and in the state that its queue asks for. -/
structure Inv (z : CtxidConfig) (ep : Endpoint ι) : Prop where
  fresh : ∀ id, ep.next ≤ id → ep.req id = none
  unexp : ∀ id ∈ ep.anyctxid.unexpReqQ, ∃ req ∈ ep.req id, req.Unexp
  done : ∀ id ∈ ep.anyctxid.doneReqQ, ∃ req ∈ ep.req id, req.Done
  unexpNodup : ep.anyctxid.unexpReqQ.Nodup
  doneNodup : ep.anyctxid.doneReqQ.Nodup
  mirrored : ep.Mirrored z

namespace Inv

variable {ep : Endpoint ι} {id : ℕ} {req old : Req ι}

theorem unexp_of_mem (h : Inv z ep) (hreq : ep.req id = some req)
    (hid : id ∈ ep.anyctxid.unexpReqQ) : req.Unexp := by
  obtain ⟨req', hreq', hunexp⟩ := h.unexp id hid
  cases hreq.symm.trans hreq'
  exact hunexp

theorem done_of_mem (h : Inv z ep) (hreq : ep.req id = some req)
    (hid : id ∈ ep.anyctxid.doneReqQ) : req.Done := by
  obtain ⟨req', hreq', hdone⟩ := h.done id hid
  cases hreq.symm.trans hreq'
  exact hdone

theorem lt_of_req (h : Inv z ep) (hreq : ep.req id = some req) : id < ep.next := by
  by_contra hle
  exact nomatch hreq.symm.trans (h.fresh id (Nat.le_of_not_lt hle))

/-- A request is not in both queues. -/
theorem not_mem_unexp_of_done (h : Inv z ep) (hid : id ∈ ep.anyctxid.doneReqQ) :
    id ∉ ep.anyctxid.unexpReqQ := by
  intro hunexp
  obtain ⟨req, hreq, hdone⟩ := h.done id hid
  exact nomatch hdone.done.symm.trans (h.unexp_of_mem hreq hunexp).done

theorem init (zombieMax : ℕ) : Inv z (.init zombieMax : Endpoint ι) :=
  { fresh := fun _ _ => rfl
    unexp := fun _ h => nomatch h
    done := fun _ h => nomatch h
    unexpNodup := .nil
    doneNodup := .nil
    mirrored := ⟨Mirrors.nil, Mirrors.nil⟩ }

/-! ## Requests that are written, allocated and freed -/

/-- Writing a request that stays as its queue asks for, if it is in one. -/
theorem set (h : Inv z ep) (hold : ep.req id = some old)
    (hunexp : id ∈ ep.anyctxid.unexpReqQ → req.Unexp)
    (hdone : id ∈ ep.anyctxid.doneReqQ → req.Done)
    (hmatch : id ∈ ep.anyctxid.unexpReqQ ∨ id ∈ ep.anyctxid.doneReqQ →
      req.matchInfo = old.matchInfo) : Inv z (ep.set id req) := by
  have hkey : ∀ id', id' ∈ ep.anyctxid.unexpReqQ ∨ id' ∈ ep.anyctxid.doneReqQ →
      (ep.set id req).ctxidOf z id' = ep.ctxidOf z id' := by
    intro id' hid'
    rw [ctxidOf, ctxidOf]
    by_cases hid : id' = id
    · subst hid
      rw [set_req_self, hold, Option.map_some, Option.map_some, hmatch hid']
    · rw [set_req_of_ne _ _ hid]
  refine
    { fresh := fun id' hle => ?_
      unexp := fun id' hid' => ?_
      done := fun id' hid' => ?_
      unexpNodup := h.unexpNodup
      doneNodup := h.doneNodup
      mirrored := ⟨h.mirrored.unexp.congr fun id' hid' => hkey id' (.inl hid'),
        h.mirrored.done.congr fun id' hid' => hkey id' (.inr hid')⟩ }
  · have hne : id' ≠ id := fun heq => absurd (h.lt_of_req hold) (Nat.not_lt.2 (heq ▸ hle))
    exact (set_req_of_ne _ _ hne).trans (h.fresh id' hle)
  · by_cases hid : id' = id
    · subst hid
      exact ⟨req, set_req_self _ _ _, hunexp hid'⟩
    · obtain ⟨req', hreq', hunexp'⟩ := h.unexp id' hid'
      exact ⟨req', (set_req_of_ne _ _ hid).trans hreq', hunexp'⟩
  · by_cases hid : id' = id
    · subst hid
      exact ⟨req, set_req_self _ _ _, hdone hid'⟩
    · obtain ⟨req', hreq', hdone'⟩ := h.done id' hid'
      exact ⟨req', (set_req_of_ne _ _ hid).trans hreq', hdone'⟩

theorem alloc (h : Inv z ep) (req : Req ι) : Inv z (ep.alloc req) := by
  have hnone : ep.req ep.next = none := h.fresh _ (Nat.le_refl _)
  have hunexp : ∀ id ∈ ep.anyctxid.unexpReqQ, id ≠ ep.next := by
    rintro id hid rfl
    obtain ⟨req', hreq', -⟩ := h.unexp _ hid
    exact nomatch hnone.symm.trans hreq'
  have hdone : ∀ id ∈ ep.anyctxid.doneReqQ, id ≠ ep.next := by
    rintro id hid rfl
    obtain ⟨req', hreq', -⟩ := h.done _ hid
    exact nomatch hnone.symm.trans hreq'
  have hother : ∀ id, id ≠ ep.next → (ep.alloc req).req id = ep.req id :=
    fun id hne => Function.update_of_ne hne _ _
  exact
    { fresh := fun id hle => (hother id (Nat.ne_of_gt hle)).trans (h.fresh id (Nat.le_of_succ_le hle))
      unexp := fun id hid => by rw [hother id (hunexp id hid)]; exact h.unexp id hid
      done := fun id hid => by rw [hother id (hdone id hid)]; exact h.done id hid
      unexpNodup := h.unexpNodup
      doneNodup := h.doneNodup
      mirrored :=
        ⟨h.mirrored.unexp.congr fun id hid => by
            rw [ctxidOf, ctxidOf, hother id (hunexp id hid)],
          h.mirrored.done.congr fun id hid => by
            rw [ctxidOf, ctxidOf, hother id (hdone id hid)]⟩ }

theorem free (h : Inv z ep) (hunexp : id ∉ ep.anyctxid.unexpReqQ)
    (hdone : id ∉ ep.anyctxid.doneReqQ) : Inv z (ep.free id) := by
  have hother : ∀ id', id' ≠ id → (ep.free id).req id' = ep.req id' :=
    fun id' hne => Function.update_of_ne hne _ _
  have hneUnexp : ∀ id' ∈ ep.anyctxid.unexpReqQ, id' ≠ id := fun id' hid' heq =>
    hunexp (heq ▸ hid')
  have hneDone : ∀ id' ∈ ep.anyctxid.doneReqQ, id' ≠ id := fun id' hid' heq =>
    hdone (heq ▸ hid')
  refine
    { fresh := fun id' hle => ?_
      unexp := fun id' hid' => by rw [hother id' (hneUnexp id' hid')]; exact h.unexp id' hid'
      done := fun id' hid' => by rw [hother id' (hneDone id' hid')]; exact h.done id' hid'
      unexpNodup := h.unexpNodup
      doneNodup := h.doneNodup
      mirrored :=
        ⟨h.mirrored.unexp.congr fun id' hid' => by
            rw [ctxidOf, ctxidOf, hother id' (hneUnexp id' hid')],
          h.mirrored.done.congr fun id' hid' => by
            rw [ctxidOf, ctxidOf, hother id' (hneDone id' hid')]⟩ }
  by_cases hid : id' = id
  · subst hid
    exact Function.update_self _ _ _
  · exact (hother id' hid).trans (h.fresh id' hle)

/-- How many requests are zombies does not matter. -/
theorem zombies (h : Inv z ep) (n : ℕ) : Inv z { ep with zombies := n } :=
  { fresh := h.fresh
    unexp := h.unexp
    done := h.done
    unexpNodup := h.unexpNodup
    doneNodup := h.doneNodup
    mirrored := ⟨h.mirrored.unexp, h.mirrored.done⟩ }

/-! ## The queues -/

theorem enqueueUnexp (h : Inv z ep) (hctxids : z.hasCtxids = true) {matchInfo : BitVec 64}
    (hreq : ep.req id = some req) (hmatch : req.matchInfo = matchInfo) (hunexp : req.Unexp)
    (hid : id ∉ ep.anyctxid.unexpReqQ) : Inv z (ep.enqueueUnexp z id matchInfo) where
  fresh := h.fresh
  unexp := by
    intro id' hid'
    rcases List.mem_append.1 hid' with hid' | hid'
    · exact h.unexp id' hid'
    · cases List.mem_singleton.1 hid'
      exact ⟨req, hreq, hunexp⟩
  done := h.done
  unexpNodup := by
    refine List.nodup_append.2 ⟨h.unexpNodup, List.nodup_singleton id, ?_⟩
    rintro id' hid' _ hmem rfl
    exact hid (List.mem_singleton.1 hmem ▸ hid')
  doneNodup := h.doneNodup
  mirrored := by
    have hkey : ep.ctxidOf z id = some (z.ctxidFromMatching matchInfo) := by
      rw [ctxidOf, hreq, Option.map_some, hmatch]
    constructor
    · intro c
      have happend := h.mirrored.unexp.append hkey c
      refine Eq.trans ?_ happend
      rw [Endpoint.enqueueUnexp]
      dsimp only
      rw [if_pos hctxids, Function.update_apply, Function.update_apply]
      split <;> rfl
    · intro c
      refine Eq.trans ?_ (h.mirrored.done c)
      rw [Endpoint.enqueueUnexp]
      dsimp only
      rw [if_pos hctxids, Function.update_apply]
      split
      · rename_i hc
        rw [hc]
      · rfl

theorem enqueueDone (h : Inv z ep) (hctxids : z.hasCtxids = true) {matchInfo : BitVec 64}
    (hreq : ep.req id = some req) (hmatch : req.matchInfo = matchInfo) (hdone : req.Done)
    (hid : id ∉ ep.anyctxid.doneReqQ) : Inv z (ep.enqueueDone z id matchInfo) where
  fresh := h.fresh
  unexp := h.unexp
  done := by
    intro id' hid'
    rcases List.mem_append.1 hid' with hid' | hid'
    · exact h.done id' hid'
    · cases List.mem_singleton.1 hid'
      exact ⟨req, hreq, hdone⟩
  unexpNodup := h.unexpNodup
  doneNodup := by
    refine List.nodup_append.2 ⟨h.doneNodup, List.nodup_singleton id, ?_⟩
    rintro id' hid' _ hmem rfl
    exact hid (List.mem_singleton.1 hmem ▸ hid')
  mirrored := by
    have hkey : ep.ctxidOf z id = some (z.ctxidFromMatching matchInfo) := by
      rw [ctxidOf, hreq, Option.map_some, hmatch]
    constructor
    · intro c
      refine Eq.trans ?_ (h.mirrored.unexp c)
      rw [Endpoint.enqueueDone]
      dsimp only
      rw [if_pos hctxids, Function.update_apply]
      split
      · rename_i hc
        rw [hc]
      · rfl
    · intro c
      have happend := h.mirrored.done.append hkey c
      refine Eq.trans ?_ happend
      rw [Endpoint.enqueueDone]
      dsimp only
      rw [if_pos hctxids, Function.update_apply, Function.update_apply]
      split <;> rfl


theorem dequeueUnexp (h : Inv z ep) (hctxids : z.hasCtxids = true)
    (hid : id ∉ ep.anyctxid.doneReqQ) : Inv z (ep.dequeueUnexp z id) := by
  rw [Endpoint.dequeueUnexp]
  rw [if_pos hctxids]
  have hdone := h.mirrored.done.erase h.doneNodup id
  rw [List.erase_of_not_mem hid] at hdone
  exact
    { fresh := h.fresh
      unexp := fun id' hid' => h.unexp id' (List.mem_of_mem_erase hid')
      done := h.done
      unexpNodup := h.unexpNodup.erase id
      doneNodup := h.doneNodup
      mirrored := ⟨h.mirrored.unexp.erase h.unexpNodup id, hdone⟩ }

theorem dequeueDone (h : Inv z ep) (hctxids : z.hasCtxids = true)
    (hid : id ∉ ep.anyctxid.unexpReqQ) : Inv z (ep.dequeueDone z id) := by
  rw [Endpoint.dequeueDone]
  dsimp only
  rw [if_pos hctxids]
  have hunexp := h.mirrored.unexp.erase h.unexpNodup id
  rw [List.erase_of_not_mem hid] at hunexp
  exact
    { fresh := h.fresh
      unexp := h.unexp
      done := fun id' hid' => h.done id' (List.mem_of_mem_erase hid')
      unexpNodup := h.unexpNodup
      doneNodup := h.doneNodup.erase id
      mirrored := ⟨hunexp, h.mirrored.done.erase h.doneNodup id⟩ }

end Inv

namespace Endpoint

variable {ep : Endpoint ι} {id : ℕ}

theorem dequeueUnexp_unexpReqQ :
    (ep.dequeueUnexp z id).anyctxid.unexpReqQ = ep.anyctxid.unexpReqQ.erase id := by
  rw [dequeueUnexp]
  split <;> rfl

theorem dequeueUnexp_doneReqQ :
    (ep.dequeueUnexp z id).anyctxid.doneReqQ = ep.anyctxid.doneReqQ := by
  rw [dequeueUnexp]
  split <;> rfl

theorem dequeueUnexp_req : (ep.dequeueUnexp z id).req = ep.req := by
  rw [dequeueUnexp]
  split <;> rfl

theorem dequeueDone_unexpReqQ :
    (ep.dequeueDone z id).anyctxid.unexpReqQ = ep.anyctxid.unexpReqQ := by
  rw [dequeueDone]
  dsimp only
  split <;> rfl

theorem dequeueDone_doneReqQ :
    (ep.dequeueDone z id).anyctxid.doneReqQ = ep.anyctxid.doneReqQ.erase id := by
  rw [dequeueDone]
  dsimp only
  split <;> rfl

theorem dequeueDone_req : (ep.dequeueDone z id).req = ep.req := by
  rw [dequeueDone]
  dsimp only
  split <;> rfl

end Endpoint

/-! ## The functions -/

namespace Inv

variable {ep : Endpoint ι} {id : ℕ} {req old : Req ι}

/-- A request that is not queued as unexpected completes: what is done or a zombie already
stays so. -/
theorem notifyRequestDone (h : Inv z ep) (hctxids : z.hasCtxids = true)
    (hold : ep.req id = some old) (hid : id ∉ ep.anyctxid.unexpReqQ)
    (hdone : req.state.done = old.state.done) (hzombie : req.state.zombie = old.state.zombie)
    (hcancel : ¬ req.Cancellable)
    (hmatch : id ∈ ep.anyctxid.doneReqQ → req.matchInfo = old.matchInfo) :
    Inv z (ep.notifyRequestDone z id req) := by
  have hset : ∀ new : Req ι, (id ∈ ep.anyctxid.doneReqQ → new.Done) →
      new.matchInfo = req.matchInfo → Inv z (ep.set id new) := fun new hnew hsame =>
    h.set hold (fun hmem => absurd hmem hid) hnew fun hmem =>
      hsame.trans (hmatch (hmem.resolve_left hid))
  have hlisted : id ∈ ep.anyctxid.doneReqQ → req.state.zombie = false := fun hmem =>
    hzombie.trans (h.done_of_mem hold hmem).zombie
  rw [Endpoint.notifyRequestDone]
  split
  · exact hset _ (fun hmem => ⟨rfl, hlisted hmem, hcancel⟩) rfl
  · split
    · rename_i hz
      exact (h.free hid fun hmem => nomatch hz.symm.trans (hlisted hmem)).zombies _
    · rename_i hz
      split
      · rename_i hd
        exact hset req (fun hmem => ⟨hd, hlisted hmem, hcancel⟩) rfl
      · rename_i hd
        have hnot : id ∉ ep.anyctxid.doneReqQ := fun hmem =>
          hd (hdone.trans (h.done_of_mem hold hmem).done)
        have hnew := hset { req with state := { req.state with done := true } }
          (fun hmem => absurd hmem hnot) rfl
        have hstate : Req.Done { req with state := { req.state with done := true } } :=
          ⟨rfl, Bool.eq_false_iff.2 hz, hcancel⟩
        exact hnew.enqueueDone hctxids (set_req_self _ _ _) rfl hstate hnot

theorem notifyRequestDoneEarly (h : Inv z ep) (hctxids : z.hasCtxids = true)
    (hreq : ep.req id = some req) (hunexp : req.state.unexpectedRecv = false)
    (hdone : req.state.done = false) (hcancel : ¬ req.Cancellable) :
    Inv z (ep.notifyRequestDoneEarly z id req) := by
  have hnot : id ∉ ep.anyctxid.doneReqQ := fun hmem =>
    by cases hdone.symm.trans (h.done_of_mem hreq hmem).done
  have hid : id ∉ ep.anyctxid.unexpReqQ := fun hmem =>
    by cases hunexp.symm.trans (h.unexp_of_mem hreq hmem).unexpectedRecv
  have hset : ∀ new : Req ι, Inv z (ep.set id new) := fun new =>
    h.set hreq (fun hmem => absurd hmem hid) (fun hmem => absurd hmem hnot) fun hmem =>
      hmem.elim (absurd · hid) (absurd · hnot)
  rw [Endpoint.notifyRequestDoneEarly]
  split
  · exact hset req
  · dsimp only
    split
    · exact hset _
    · rename_i hz
      have hstate : Req.Done { req with state := { req.state with done := true } } :=
        ⟨rfl, Bool.eq_false_iff.2 hz, hcancel⟩
      exact (hset _).enqueueDone hctxids (set_req_self _ _ _) rfl hstate hnot

/-- A request that leaves the done queues, if it is in them, becomes a zombie. -/
theorem zombify (h : Inv z ep) (hreq : ep.req id = some req) (hid : id ∉ ep.anyctxid.unexpReqQ)
    (hnot : id ∉ ep.anyctxid.doneReqQ) (new : Req ι) (n : ℕ) :
    Inv z { ep.set id new with zombies := n } :=
  (h.set hreq (fun hmem => absurd hmem hid) (fun hmem => absurd hmem hnot) fun hmem =>
    hmem.elim (absurd · hid) (absurd · hnot)).zombies n

theorem testSuccess (h : Inv z ep) (hctxids : z.hasCtxids = true) (hreq : ep.req id = some req)
    (hdone : req.state.done = true) : Inv z (ep.testSuccess z id req) := by
  have hid : id ∉ ep.anyctxid.unexpReqQ := fun hmem =>
    nomatch hdone.symm.trans (h.unexp_of_mem hreq hmem).done
  have hinv := h.dequeueDone hctxids hid
  have hid' : id ∉ (ep.dequeueDone z id).anyctxid.unexpReqQ := by
    rw [dequeueDone_unexpReqQ]
    exact hid
  have hnot : id ∉ (ep.dequeueDone z id).anyctxid.doneReqQ := by
    rw [dequeueDone_doneReqQ]
    exact h.doneNodup.not_mem_erase
  have hreq' : (ep.dequeueDone z id).req id = some req := by
    rw [dequeueDone_req]
    exact hreq
  rw [Endpoint.testSuccess]
  dsimp only
  split
  · exact hinv.free hid' hnot
  · exact hinv.zombify hreq' hid' hnot _ _

theorem forget (h : Inv z ep) (hctxids : z.hasCtxids = true) (hreq : ep.req id = some req)
    (hunexp : req.state.unexpectedRecv = true → req.state.done = true) :
    Inv z (ep.forget z id req) := by
  have hid : id ∉ ep.anyctxid.unexpReqQ := fun hmem => by
    have hmem' := h.unexp_of_mem hreq hmem
    exact nomatch (hunexp hmem'.unexpectedRecv).symm.trans hmem'.done
  have hinv := h.dequeueDone hctxids hid
  have hid' : id ∉ (ep.dequeueDone z id).anyctxid.unexpReqQ := by
    rw [dequeueDone_unexpReqQ]
    exact hid
  have hnot : id ∉ (ep.dequeueDone z id).anyctxid.doneReqQ := by
    rw [dequeueDone_doneReqQ]
    exact h.doneNodup.not_mem_erase
  have hreq' : (ep.dequeueDone z id).req id = some req := by
    rw [dequeueDone_req]
    exact hreq
  rw [Endpoint.forget]
  split
  · exact hinv.free hid' hnot
  · dsimp only
    split
    · exact hinv.zombify hreq' hid' hnot _ _
    · rename_i hd
      exact h.zombify hreq hid (fun hmem => hd (h.done_of_mem hreq hmem).done) _ _

theorem cancel (h : Inv z ep) (hreq : ep.req id = some req) : Inv z (ep.cancel id req) := by
  rw [Endpoint.cancel]
  split
  · rename_i hcancel
    exact h.free (fun hmem => (h.unexp_of_mem hreq hmem).cancellable hcancel) fun hmem =>
      (h.done_of_mem hreq hmem).cancellable hcancel
  · exact h

theorem cancelNotest (h : Inv z ep) (hctxids : z.hasCtxids = true) (hreq : ep.req id = some req) :
    Inv z (ep.cancelNotest z id req) := by
  rw [Endpoint.cancelNotest]
  split
  · rename_i hcancel
    refine h.notifyRequestDone hctxids hreq
      (fun hmem => (h.unexp_of_mem hreq hmem).cancellable hcancel) rfl rfl ?_ fun _ => rfl
    rintro (⟨-, hbit⟩ | ⟨-, hbit⟩) <;> exact nomatch hbit
  · exact h

/-! ### Receives -/

/-- A new message that nobody wants. -/
theorem processRecv_unexp (h : Inv z ep) (hctxids : z.hasCtxids = true)
    (hreq : ep.req id = some req) (hunexp : req.Unexp) (hid : id ∉ ep.anyctxid.unexpReqQ)
    (msg : Msg) : Inv z (ep.processRecv z id req msg) := by
  have hnot : id ∉ ep.anyctxid.doneReqQ := fun hmem =>
    by cases hunexp.done.symm.trans (h.done_of_mem hreq hmem).done
  have hqueued := h.enqueueUnexp hctxids hreq rfl hunexp hid
  have hset : ∀ new : Req ι, new.Unexp → new.matchInfo = req.matchInfo →
      Inv z ((ep.enqueueUnexp z id req.matchInfo).set id new) := fun new hnew hsame =>
    hqueued.set hreq (fun _ => hnew) (fun hmem => absurd hmem hnot) fun _ => hsame
  unfold Endpoint.processRecv
  cases msg with
  | whole =>
      dsimp only
      rw [if_pos hunexp.unexpectedRecv, if_pos hunexp.unexpectedRecv]
      exact hset req hunexp rfl
  | mediumFrag last =>
      dsimp only
      rw [if_pos hunexp.unexpectedRecv, Endpoint.processRecvMediumFrag]
      dsimp only
      rw [if_pos hunexp.unexpectedRecv]
      split
      · exact hset _ ⟨hunexp.unexpectedRecv, hunexp.done, hunexp.zombie, hunexp.cancellable⟩ rfl
      · exact hset _ ⟨hunexp.unexpectedRecv, hunexp.done, hunexp.zombie, hunexp.cancellable⟩ rfl
  | rndv =>
      dsimp only
      rw [if_pos hunexp.unexpectedRecv]
      refine hset _ ⟨hunexp.unexpectedRecv, hunexp.done, hunexp.zombie, ?_⟩ rfl
      rintro (⟨htype, -⟩ | ⟨htype, -⟩) <;> cases htype

theorem recvUnexp (h : Inv z ep) (hctxids : z.hasCtxids = true) {type : ReqType}
    (htype : type = .recv ∨ type = .recvSelfUnexpected) (partner : ι) (matchInfo : BitVec 64)
    (msg : Msg) : Inv z (ep.recvUnexp z type partner matchInfo msg) := by
  rw [Endpoint.recvUnexp]
  refine (h.alloc _).processRecv_unexp hctxids (Function.update_self _ _ _)
    ⟨rfl, rfl, rfl, ?_⟩ (fun hmem => ?_) msg
  · rintro (⟨-, hbit⟩ | ⟨htype', -⟩)
    · exact nomatch hbit
    · rcases htype with rfl | rfl <;> exact nomatch htype'
  · obtain ⟨req', hreq', -⟩ := h.unexp _ hmem
    exact absurd (h.lt_of_req hreq') (Nat.lt_irrefl _)

/-- A message for a receive that waits. -/
theorem recvMatched (h : Inv z ep) (hctxids : z.hasCtxids = true) (hreq : ep.req id = some req)
    (hrecv : req.InRecvQ) (partner : ι) (matchInfo : BitVec 64) (msg : Msg) :
    Inv z (ep.recvMatched z id req partner matchInfo msg) := by
  obtain ⟨htype, hmatching, hexpected⟩ := hrecv
  have hcancel : req.Cancellable := .inl ⟨htype, hmatching⟩
  have hid : id ∉ ep.anyctxid.unexpReqQ := fun hmem =>
    (h.unexp_of_mem hreq hmem).cancellable hcancel
  have hnot : id ∉ ep.anyctxid.doneReqQ := fun hmem =>
    (h.done_of_mem hreq hmem).cancellable hcancel
  have hset : ∀ new : Req ι, Inv z (ep.set id new) := fun new =>
    h.set hreq (fun hmem => absurd hmem hid) (fun hmem => absurd hmem hnot) fun hmem =>
      hmem.elim (absurd · hid) (absurd · hnot)
  have hnotify : ∀ new : Req ι, new.type = .recv → new.state.recvNeedMatching = false →
      new.state.done = req.state.done → new.state.zombie = req.state.zombie →
        Inv z (ep.notifyRequestDone z id new) := by
    intro new htype' hmatched hdone hzombie
    refine h.notifyRequestDone hctxids hreq hid hdone hzombie ?_ fun hmem => absurd hmem hnot
    rintro (⟨-, hbit⟩ | ⟨hconnect, -⟩)
    · cases hmatched.symm.trans hbit
    · cases htype'.symm.trans hconnect
  have hunexp : ¬ req.state.unexpectedRecv = true := by
    rw [Bool.not_eq_true]
    exact Bool.not_eq_true' _ ▸ hexpected
  unfold Endpoint.recvMatched Endpoint.processRecv
  cases msg with
  | whole =>
      dsimp only
      rw [if_neg hunexp, if_neg hunexp]
      exact hnotify _ htype rfl rfl rfl
  | mediumFrag last =>
      dsimp only
      rw [if_neg hunexp, Endpoint.processRecvMediumFrag]
      dsimp only
      rw [if_neg hunexp]
      split
      · exact hnotify _ htype rfl rfl rfl
      · exact hset _
  | rndv =>
      dsimp only
      rw [if_neg hunexp]
      exact hset _

/-- The last fragment of a medium. -/
theorem lastFrag (h : Inv z ep) (hctxids : z.hasCtxids = true) (hreq : ep.req id = some req)
    (hpart : req.InPartialQ) : Inv z (ep.processRecvMediumFrag z id req true) := by
  obtain ⟨htype, -, hmatched, hdone⟩ := hpart
  have hnot : id ∉ ep.anyctxid.doneReqQ := fun hmem => by
    have hd := (h.done_of_mem hreq hmem).done
    rw [hd] at hdone
    exact nomatch hdone
  have hcancel : ∀ new : Req ι, new.type = .recv →
      new.state.recvNeedMatching = req.state.recvNeedMatching → ¬ new.Cancellable := by
    rintro new htype' hsame (⟨-, hbit⟩ | ⟨hconnect, -⟩)
    · rw [hsame] at hbit
      rw [hbit] at hmatched
      exact nomatch hmatched
    · exact nomatch htype'.symm.trans hconnect
  rw [Endpoint.processRecvMediumFrag, if_pos rfl]
  dsimp only
  split
  · refine h.set hreq (fun hmem => ?_) (fun hmem => absurd hmem hnot) fun _ => rfl
    have hunexp := h.unexp_of_mem hreq hmem
    exact ⟨hunexp.unexpectedRecv, hunexp.done, hunexp.zombie, hcancel _ htype rfl⟩
  · rename_i hexpected
    exact h.notifyRequestDone hctxids hreq
      (fun hmem => hexpected (h.unexp_of_mem hreq hmem).unexpectedRecv) rfl rfl
      (hcancel _ htype rfl) fun _ => rfl

theorem completeUnexpAsIrecv (h : Inv z ep) (hctxids : z.hasCtxids = true)
    (hreq : ep.req id = some req) (hid : id ∈ ep.anyctxid.unexpReqQ) :
    Inv z (ep.completeUnexpAsIrecv z id req) := by
  have hunexp := h.unexp_of_mem hreq hid
  have hnot : id ∉ ep.anyctxid.doneReqQ := fun hmem => h.not_mem_unexp_of_done hmem hid
  have hinv := h.dequeueUnexp hctxids hnot
  have hid' : id ∉ (ep.dequeueUnexp z id).anyctxid.unexpReqQ := by
    rw [dequeueUnexp_unexpReqQ]
    exact h.unexpNodup.not_mem_erase
  have hnot' : id ∉ (ep.dequeueUnexp z id).anyctxid.doneReqQ := by
    rw [dequeueUnexp_doneReqQ]
    exact hnot
  have hreq' : (ep.dequeueUnexp z id).req id = some req := by
    rw [dequeueUnexp_req]
    exact hreq
  have hset : ∀ new : Req ι, Inv z ((ep.dequeueUnexp z id).set id new) := fun new =>
    hinv.set hreq' (fun hmem => absurd hmem hid') (fun hmem => absurd hmem hnot') fun hmem =>
      hmem.elim (absurd · hid') (absurd · hnot')
  rw [Endpoint.completeUnexpAsIrecv]
  dsimp only
  split
  · exact hset _
  · split
    · exact hinv.notifyRequestDone hctxids hreq' hid' rfl rfl hunexp.cancellable fun _ => rfl
    · exact hset _

theorem irecvSegs (h : Inv z ep) (hctxids : z.hasCtxids = true)
    (matchInfo matchMask leftOver : BitVec 64) :
    Inv z (ep.irecvSegs z matchInfo matchMask leftOver) := by
  rw [Endpoint.irecvSegs]
  rw [if_pos hctxids]
  split
  · rename_i id hfind
    have hmem := (h.mirrored.unexp.mem_iff.1 (List.mem_of_find?_eq_some hfind)).1
    split
    · rename_i req hreq
      exact h.completeUnexpAsIrecv hctxids hreq hmem
    · exact h
  · exact h.alloc _

end Inv

/-! ## Every step but a cleanup -/

theorem settle_not_cancellable (req : Req ι) : ¬ req.settle.Cancellable := by
  rintro (⟨-, hbit⟩ | ⟨-, hbit⟩) <;> exact nomatch hbit

namespace Inv

variable {ep : Endpoint ι} {id : ℕ} {req : Req ι}

theorem complete (h : Inv z ep) (hctxids : z.hasCtxids = true) (hreq : ep.req id = some req)
    (hsettled : req.Settled) : Inv z (ep.notifyRequestDone z id req) := by
  refine h.notifyRequestDone hctxids hreq (fun hmem => ?_) rfl rfl
    (hsettled ▸ settle_not_cancellable req) fun _ => rfl
  have hunexp := (h.unexp_of_mem hreq hmem).unexpectedRecv
  rw [← hsettled] at hunexp
  exact nomatch hunexp

theorem not_mem_unexp_of_inOtherQ (h : Inv z ep) (hreq : ep.req id = some req)
    (hother : req.InOtherQ) : id ∉ ep.anyctxid.unexpReqQ := by
  intro hmem
  have hunexp := hother.2.2
  rw [(h.unexp_of_mem hreq hmem).unexpectedRecv] at hunexp
  exact nomatch hunexp

theorem goOn (h : Inv z ep) (hreq : ep.req id = some req) {state : ReqState}
    (hgoes : req.GoesOn state) : Inv z (ep.set id { req with state }) := by
  obtain ⟨hother, hdone, hzombie, -, -, hreply⟩ := hgoes
  have hid := h.not_mem_unexp_of_inOtherQ hreq hother
  refine h.set hreq (fun hmem => absurd hmem hid) (fun hmem => ?_) fun _ => rfl
  have hold := h.done_of_mem hreq hmem
  refine ⟨hdone.trans hold.done, hzombie.trans hold.zombie, ?_⟩
  rintro (⟨htype, -⟩ | ⟨htype, hbit⟩)
  · exact hother.1 htype
  · exact hold.cancellable (.inr ⟨htype, hreply htype hbit⟩)

/-- An action that is about one request. -/
theorem withReq {guard : Req ι → Bool} {f : Req ι → Endpoint ι} {ep' : Endpoint ι}
    (hf : ∀ req, ep.req id = some req → guard req = true → Inv z (f req))
    (hs : ep.withReq id guard f = some ep') : Inv z ep' := by
  obtain ⟨req, hreq, rfl⟩ := Option.map_eq_some_iff.1 hs
  obtain ⟨hreq, hguard⟩ := Option.filter_eq_some_iff.1 hreq
  exact hf req hreq hguard

/-- What a search of the done requests finds is in the anyctxid queue. -/
theorem mem_of_mem_testAnyQueue (h : Inv z ep) {matchInfo matchMask : BitVec 64}
    (hid : id ∈ ep.testAnyQueue z matchInfo matchMask) : id ∈ ep.anyctxid.doneReqQ := by
  rw [testAnyQueue] at hid
  split at hid
  · exact hid
  · exact (h.mirrored.done.mem_iff.1 hid).1

theorem step [DecidableEq ι] {ep' : Endpoint ι} {a : Action ι} (h : Inv z ep)
    (hctxids : z.hasCtxids = true) (ha : ∀ i pending partials, a ≠ .partnerCleanup i pending partials)
    (hs : ep.step z a = some ep') : Inv z ep' := by
  cases a with
  | submit req =>
      obtain ⟨-, hs⟩ := (Option.ite_none_right_eq_some).1 hs
      cases hs
      exact h.alloc req
  | irecv matchInfo matchMask leftOver =>
      cases hs
      exact h.irecvSegs hctxids _ _ _
  | recvUnexp partner matchInfo msg =>
      cases hs
      exact h.recvUnexp hctxids (.inl rfl) _ _ _
  | selfSendUnexp myself matchInfo =>
      cases hs
      exact h.recvUnexp hctxids (.inr rfl) _ _ _
  | recvMatched id partner matchInfo msg =>
      refine withReq (fun req hreq hrecv => ?_) hs
      exact h.recvMatched hctxids hreq (of_decide_eq_true hrecv) _ _ _
  | lastFrag id =>
      refine withReq (fun req hreq hpart => ?_) hs
      exact h.lastFrag hctxids hreq (of_decide_eq_true hpart)
  | goOn id state =>
      refine withReq (fun req hreq hgoes => ?_) hs
      exact h.goOn hreq (of_decide_eq_true hgoes)
  | complete id =>
      refine withReq (fun req hreq hsettled => ?_) hs
      exact h.complete hctxids hreq (of_decide_eq_true hsettled)
  | completeEarly id =>
      refine withReq (fun req hreq hguard => ?_) hs
      simp only [Bool.and_eq_true, decide_eq_true_eq, Bool.not_eq_true', decide_eq_false_iff_not]
        at hguard
      obtain ⟨⟨hother, hcancel⟩, hdone⟩ := hguard
      exact h.notifyRequestDoneEarly hctxids hreq (by simpa using hother.2.2) hdone hcancel
  | test id =>
      refine withReq (fun req hreq hguard => ?_) hs
      simp only [Bool.and_eq_true] at hguard
      exact h.testSuccess hctxids hreq hguard.1.1
  | testAny matchInfo matchMask =>
      unfold Endpoint.step at hs
      dsimp only at hs
      split at hs
      · rename_i id hfind
        obtain ⟨req, hreq, rfl⟩ := Option.map_eq_some_iff.1 hs
        have hmem := h.mem_of_mem_testAnyQueue (List.mem_of_find?_eq_some hfind)
        exact h.testSuccess hctxids hreq (h.done_of_mem hreq hmem).done
      · cases hs
        exact h
  | forget id =>
      refine withReq (fun req hreq hguard => ?_) hs
      refine h.forget hctxids hreq fun hunexp => ?_
      have hboth : req.state.zombie = false ∧ req.state.done = true := by
        simpa [hunexp] using hguard
      exact hboth.2
  | cancel id => exact withReq (fun req hreq _ => h.cancel hreq) hs
  | cancelNotest id => exact withReq (fun req hreq _ => h.cancelNotest hctxids hreq) hs
  | partnerCleanup i pending partials => exact absurd rfl (ha i pending partials)

end Inv

end Xen2mx.Ctxid
