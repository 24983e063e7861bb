/-
# `Xen2mx.Ctxid.Cleanup` — what a partner cleanup leaves in the queues of the contexts

The loops of `omx__partner_cleanup` take the requests of the partner from one queue after the
other.  Two of them find unexpected messages:

    loop                          anyctxid.unexp_req_q      ctxid[c].unexp_req_q
    partially received mediums    removed                   removed
    "Drop unexpected"             removed, freed            still queued

so that after the second the queue of a context has an element of a request that is freed.

**Proved here.**

    the loops before the last keep the queues of the contexts, and take the partial messages  (`dropQueues_spec`)
    the cleanup keeps them  ⟺  the last loop finds nothing                                    (`partnerCleanup_mirrored_iff`)
    in every state of a run  ⟺  so it is at each cleanup of the run                           (`machine_mirrored_iff`)
-/
import Xen2mx.Ctxid.Mirror

namespace Xen2mx.Ctxid

open Matching (CtxidConfig)

variable {ι : Type*} {z : CtxidConfig}

open Endpoint

/-! ## The loops before the last -/

section
variable {ep ep' ep'' : Endpoint ι} {i : ι}

/-- What the loops before the last do to the unexpected messages: some go, those that are left
are as they were, and the others are left. -/
structure Spares (i : ι) (ep ep' : Endpoint ι) : Prop where
  unexp : ∀ id ∈ ep'.anyctxid.unexpReqQ, id ∈ ep.anyctxid.unexpReqQ ∧ ep'.req id = ep.req id
  spared : ∀ id ∈ ep.anyctxid.unexpReqQ, ∀ req ∈ ep.req id,
    ¬ (req.partner = some i ∧ req.InPartialQ) → id ∈ ep'.anyctxid.unexpReqQ

theorem Spares.refl (i : ι) (ep : Endpoint ι) : Spares i ep ep :=
  ⟨fun _ h => ⟨h, rfl⟩, fun _ h _ _ _ => h⟩

theorem Spares.trans (h : Spares i ep ep') (h' : Spares i ep' ep'') : Spares i ep ep'' where
  unexp := by
    intro id hid
    obtain ⟨hid', hreq'⟩ := h'.unexp id hid
    obtain ⟨hid'', hreq''⟩ := h.unexp id hid'
    exact ⟨hid'', hreq'.trans hreq''⟩
  spared := by
    intro id hid req hreq hother
    have hid' := h.spared id hid req hreq hother
    exact h'.spared id hid' req ((h.unexp id hid').2.symm ▸ hreq) hother

theorem notifyRequestDone_unexpReqQ (id : ℕ) (req : Req ι) :
    (ep.notifyRequestDone z id req).anyctxid.unexpReqQ = ep.anyctxid.unexpReqQ := by
  rw [Endpoint.notifyRequestDone]
  split
  · rfl
  · split
    · rfl
    · split <;> rfl

theorem notifyRequestDone_req_of_ne {id id' : ℕ} (req : Req ι) (h : id' ≠ id) :
    (ep.notifyRequestDone z id req).req id' = ep.req id' := by
  rw [Endpoint.notifyRequestDone]
  split
  · exact set_req_of_ne _ _ h
  · split
    · exact Function.update_of_ne h _ _
    · split <;> exact set_req_of_ne _ _ h

/-- A request that is not queued as unexpected completes. -/
theorem Spares.notifyRequestDone {id : ℕ} (req : Req ι) (hid : id ∉ ep.anyctxid.unexpReqQ) :
    Spares i ep (ep.notifyRequestDone z id req) where
  unexp := by
    intro id' hid'
    rw [notifyRequestDone_unexpReqQ] at hid'
    exact ⟨hid', notifyRequestDone_req_of_ne req fun heq => hid (heq ▸ hid')⟩
  spared := by
    intro id' hid' _ _ _
    rw [notifyRequestDone_unexpReqQ]
    exact hid'

/-- The element of a partial message leaves both unexpected queues. -/
theorem dequeueUnexp_spares (h : Inv z ep) {id : ℕ} {req : Req ι} (hreq : ep.req id = some req)
    (hdrop : req.partner = some i ∧ req.InPartialQ) : Spares i ep (ep.dequeueUnexp z id) where
  unexp := by
    intro id' hid'
    rw [dequeueUnexp_unexpReqQ] at hid'
    rw [dequeueUnexp_req]
    exact ⟨List.mem_of_mem_erase hid', rfl⟩
  spared := by
    intro id' hid' req' hreq' hother
    rw [dequeueUnexp_unexpReqQ]
    refine (h.unexpNodup.mem_erase_iff).2 ⟨fun heq => ?_, hid'⟩
    subst heq
    cases hreq.symm.trans hreq'
    exact hother hdrop

variable [DecidableEq ι]

theorem dropPending_spec (h : Inv z ep) (hctxids : z.hasCtxids = true) (id : ℕ) :
    Inv z (ep.dropPending z i id) ∧ Spares i ep (ep.dropPending z i id) := by
  rw [Endpoint.dropPending]
  split
  · rename_i req hreq
    split
    · rename_i hdrop
      have hid := h.not_mem_unexp_of_inOtherQ hreq hdrop.2
      exact ⟨h.notifyRequestDone hctxids hreq hid rfl rfl (settle_not_cancellable req) fun _ => rfl,
        Spares.notifyRequestDone _ hid⟩
    · exact ⟨h, Spares.refl i ep⟩
  · exact ⟨h, Spares.refl i ep⟩

theorem dropPartial_spec (h : Inv z ep) (hctxids : z.hasCtxids = true) (id : ℕ) :
    Inv z (ep.dropPartial z i id) ∧ Spares i ep (ep.dropPartial z i id) ∧
      (id ∈ (ep.dropPartial z i id).anyctxid.unexpReqQ → ∀ req ∈ ep.req id,
        ¬ (req.partner = some i ∧ req.InPartialQ)) := by
  unfold Endpoint.dropPartial
  split
  · rename_i req hreq
    split
    · rename_i hdrop
      obtain ⟨htype, -, hmatched, hdone⟩ := hdrop.2
      have hcancel : ¬ Req.Cancellable
          { req with state := { req.state with recvPartial := false } } := by
        rintro (⟨-, hbit⟩ | ⟨hconnect, -⟩)
        · rw [show req.state.recvNeedMatching = true from hbit] at hmatched
          exact nomatch hmatched
        · exact nomatch htype.symm.trans hconnect
      have hnot : id ∉ ep.anyctxid.doneReqQ := by
        intro hmem
        rw [(h.done_of_mem hreq hmem).done] at hdone
        exact nomatch hdone
      -- the endpoint that the request is completed in
      obtain ⟨ep₁, hep₁, hinv₁, hspares₁, hreq₁, hid₁⟩ : ∃ ep₁,
          (if req.state.unexpectedRecv then ep.dequeueUnexp z id else ep) = ep₁ ∧ Inv z ep₁ ∧
            Spares i ep ep₁ ∧ ep₁.req id = some req ∧ id ∉ ep₁.anyctxid.unexpReqQ := by
        refine ⟨_, rfl, ?_⟩
        split
        · refine ⟨h.dequeueUnexp hctxids hnot, dequeueUnexp_spares h hreq hdrop, ?_, ?_⟩
          · rw [dequeueUnexp_req]
            exact hreq
          · rw [dequeueUnexp_unexpReqQ]
            exact h.unexpNodup.not_mem_erase
        · rename_i hexpected
          exact ⟨h, Spares.refl i ep, hreq,
            fun hmem => hexpected (h.unexp_of_mem hreq hmem).unexpectedRecv⟩
      dsimp only
      rw [hep₁]
      refine ⟨hinv₁.notifyRequestDone hctxids hreq₁ hid₁ rfl rfl hcancel fun _ => rfl,
        hspares₁.trans (Spares.notifyRequestDone _ hid₁), fun hmem => ?_⟩
      rw [notifyRequestDone_unexpReqQ] at hmem
      exact absurd hmem hid₁
    · rename_i hother
      refine ⟨h, Spares.refl i ep, fun _ req' hreq' hdrop => ?_⟩
      cases hreq.symm.trans hreq'
      exact hother hdrop
  · rename_i hnone
    exact ⟨h, Spares.refl i ep, fun _ req' hreq' => nomatch hnone.symm.trans hreq'⟩

theorem dropPendings_spec (hctxids : z.hasCtxids = true) (pending : List ℕ) (h : Inv z ep) :
    Inv z (pending.foldl (dropPending z i) ep) ∧
      Spares i ep (pending.foldl (dropPending z i) ep) := by
  induction pending generalizing ep with
  | nil => exact ⟨h, Spares.refl i ep⟩
  | cons id pending ih =>
      obtain ⟨hinv, hspares⟩ := dropPending_spec (i := i) h hctxids id
      obtain ⟨hinv', hspares'⟩ := ih hinv
      exact ⟨hinv', hspares.trans hspares'⟩

theorem dropPartials_spec (hctxids : z.hasCtxids = true) (partials : List ℕ) (h : Inv z ep) :
    Inv z (partials.foldl (dropPartial z i) ep) ∧
      Spares i ep (partials.foldl (dropPartial z i) ep) ∧
        ∀ id ∈ partials, id ∈ (partials.foldl (dropPartial z i) ep).anyctxid.unexpReqQ →
          ∀ req ∈ ep.req id, ¬ (req.partner = some i ∧ req.InPartialQ) := by
  induction partials generalizing ep with
  | nil => exact ⟨h, Spares.refl i ep, fun _ hid => nomatch hid⟩
  | cons id partials ih =>
      obtain ⟨hinv, hspares, htaken⟩ := dropPartial_spec (i := i) h hctxids id
      obtain ⟨hinv', hspares', htaken'⟩ := ih hinv
      refine ⟨hinv', hspares.trans hspares', fun id' hid' hmem req hreq => ?_⟩
      obtain ⟨hmem', -⟩ := hspares'.unexp id' hmem
      rcases List.mem_cons.1 hid' with rfl | hid'
      · exact htaken hmem' req hreq
      · exact htaken' id' hid' hmem req ((hspares.unexp id' hmem').2.symm ▸ hreq)

/-- The loops before the last. -/
theorem dropQueues_spec (hctxids : z.hasCtxids = true) (h : Inv z ep) (pending : List ℕ)
    {partials : List ℕ} (hpartials : ep.Partials i partials) :
    Inv z (ep.dropQueues z i pending partials) ∧
      Spares i ep (ep.dropQueues z i pending partials) ∧
        ∀ id ∈ (ep.dropQueues z i pending partials).anyctxid.unexpReqQ, ∀ req ∈ ep.req id,
          ¬ (req.partner = some i ∧ req.InPartialQ) := by
  obtain ⟨hinv, hspares⟩ := dropPendings_spec (i := i) hctxids pending h
  obtain ⟨hinv', hspares', htaken⟩ := dropPartials_spec (i := i) hctxids partials hinv
  refine ⟨hinv', hspares.trans hspares', fun id hid req hreq hdrop => ?_⟩
  have hlisted := hpartials id (h.lt_of_req hreq) req hreq hdrop.1 hdrop.2
  obtain ⟨hmem, -⟩ := hspares'.unexp id hid
  exact htaken id hlisted hid req ((hspares.unexp id hmem).2.symm ▸ hreq) hdrop

/-! ## The last loop -/

variable (i ep) in
theorem dropUnexp_unexpReqQ (id : ℕ) :
    (dropUnexp i ep id).anyctxid.unexpReqQ = ep.anyctxid.unexpReqQ ∨
      (dropUnexp i ep id).anyctxid.unexpReqQ = ep.anyctxid.unexpReqQ.erase id := by
  rw [dropUnexp]
  split
  · split
    · exact .inr rfl
    · exact .inl rfl
  · exact .inl rfl

theorem dropUnexp_ctxid (id : ℕ) : (dropUnexp i ep id).ctxid = ep.ctxid := by
  rw [dropUnexp]
  split
  · split <;> rfl
  · rfl

theorem dropUnexp_req_of_ne {id id' : ℕ} (h : id' ≠ id) :
    (dropUnexp i ep id).req id' = ep.req id' := by
  rw [dropUnexp]
  split
  · split
    · exact Function.update_of_ne h _ _
    · rfl
  · rfl

theorem dropUnexps_ctxid (ids : List ℕ) : (ids.foldl (dropUnexp i) ep).ctxid = ep.ctxid := by
  induction ids generalizing ep with
  | nil => rfl
  | cons id ids ih => rw [List.foldl_cons, ih, dropUnexp_ctxid]

theorem dropUnexps_subset (ids : List ℕ) :
    (ids.foldl (dropUnexp i) ep).anyctxid.unexpReqQ ⊆ ep.anyctxid.unexpReqQ := by
  induction ids generalizing ep with
  | nil => exact List.Subset.refl _
  | cons id ids ih =>
      refine List.Subset.trans ih ?_
      rcases dropUnexp_unexpReqQ ep i id with heq | heq
      · rw [heq]
        exact List.Subset.refl _
      · rw [heq]
        exact List.erase_subset

/-- Without a message of the partner the loop does nothing. -/
theorem dropUnexps_eq_self (ids : List ℕ)
    (h : ∀ id ∈ ids, ∀ req ∈ ep.req id, req.partner ≠ some i) :
    ids.foldl (dropUnexp i) ep = ep := by
  induction ids with
  | nil => rfl
  | cons id ids ih =>
      have hself : dropUnexp i ep id = ep := by
        rw [dropUnexp]
        split
        · rename_i req hreq
          exact if_neg (h id (List.mem_cons_self ..) req hreq)
        · rfl
      rw [List.foldl_cons, hself]
      exact ih fun id' hid' => h id' (List.mem_cons_of_mem _ hid')

/-- A message of the partner is dropped. -/
theorem not_mem_dropUnexps (ids : List ℕ) (hids : ids.Nodup) (hnodup : ep.anyctxid.unexpReqQ.Nodup)
    {id : ℕ} (hid : id ∈ ids) {req : Req ι} (hreq : ep.req id = some req)
    (hpartner : req.partner = some i) :
    id ∉ (ids.foldl (dropUnexp i) ep).anyctxid.unexpReqQ := by
  induction ids generalizing ep with
  | nil => exact nomatch hid
  | cons id' ids ih =>
      obtain ⟨hnot, hids'⟩ := List.nodup_cons.1 hids
      rcases List.mem_cons.1 hid with rfl | hid
      · have hdrop : dropUnexp i ep id = (ep.dequeueRequest id).free id := by
          rw [dropUnexp, hreq]
          exact if_pos hpartner
        rw [List.foldl_cons, hdrop]
        exact fun hmem => hnodup.not_mem_erase (dropUnexps_subset ids hmem)
      · have hne : id ≠ id' := fun heq => hnot (heq ▸ hid)
        have hnodup' : (dropUnexp i ep id').anyctxid.unexpReqQ.Nodup := by
          rcases dropUnexp_unexpReqQ ep i id' with heq | heq
          · rw [heq]
            exact hnodup
          · rw [heq]
            exact hnodup.erase id'
        exact ih hids' hnodup' hid ((dropUnexp_req_of_ne hne).trans hreq)

/-- The messages of the partner that are queued as unexpected are all partial mediums. -/
def OnlyPartials (i : ι) (ep : Endpoint ι) : Prop :=
  ∀ id ∈ ep.anyctxid.unexpReqQ, ∀ req ∈ ep.req id, req.partner = some i → req.InPartialQ

instance (i : ι) (ep : Endpoint ι) : Decidable (OnlyPartials i ep) :=
  have : ∀ id, Decidable (∀ req ∈ ep.req id, req.partner = some i → req.InPartialQ) :=
    fun id => inferInstanceAs (Decidable (∀ req ∈ ep.req id, _))
  inferInstanceAs (Decidable (∀ id ∈ ep.anyctxid.unexpReqQ, _))

/-- A cleanup that finds only partial messages of the partner ends with the loops before the
last. -/
theorem partnerCleanup_eq (hctxids : z.hasCtxids = true) (h : Inv z ep) (pending : List ℕ)
    {partials : List ℕ} (hpartials : ep.Partials i partials) (honly : OnlyPartials i ep) :
    ep.partnerCleanup z i pending partials = ep.dropQueues z i pending partials := by
  obtain ⟨-, hspares, htaken⟩ := dropQueues_spec hctxids h pending hpartials
  refine dropUnexps_eq_self _ fun id hid req hreq hpartner => ?_
  obtain ⟨hmem, hsame⟩ := hspares.unexp id hid
  rw [hsame] at hreq
  exact htaken id hid req hreq ⟨hpartner, honly id hmem req hreq hpartner⟩

/-- A cleanup keeps the queues of the contexts exactly when it finds no unexpected message of
the partner but partial mediums. -/
theorem partnerCleanup_mirrored_iff (hctxids : z.hasCtxids = true) (h : Inv z ep)
    (pending : List ℕ) {partials : List ℕ} (hpartials : ep.Partials i partials) :
    (ep.partnerCleanup z i pending partials).Mirrored z ↔ OnlyPartials i ep := by
  obtain ⟨hinv, hspares, -⟩ := dropQueues_spec hctxids h pending hpartials
  constructor
  · intro hmirrored id hid req hreq hpartner
    by_contra hpartial
    have hleft := hspares.spared id hid req hreq fun hdrop => hpartial hdrop.2
    have hreq' : (ep.dropQueues z i pending partials).req id = some req :=
      (hspares.unexp id hleft).2.trans hreq
    have hpart : id ∈ ((ep.partnerCleanup z i pending partials).ctxid
        (z.ctxidFromMatching req.matchInfo)).unexpReqQ := by
      rw [partnerCleanup, dropUnexps_ctxid]
      refine hinv.mirrored.unexp.mem_iff.2 ⟨hleft, ?_⟩
      rw [ctxidOf, hreq', Option.map_some]
    exact not_mem_dropUnexps _ hinv.unexpNodup hinv.unexpNodup hleft hreq' hpartner
      (hmirrored.unexp.mem_iff.1 hpart).1
  · intro honly
    rw [partnerCleanup_eq hctxids h pending hpartials honly]
    exact hinv.mirrored

/-! ## Runs -/

/-- A partner is only cleaned up while no message of it is queued as unexpected, but partial
mediums. -/
def Clean (ep : Endpoint ι) : Action ι → Prop
  | .partnerCleanup i _ partials => ep.Partials i partials → OnlyPartials i ep
  | _ => True

instance (ep : Endpoint ι) : ∀ a, Decidable (Clean ep a)
  | .partnerCleanup _ _ _ => inferInstanceAs (Decidable (_ → _))
  | .submit _ | .irecv _ _ _ | .recvUnexp _ _ _ | .selfSendUnexp _ _ | .recvMatched _ _ _ _
  | .lastFrag _ | .goOn _ _ | .complete _ | .completeEarly _ | .test _ | .testAny _ _
  | .forget _ | .cancel _ | .cancelNotest _ => .isTrue trivial

theorem Inv.step_of_clean {a : Action ι} (h : Inv z ep) (hctxids : z.hasCtxids = true)
    (hclean : Clean ep a) (hs : ep.step z a = some ep') : Inv z ep' := by
  by_cases ha : ∃ i pending partials, a = .partnerCleanup i pending partials
  · obtain ⟨i, pending, partials, rfl⟩ := ha
    obtain ⟨hpartials, hs⟩ := (Option.ite_none_right_eq_some).1 hs
    cases hs
    rw [partnerCleanup_eq hctxids h pending hpartials (hclean hpartials)]
    exact (dropQueues_spec hctxids h pending hpartials).1
  · exact h.step hctxids (fun i pending partials heq => ha ⟨i, pending, partials, heq⟩) hs

theorem clean_iff (h : Inv z ep) (hctxids : z.hasCtxids = true) (a : Action ι) :
    Clean ep a ↔ ∀ ep' ∈ ep.step z a, ep'.Mirrored z := by
  refine ⟨fun hclean ep' hs => (h.step_of_clean hctxids hclean hs).mirrored, fun hall => ?_⟩
  cases a with
  | partnerCleanup i pending partials =>
      intro hpartials
      have hmirrored := hall (ep.partnerCleanup z i pending partials) (if_pos hpartials)
      exact (partnerCleanup_mirrored_iff hctxids h pending hpartials).1 hmirrored
  | _ => trivial

/-- On an endpoint with several context ids the queues of the contexts are those of the endpoint
in every state of a run, exactly when each partner that the run cleans up has no unexpected
message then but partial mediums. -/
theorem machine_mirrored_iff (hctxids : z.hasCtxids = true) (zombieMax : ℕ)
    (as : List (Action ι)) :
    (∀ bs, bs <+: as → ∀ ep, (machine z zombieMax).exec (machine z zombieMax).init bs = some ep →
        ep.Mirrored z) ↔
      (machine z zombieMax).Meets Clean (machine z zombieMax).init as := by
  have hinv : ∀ (ep : Endpoint ι) a ep', Inv z ep → Clean ep a →
      (machine z zombieMax).step ep a = some ep' → Inv z ep' :=
    fun _ _ _ h hclean hs => h.step_of_clean hctxids hclean hs
  have hstep : ∀ (ep : Endpoint ι) a, Inv z ep →
      (Clean ep a ↔ ∀ ep' ∈ (machine z zombieMax).step ep a, ep'.Mirrored z) :=
    fun _ a h => clean_iff h hctxids a
  exact (Machine.meets_iff_forall_prefix hinv (fun _ h => h.mirrored) hstep
    (Inv.init zombieMax)).symm

end

/-- Four contexts, in the two lowest bits. -/
def twoBits : CtxidConfig := ⟨2, 0, Nat.le_add_left 2 14, Nat.le_add_left 2 62⟩

/-- Two tiny messages, a receive for the second, and a cleanup after the first is taken too. -/
def takenCalls : List (Action Bool) :=
  [.recvUnexp false 1 .whole, .recvUnexp false 2 .whole, .irecv 2 3 0, .test 1, .irecv 1 3 0,
    .partnerCleanup false [] []]

theorem machine_mirrored_six :
    (machine twoBits 8).Meets Clean (machine twoBits 8).init takenCalls ∧
      ∀ bs, bs <+: takenCalls → ∀ ep,
        (machine twoBits 8).exec (machine twoBits 8).init bs = some ep → ep.Mirrored twoBits :=
  ⟨by decide, (machine_mirrored_iff (by decide) 8 takenCalls).2 (by decide)⟩

/-- An unexpected message is dropped with its partner: its context still has it. -/
theorem machine_not_mirrored :
    ¬ ∀ (as : List (Action Bool)) (ep : Endpoint Bool),
      (machine twoBits 8).exec (machine twoBits 8).init as = some ep → ep.Mirrored twoBits := by
  intro h
  have hrun : ∃ ep, (machine twoBits 8).exec (machine twoBits 8).init
      [.recvUnexp false 1 .whole, .partnerCleanup false [] []] = some ep ∧
        (ep.anyctxid.unexpReqQ, (ep.ctxid 1).unexpReqQ) = ([], [0]) := ⟨_, rfl, by decide⟩
  obtain ⟨ep, hep, hqueues⟩ := hrun
  obtain ⟨hall, hpart⟩ := Prod.mk.inj hqueues
  have hmem : 0 ∈ (ep.ctxid 1).unexpReqQ := hpart ▸ List.mem_cons_self ..
  have hmirrored := ((h _ ep hep).unexp.mem_iff.1 hmem).1
  rw [hall] at hmirrored
  exact nomatch hmirrored

end Xen2mx.Ctxid
