/-
# `Xen2mx.Request.Cleanup` — the loops of `omx__partner_cleanup`

Each loop takes the requests of the partner from one list, and completes or frees each.  What a
round makes of its request (`Outcome`) depends on the request only, so a loop does the same to
each, and a sequence of loops does to a request what the first loop that selects it does: after
that it is in none of their lists.

    loop               list                       what is done
    dropNonAcked       non_acked of the partner   markRequestAcked, with an error
    dropNeedReply      large_send_need_reply      sendComplete
    dropNeedResources  need_resources             completeUnsent
    dropNeedSeqnum     need_seqnum                completeUnsent
    dropConnect        connect of the partner     connectComplete
    dropPartial        partial_medium             recvComplete
    dropUnexp          unexp                      free
-/
import Xen2mx.Request.Events

namespace Xen2mx.Request

variable {ι : Type*}

/-! ## Rounds -/

/-- What becomes of a request. -/
structure Outcome (ι : Type*) where
  new : Option (Req ι)
  /-- How often it completes. -/
  completions : ℕ
  /-- The request, if it is freed too early. -/
  dangling : List (Req ι)

namespace Req

/-- What `omx__send_complete` and `omx__recv_complete` make of a request. -/
def completed (hasCtxids : Bool) (req : Req ι) (error : Bool) : Outcome ι :=
  let req' := { req with failed := req.failed || error }
  { new := req'.notified hasCtxids
    completions := 1
    dangling :=
      if req'.state.internal then []
      else if req'.state.zombie then if req'.tied then [req'] else []
      else [] }

/-- What `omx__mark_request_acked` makes of it, for a nack; it was `old`. -/
def nacked (hasCtxids : Bool) (req old : Req ι) : Outcome ι :=
  let req' := { req with state := { req.state with needAck := false } }
  match req.type with
  | .sendTiny | .sendSmall | .sendMediumva | .recvLarge =>
      completed hasCtxids { req' with queueElt := none } true
  | .sendMediumsq =>
      if req.state.driverMediumsqSending then
        { new := some { req' with failed := req.failed || true }, completions := 0, dangling := [] }
      else completed hasCtxids { req' with queueElt := none } true
  | .sendLarge =>
      completed hasCtxids
        { req' with queueElt := none, state := { req'.state with needReply := false } } true
  | _ => { new := some old, completions := 0, dangling := [] }

/-- What `omx__complete_unsent_send_request` makes of it. -/
def unsent (hasCtxids : Bool) (req old : Req ι) : Outcome ι :=
  match req.type with
  | .sendTiny | .sendSmall | .sendMediumsq | .sendMediumva | .sendLarge =>
      completed hasCtxids req true
  | .recvLarge =>
      if req.state.recvPartial then
        completed hasCtxids { req with state := { recvPartial := req.state.recvPartial } } true
      else completed hasCtxids req true
  | _ => { new := some old, completions := 0, dangling := [] }

end Req

/-- `ep'` is `ep` after a round that came to `out` for the request `id`. -/
structure Round (ep ep' : Endpoint ι) (id : ℕ) (out : Outcome ι) : Prop where
  req : ep'.req = Function.update ep.req id out.new
  completions : ep'.completions =
    Function.update ep.completions id (ep.completions id + out.completions)
  dangling : ep'.dangling = out.dangling ++ ep.dangling
  hasCtxids : ep'.hasCtxids = ep.hasCtxids
  next : ep'.next = ep.next
  early : ep'.early = ep.early

namespace Round

variable (ep : Endpoint ι) (id : ℕ) (req : Req ι)

theorem complete (error : Bool) :
    Round ep (ep.complete id req error) id (req.completed ep.hasCtxids error) := by
  unfold Endpoint.complete Endpoint.notifyRequestDone Req.completed Req.notified
  dsimp only
  split_ifs with hinternal hzombie htied hdone
  · exact ⟨rfl, rfl, rfl, rfl, rfl, rfl⟩
  · exact ⟨rfl, rfl, by rw [Endpoint.free, if_pos htied]; rfl, rfl, rfl, rfl⟩
  · exact ⟨rfl, rfl, by rw [Endpoint.free, if_neg htied]; rfl, rfl, rfl, rfl⟩
  · exact ⟨rfl, rfl, rfl, rfl, rfl, rfl⟩
  · exact ⟨rfl, rfl, rfl, rfl, rfl, rfl⟩

/-- A request is written without any other effect. -/
theorem set : Round ep (ep.set id req) id ⟨some req, 0, []⟩ :=
  ⟨rfl, (Function.update_eq_self ..).symm, rfl, rfl, rfl, rfl⟩

variable {ep id} {old : Req ι} (hold : ep.req id = some old)
include hold

/-- A round that does nothing. -/
theorem refl : Round ep ep id ⟨some old, 0, []⟩ :=
  ⟨by rw [← hold, Function.update_eq_self], (Function.update_eq_self ..).symm, rfl, rfl, rfl, rfl⟩

theorem nack : Round ep (ep.markRequestAcked id req true) id (req.nacked ep.hasCtxids old) := by
  obtain ⟨type, partner, state⟩ := req
  cases type with
  | sendTiny | sendSmall | sendMediumva | sendLarge | recvLarge =>
      exact complete ep id _ true
  | sendMediumsq =>
      unfold Endpoint.markRequestAcked Req.nacked
      dsimp only
      split_ifs
      · exact set ..
      · exact complete ..
  | connect | recv | sendSelf | recvSelfUnexpected => exact refl hold

theorem unsent : Round ep (ep.completeUnsent id req) id (req.unsent ep.hasCtxids old) := by
  obtain ⟨type, partner, state⟩ := req
  cases type with
  | sendTiny | sendSmall | sendMediumsq | sendMediumva | sendLarge =>
      exact complete ep id _ true
  | recvLarge =>
      unfold Endpoint.completeUnsent Req.unsent
      dsimp only
      split_ifs
      · exact complete ..
      · exact complete ..
  | connect | recv | sendSelf | recvSelfUnexpected => exact refl hold

omit hold in
theorem free : Round ep (ep.free id req) id ⟨none, 0, if req.tied then [req] else []⟩ := by
  refine ⟨rfl, (Function.update_eq_self ..).symm, ?_, rfl, rfl, rfl⟩
  unfold Endpoint.free
  split_ifs <;> rfl

end Round

/-! ## Loops -/

/-- A loop of the cleanup. -/
structure Loop (ι : Type*) where
  sel : Req ι → Bool
  body : Endpoint ι → ℕ → Req ι → Endpoint ι
  /-- What a round comes to. -/
  out : Bool → Req ι → Outcome ι
  round : ∀ (ep : Endpoint ι) (id : ℕ) (req : Req ι), ep.req id = some req →
    Round ep (body ep id req) id (out ep.hasCtxids req)

namespace Loop

variable (loop : Loop ι) {ep : Endpoint ι}

def run (ep : Endpoint ι) : Endpoint ι := ep.foreach loop.sel loop.body

/-- A round, if the request is there. -/
def turn (ep : Endpoint ι) (id : ℕ) : Endpoint ι := (ep.req id).elim ep (loop.body ep id)

theorem turn_eq {id : ℕ} {req : Req ι} (hreq : ep.req id = some req) :
    loop.turn ep id = loop.body ep id req := by
  rw [turn, hreq, Option.elim_some]

/-- What is known before a loop, and kept by its rounds, is known after it. -/
theorem run_keeps (motive : Endpoint ι → Prop) (h : motive ep)
    (hround : ∀ ep' id req, motive ep' → ep'.req id = some req → loop.sel req = true →
      motive (loop.body ep' id req)) : motive (loop.run ep) := by
  have hfold : ∀ (ids : List ℕ) (ep' : Endpoint ι), ids.Nodup → motive ep' →
      (∀ id ∈ ids, (ep'.req id).any loop.sel = true) → motive (ids.foldl loop.turn ep') := by
    intro ids
    induction ids with
    | nil => exact fun _ _ h _ => h
    | cons id ids ih =>
        intro ep' hnodup h hsel
        obtain ⟨hid, hids⟩ := List.nodup_cons.1 hnodup
        obtain ⟨req, hreq, hsel'⟩ := (Option.any_eq_true _ _).1 (hsel id (List.mem_cons_self ..))
        rw [List.foldl_cons, loop.turn_eq hreq]
        refine ih _ hids (hround ep' id req h hreq hsel') fun id' hmem => ?_
        have hne : id' ≠ id := fun heq => hid (heq ▸ hmem)
        rw [(loop.round ep' id req hreq).req, Function.update_of_ne hne]
        exact hsel id' (List.mem_cons_of_mem _ hmem)
  exact hfold _ ep (List.nodup_range.filter _) h fun id hmem => (List.mem_filter.1 hmem).2

/-- `ep'` is `ep` after the rounds for the requests in `ids`. -/
structure Rounds (ids : List ℕ) (ep ep' : Endpoint ι) : Prop where
  kept : ∀ id, id ∉ ids → ep'.req id = ep.req id ∧ ep'.completions id = ep.completions id
  turned : ∀ id ∈ ids, ∀ req, ep.req id = some req →
    ep'.req id = (loop.out ep.hasCtxids req).new ∧
      ep'.completions id = ep.completions id + (loop.out ep.hasCtxids req).completions
  dangling : ep'.dangling = [] ↔ ep.dangling = [] ∧
    ∀ id ∈ ids, ∀ req, ep.req id = some req → (loop.out ep.hasCtxids req).dangling = []
  hasCtxids : ep'.hasCtxids = ep.hasCtxids
  next : ep'.next = ep.next
  early : ep'.early = ep.early

theorem rounds (ids : List ℕ) (hnodup : ids.Nodup) (ep : Endpoint ι)
    (hids : ∀ id ∈ ids, ep.req id ≠ none) : loop.Rounds ids ep (ids.foldl loop.turn ep) := by
  induction ids generalizing ep with
  | nil => exact ⟨fun _ _ => ⟨rfl, rfl⟩, nofun, by simp, rfl, rfl, rfl⟩
  | cons id ids ih =>
      obtain ⟨hid, hnodup⟩ := List.nodup_cons.1 hnodup
      obtain ⟨req, hreq⟩ := Option.ne_none_iff_exists'.1 (hids id (List.mem_cons_self ..))
      have hround := loop.round ep id req hreq
      have hother : ∀ id', id' ≠ id → (loop.body ep id req).req id' = ep.req id' ∧
          (loop.body ep id req).completions id' = ep.completions id' := by
        intro id' hne
        rw [hround.req, hround.completions, Function.update_of_ne hne, Function.update_of_ne hne]
        exact ⟨rfl, rfl⟩
      have hne : ∀ id' ∈ ids, id' ≠ id := fun id' hmem heq => hid (heq ▸ hmem)
      rw [List.foldl_cons, loop.turn_eq hreq]
      have hrest := ih hnodup (loop.body ep id req) fun id' hmem => by
        rw [(hother id' (hne id' hmem)).1]
        exact hids id' (List.mem_cons_of_mem _ hmem)
      refine ⟨fun id' hnot => ?_, fun id' hmem req' hreq' => ?_, ?_, hrest.hasCtxids.trans hround.hasCtxids,
        hrest.next.trans hround.next, hrest.early.trans hround.early⟩
      · obtain ⟨hne', hnot'⟩ := not_or.1 (mt List.mem_cons.2 hnot)
        obtain ⟨hreq', hcompletions⟩ := hrest.kept id' hnot'
        exact ⟨hreq'.trans (hother id' hne').1, hcompletions.trans (hother id' hne').2⟩
      · rcases List.mem_cons.1 hmem with rfl | hmem'
        · cases hreq.symm.trans hreq'
          obtain ⟨hnew, hcompletions⟩ := hrest.kept id' hid
          rw [hnew, hcompletions, hround.req, hround.completions, Function.update_self,
            Function.update_self]
          exact ⟨rfl, rfl⟩
        · obtain ⟨hsame, hsame'⟩ := hother id' (hne id' hmem')
          rw [← hround.hasCtxids, ← hsame']
          exact hrest.turned id' hmem' req' (hsame.trans hreq')
      · have hdangling := hrest.dangling
        rw [hround.dangling, List.append_eq_nil_iff, hround.hasCtxids] at hdangling
        rw [hdangling]
        constructor
        · rintro ⟨⟨hhead, htail⟩, hall⟩
          refine ⟨htail, fun id' hmem req' hreq' => ?_⟩
          rcases List.mem_cons.1 hmem with rfl | hmem'
          · cases hreq.symm.trans hreq'
            exact hhead
          · exact hall id' hmem' req' ((hother id' (hne id' hmem')).1.trans hreq')
        · rintro ⟨htail, hall⟩
          refine ⟨⟨hall id (List.mem_cons_self ..) req hreq, htail⟩, fun id' hmem req' hreq' => ?_⟩
          exact hall id' (List.mem_cons_of_mem _ hmem) req'
            ((hother id' (hne id' hmem)).1.symm.trans hreq')

/-- `ep'` is `ep` after the loop. -/
structure Ran (ep ep' : Endpoint ι) : Prop where
  kept : ∀ id, (∀ req, ep.req id = some req → loop.sel req = false) →
    ep'.req id = ep.req id ∧ ep'.completions id = ep.completions id
  turned : ∀ id req, ep.req id = some req → loop.sel req = true →
    ep'.req id = (loop.out ep.hasCtxids req).new ∧
      ep'.completions id = ep.completions id + (loop.out ep.hasCtxids req).completions
  dangling : ep'.dangling = [] ↔ ep.dangling = [] ∧
    ∀ id req, ep.req id = some req → loop.sel req = true →
      (loop.out ep.hasCtxids req).dangling = []
  hasCtxids : ep'.hasCtxids = ep.hasCtxids
  next : ep'.next = ep.next
  early : ep'.early = ep.early

theorem ran (hfresh : ∀ id, ep.next ≤ id → ep.req id = none) : loop.Ran ep (loop.run ep) := by
  have hmem : ∀ id req, ep.req id = some req → loop.sel req = true →
      id ∈ (List.range ep.next).filter fun id => (ep.req id).any loop.sel := by
    intro id req hreq hsel
    refine List.mem_filter.2 ⟨List.mem_range.2 ?_, by rw [hreq]; exact hsel⟩
    by_contra hle
    rw [hfresh id (Nat.le_of_not_lt hle)] at hreq
    cases hreq
  have hsel : ∀ id ∈ (List.range ep.next).filter (fun id => (ep.req id).any loop.sel),
      ∃ req, ep.req id = some req ∧ loop.sel req = true :=
    fun id hid => (Option.any_eq_true _ _).1 (List.mem_filter.1 hid).2
  have hrounds := loop.rounds _ (List.nodup_range.filter _) ep fun id hid hnone => by
    obtain ⟨req, hreq, -⟩ := hsel id hid
    cases hreq.symm.trans hnone
  refine ⟨fun id hkept => hrounds.kept id fun hid => ?_,
    fun id req hreq hsel' => hrounds.turned id (hmem id req hreq hsel') req hreq, ?_,
    hrounds.hasCtxids, hrounds.next, hrounds.early⟩
  · obtain ⟨req, hreq, hsel'⟩ := hsel id hid
    cases (hkept req hreq).symm.trans hsel'
  · refine hrounds.dangling.trans (and_congr_right fun _ => ⟨fun h id req hreq hsel' => ?_,
      fun h id hid req hreq => ?_⟩)
    · exact h id (hmem id req hreq hsel') req hreq
    · obtain ⟨req', hreq', hsel'⟩ := hsel id hid
      cases hreq.symm.trans hreq'
      exact h id req hreq hsel'

end Loop

/-! ## Sequences of loops -/

/-- The loops one after the other. -/
def runLoops (loops : List (Loop ι)) (ep : Endpoint ι) : Endpoint ι :=
  loops.foldl (fun ep' loop => loop.run ep') ep

namespace Loop

variable {loop : Loop ι} {ep ep' : Endpoint ι} {id : ℕ} {req : Req ι}

theorem Ran.fresh (h : loop.Ran ep ep') (hfresh : ∀ id, ep.next ≤ id → ep.req id = none) :
    ∀ id, ep'.next ≤ id → ep'.req id = none := by
  intro id hle
  rw [h.next] at hle
  have hnone := hfresh id hle
  rw [(h.kept id fun req hreq => nomatch hnone.symm.trans hreq).1, hnone]

theorem runLoops_early (loops : List (Loop ι)) (hfresh : ∀ id, ep.next ≤ id → ep.req id = none) :
    (runLoops loops ep).early = ep.early := by
  induction loops generalizing ep with
  | nil => rfl
  | cons loop loops ih =>
      have hran := loop.ran hfresh
      exact (ih (hran.fresh hfresh)).trans hran.early

theorem runLoops_fresh (loops : List (Loop ι)) (hfresh : ∀ id, ep.next ≤ id → ep.req id = none) :
    ∀ id, (runLoops loops ep).next ≤ id → (runLoops loops ep).req id = none := by
  induction loops generalizing ep with
  | nil => exact hfresh
  | cons loop loops ih => exact ih ((loop.ran hfresh).fresh hfresh)

/-- Loops that do not select what is there leave it alone. -/
theorem runLoops_kept (loops : List (Loop ι)) (hfresh : ∀ id, ep.next ≤ id → ep.req id = none)
    (hkept : ∀ loop ∈ loops, ∀ req, ep.req id = some req → loop.sel req = false) :
    (runLoops loops ep).req id = ep.req id ∧
      (runLoops loops ep).completions id = ep.completions id := by
  induction loops generalizing ep with
  | nil => exact ⟨rfl, rfl⟩
  | cons loop loops ih =>
      have hran := loop.ran hfresh
      obtain ⟨hreq, hcompletions⟩ := hran.kept id (hkept loop (List.mem_cons_self ..))
      have hrest := ih (hran.fresh hfresh) fun loop' hmem req hreq' =>
        hkept loop' (List.mem_cons_of_mem _ hmem) req (hreq.symm.trans hreq')
      exact ⟨hrest.1.trans hreq, hrest.2.trans hcompletions⟩

/-- The first loop that selects a request decides what becomes of it, if no other selects that. -/
theorem runLoops_turned (loops : List (Loop ι)) (hfresh : ∀ id, ep.next ≤ id → ep.req id = none)
    (hreq : ep.req id = some req) (hfind : loops.find? (fun loop => loop.sel req) = some loop)
    (hnew : ∀ loop' ∈ loops, ∀ new ∈ (loop.out ep.hasCtxids req).new, loop'.sel new = false) :
    (runLoops loops ep).req id = (loop.out ep.hasCtxids req).new ∧
      (runLoops loops ep).completions id =
        ep.completions id + (loop.out ep.hasCtxids req).completions := by
  induction loops generalizing ep with
  | nil => exact nomatch hfind
  | cons head loops ih =>
      have hran := head.ran hfresh
      have hrest : ∀ loop' ∈ loops, ∀ new ∈ (loop.out ep.hasCtxids req).new, loop'.sel new = false :=
        fun loop' hmem => hnew loop' (List.mem_cons_of_mem _ hmem)
      rcases hsel : head.sel req with _ | _
      · simp only [List.find?_cons, hsel] at hfind
        obtain ⟨hreq', hcompletions⟩ := hran.kept id fun req' hreq' => by
          cases hreq.symm.trans hreq'
          exact hsel
        rw [← hran.hasCtxids] at hrest
        have hturned := ih (hran.fresh hfresh) (hreq'.trans hreq) hfind hrest
        rw [hran.hasCtxids, hcompletions] at hturned
        exact hturned
      · simp only [List.find?_cons, hsel, Option.some.injEq] at hfind
        subst hfind
        obtain ⟨hreq', hcompletions⟩ := hran.turned id req hreq hsel
        have hkept := runLoops_kept loops (hran.fresh hfresh) fun loop' hmem new hnew' =>
          hrest loop' hmem new (hreq'.symm.trans hnew')
        exact ⟨hkept.1.trans hreq', hkept.2.trans hcompletions⟩

/-- What is known before the loops, and kept by every round of each, is known after them. -/
theorem runLoops_keep (motive : Endpoint ι → Prop) (loops : List (Loop ι)) (h : motive ep)
    (hround : ∀ loop ∈ loops, ∀ ep' id req, motive ep' → ep'.req id = some req →
      loop.sel req = true → motive (loop.body ep' id req)) : motive (runLoops loops ep) := by
  induction loops generalizing ep with
  | nil => exact h
  | cons loop loops ih =>
      exact ih (loop.run_keeps motive h (hround loop (List.mem_cons_self ..))) fun loop' hmem =>
        hround loop' (List.mem_cons_of_mem _ hmem)

end Loop

end Xen2mx.Request
