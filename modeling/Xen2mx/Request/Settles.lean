/-
# `Xen2mx.Request.Settles` — a request goes from one phase to another

A function takes a request out of its phase and brings it to another: in between it has no bit
and no list of a phase (`Phase.idle`).  `Settles` is that a function found a phase for such a
request, or freed it because it was a zombie.
-/
import Xen2mx.Request.Phases

namespace Xen2mx.Request

variable {ι : Type*}

namespace Phase

/-- A request between two phases. -/
def idle (hasCtxids : Bool) (rest : Rest ι) (handle : Bool) : Req ι :=
  { finished.req hasCtxids rest with handle }

/-- What is read off a request in a phase. -/
structure Calm (ph : Phase) (rest rest' : Rest ι) : Prop where
  ok : ph.Ok rest'
  unexp : ph.isUnexp = false
  zombie : rest'.zombie = rest.zombie
  internal : rest'.internal = rest.internal

theorem notified_idle {c b : Bool} {rest : Rest ι} :
    (idle c rest b).notified c =
      if !rest.internal && rest.zombie then none
      else some { finished.req c { rest with done := true } with handle := b } := by
  obtain ⟨type, partner, failed, buffer, sreq, done, zombie, internal⟩ := rest
  cases internal <;> cases zombie <;> cases done <;> cases c <;> rfl

theorem notifiedEarly_req {ph : Phase} {c b full : Bool} {rest : Rest ι} (hunexp : ph.isUnexp = false)
    (hinternal : rest.internal = false) (hdone : rest.done = false) :
    Req.notifiedEarly c full { ph.req c rest with handle := b } =
      { ph.req c { rest with done := !full } with handle := b } := by
  obtain ⟨type, partner, failed, buffer, sreq, done, zombie, internal⟩ := rest
  cases hinternal
  cases hdone
  cases full <;> cases zombie <;> cases c <;>
    simp [Req.notifiedEarly, Req.enqueueDone, req, hunexp]

end Phase

/-- `ep'` is `ep` with the request `id`, which had nothing but `rest`, in a phase; or it was a
zombie and is freed. -/
def Settles (ep ep' : Endpoint ι) (id : ℕ) (rest : Phase.Rest ι) (handle : Bool) : Prop :=
  ∃ new, Updates ep ep' id new ∧ (new = none → rest.zombie = true) ∧
    ∀ req ∈ new, ∃ (ph : Phase) (rest' : Phase.Rest ι), ph.Calm rest rest' ∧
      req = { ph.req ep.hasCtxids rest' with handle }

namespace Settles

open Phase

variable {ep ep' : Endpoint ι} {id : ℕ} {rest : Rest ι} {handle : Bool}

theorem of_set {req : Req ι} (hz : zombieBit (ep.req id) = zombieBit (some req)) {ph : Phase}
    {rest' : Rest ι} (hcalm : ph.Calm rest rest')
    (hreq : req = { ph.req ep.hasCtxids rest' with handle }) :
    Settles ep (ep.set id req) id rest handle := by
  refine ⟨some req, .set hz, nofun, ?_⟩
  rintro _ ⟨⟩
  exact ⟨ph, rest', hcalm, hreq⟩

variable (hz : zombieBit (ep.req id) = zombieBit (some (idle ep.hasCtxids rest handle)))
include hz

variable (ep id rest handle) in
theorem complete (hpos : rest.zombie = true → 0 < ep.zombies)
    (hinternal : rest.internal = true → rest.type = .connect ∧ rest.zombie = false)
    (hbuffer : rest.unexpBuffer = false) (error : Bool) :
    Settles ep (ep.complete id (idle ep.hasCtxids rest handle) error) id rest handle := by
  have hup : Updates ep (ep.complete id (idle ep.hasCtxids rest handle) error) id
      (Req.notified ep.hasCtxids
        (idle ep.hasCtxids { rest with failed := rest.failed || error } handle)) := by
    refine .notifyRequestDone hz hpos fun hzombie => ?_
    have hdone : (rest.done && !rest.zombie && !rest.internal) = false := by
      rw [show rest.zombie = true from hzombie, Bool.not_true, Bool.and_false, Bool.false_and]
    simp only [Req.tied, idle, req, hdone, hbuffer, queueElt, partnerElt, isUnexp]
    cases ep.hasCtxids <;> rfl
  rw [notified_idle] at hup
  refine ⟨_, hup, ?_, ?_⟩
  · intro hnone
    split_ifs at hnone with hzombie
    exact (Bool.and_eq_true_iff.1 hzombie).2
  · intro req hreq
    split_ifs at hreq with hzombie
    · exact nomatch hreq
    · cases hreq
      refine ⟨.finished, { rest with failed := rest.failed || error, done := true }, ⟨⟨rfl, fun _ => .inr rfl, fun _ => ⟨rfl, ?_⟩, hinternal, nofun, ?_,
        fun _ => .inr rfl⟩, rfl, rfl, rfl⟩, rfl⟩
      · by_contra hne
        rw [Bool.not_eq_false] at hne
        refine hzombie (Bool.and_eq_true_iff.2 ⟨?_, hne⟩)
        rw [Bool.not_eq_true']
        by_contra hint
        rw [Bool.not_eq_false] at hint
        have hnot := (hinternal hint).2
        rw [show rest.zombie = true from hne] at hnot
        exact nomatch hnot
      · intro hbuf
        rw [show rest.unexpBuffer = true from hbuf] at hbuffer
        exact nomatch hbuffer

variable (hinternal : rest.internal = false) (hbuffer : rest.unexpBuffer = false)
  (hdone : rest.done = false) (hpartner : rest.partner ≠ none)
include hinternal hbuffer hdone hpartner

omit hz in
/-- A request of a phase that it enters with no more than it has. -/
theorem calm (ph : Phase) (htypes : ph.types rest.type = true) (hunexp : ph.isUnexp = false)
    (hfinished : ph ≠ .finished) : ph.Calm rest rest :=
  ⟨⟨htypes, fun h => absurd h (by simp [hdone]), fun h => absurd h hfinished,
    fun h => absurd h (by simp [hinternal]), fun h => absurd h (by simp [hunexp]),
    fun h => absurd h (by simp [hbuffer]), fun h => absurd h hpartner⟩, hunexp, rfl, rfl⟩

/-- The same, `DONE` early. -/
theorem early (ph : Phase) (htypes : ph.types rest.type = true) (hearly : ph.early = true)
    (hunexp : ph.isUnexp = false) (hfinished : ph ≠ .finished) :
    Settles ep (ep.notifyRequestDoneEarly id { ph.req ep.hasCtxids rest with handle }) id rest
      handle := by
  have hup := @Updates.notifyRequestDoneEarly _ ep id { ph.req ep.hasCtxids rest with handle } hz
  rw [notifiedEarly_req hunexp hinternal hdone] at hup
  refine ⟨_, hup, nofun, ?_⟩
  rintro _ ⟨⟩
  exact ⟨ph, { rest with done := !decide (ep.zombieMax ≤ ep.zombies) },
    ⟨⟨htypes, fun _ => .inl hearly, fun h => absurd h hfinished,
      fun h => absurd h (by simp [hinternal]), fun h => absurd h (by simp [hunexp]),
      fun h => absurd h (by simp [hbuffer]), fun h => absurd h hpartner⟩, hunexp, rfl, rfl⟩,
    rfl⟩

theorem setup (htype : (rest.type.isSend || rest.type == .recvLarge) = true) (sending : Bool) :
    Settles ep (ep.setup id (idle ep.hasCtxids rest handle) sending) id rest handle := by
  have hearly := fun htypes => early hz hinternal hbuffer hdone hpartner .nonAcked htypes
    rfl rfl nofun
  have hsending := fun htypes => early hz hinternal hbuffer hdone hpartner .sending htypes
    rfl rfl nofun
  obtain ⟨type, partner, failed, buffer, sreq, done, zombie, internal⟩ := rest
  cases type with
  | sendTiny | sendSmall | recvLarge => exact hearly rfl
  | sendMediumsq =>
      cases sending
      · exact hearly rfl
      · exact hsending rfl
  | sendMediumva =>
      exact of_set hz (calm hinternal hbuffer hdone hpartner .nonAcked rfl rfl nofun) rfl
  | sendLarge =>
      exact of_set hz
        (calm hinternal hbuffer hdone hpartner .nonAckedReply rfl rfl nofun) rfl
  | connect | recv | sendSelf | recvSelfUnexpected => exact nomatch htype

variable (ep id rest handle) in
theorem submit (htype : (rest.type.isSend || rest.type == .recvLarge) = true) (posting : Endpoint.Posting) :
    Settles ep (ep.submit id (idle ep.hasCtxids rest handle) posting) id rest handle := by
  cases posting with
  | delayed =>
      exact of_set hz (calm hinternal hbuffer hdone hpartner .delayed htype rfl nofun) rfl
  | throttled =>
      exact of_set hz (calm hinternal hbuffer hdone hpartner .throttled htype rfl nofun) rfl
  | posted sending => exact setup hz hinternal hbuffer hdone hpartner htype sending

variable (ep id rest handle) in
/-- A large receive whose data is not pulled yet. -/
theorem submitPull (htype : rest.type = .recvLarge) (pulling : Endpoint.Pulling) :
    Settles ep
      (ep.submitPull id
        { idle ep.hasCtxids rest handle with
          state := { (idle ep.hasCtxids rest handle).state with recvPartial := true } } pulling)
      id rest handle := by
  cases pulling with
  | nothing => exact submit _ _ _ _ hz hinternal hbuffer hdone hpartner (by rw [htype]; rfl) .delayed
  | delayed =>
      exact of_set hz (calm hinternal hbuffer hdone hpartner .delayedPull
        (by rw [htype]; rfl) rfl nofun) rfl
  | posted =>
      exact of_set hz (calm hinternal hbuffer hdone hpartner .pulling
        (by rw [htype]; rfl) rfl nofun) rfl

end Settles

/-- `ep'` is `ep` with the request `id` coherent in some phase, or freed. -/
def Lands (ep ep' : Endpoint ι) (id : ℕ) : Prop :=
  ∃ new, Updates ep ep' id new ∧
    ∀ req ∈ new, Coherent ep.hasCtxids req ∧ ¬ req.IsSelfUnexp

namespace Phase

variable {ph : Phase} {rest : Rest ι} {c : Bool}

theorem queueElt_ne_unexp (h : ph.isUnexp = false) : ph.queueElt ≠ some .unexp := by
  revert h
  cases ph <;> decide

theorem req_handle (h : ph.isUnexp = false) :
    (ph.req c rest).handle = (!rest.zombie && !rest.internal) := by
  rw [req, h, Bool.not_false, Bool.and_true]

theorem not_isSelfUnexp (h : ph.isUnexp = false) {req : Req ι} (hreq : req.queueElt = ph.queueElt) :
    ¬ req.IsSelfUnexp :=
  fun hsu => queueElt_ne_unexp h (hreq.symm.trans hsu.2)

theorem not_isSelfSend (h : ph ≠ .selfSend) : ¬ Req.IsSelfSend (ph.req c rest) := by
  intro hself
  have hqueue : ph.queueElt = some .unexpSelfSend := hself
  revert h hqueue
  cases ph <;> decide

theorem zombieBit_req (h : rest.zombie = false) (b : Bool) :
    zombieBit (some { ph.req c rest with handle := b }) = 0 := by
  rw [zombieBit, Option.any_some]
  exact if_neg (by simp [req, h])

theorem zombieBit_idle (h : rest.zombie = false) (c b : Bool) :
    zombieBit (some (idle c rest b)) = 0 :=
  zombieBit_req h b

/-- What `omx__forget` and `omx__test_success` make of a request of the application. -/
def forgotten (ph : Phase) (c : Bool) (rest : Rest ι) : Option (Req ι) :=
  if ph = .finished then none else some (ph.req c { rest with done := false, zombie := true })

theorem state_eq_done (hok : ph.Ok rest) (hzombie : rest.zombie = false)
    (hinternal : rest.internal = false) (b : Bool) :
    ({ ph.req c rest with handle := b } : Req ι).state = { done := true } ↔ ph = .finished := by
  constructor
  · intro hstate
    cases ph <;> first | rfl | exact absurd hstate (by simp [req, state])
  · rintro rfl
    simp [req, state, (hok.finished rfl).1, hzombie, hinternal]

theorem tied_dequeueDone (hfinished : ph = .finished) (hbuffer : rest.unexpBuffer = false) (b : Bool) :
    (Req.dequeueDone { ph.req c rest with handle := b } c).tied = false := by
  subst hfinished
  cases c <;> simp [Req.tied, Req.dequeueDone, req, queueElt, partnerElt, hbuffer]

theorem Ok.buffer_of (hok : ph.Ok rest) (hunexp : ph.isUnexp = false) : rest.unexpBuffer = false := by
  by_contra hne
  rw [Bool.not_eq_false] at hne
  rcases hok.buffer hne with rfl | rfl <;> exact nomatch hunexp

theorem Ok.forgotten (hok : ph.Ok rest) (hunexp : ph.isUnexp = false)
    (hinternal : rest.internal = false) {req : Req ι} (hreq : req ∈ ph.forgotten c rest) :
    Coherent c req ∧ ¬ req.IsSelfUnexp := by
  unfold Phase.forgotten at hreq
  split_ifs at hreq with hfinished
  · exact nomatch hreq
  cases hreq
  have hno := hok.buffer_of hunexp
  refine ⟨⟨ph, { rest with done := false, zombie := true }, ⟨hok.types, nofun,
    fun h => absurd h hfinished, fun h => absurd h (by simp [hinternal]),
    fun h => absurd h (by simp [hunexp]), fun h => absurd h (by simp [hno]), hok.partner⟩, rfl⟩,
    not_isSelfUnexp hunexp rfl⟩

end Phase

namespace Updates

open Phase

variable {ep : Endpoint ι} {id : ℕ} {ph : Phase} {rest : Rest ι}
  (hz : zombieBit (ep.req id) = 0) (hok : ph.Ok rest) (hunexp : ph.isUnexp = false)
  (hzombie : rest.zombie = false) (hinternal : rest.internal = false)
include hz hok hunexp hzombie hinternal

theorem forget :
    Updates ep (ep.forget id { ph.req ep.hasCtxids rest with handle := false }) id
      (ph.forgotten ep.hasCtxids rest) := by
  unfold Endpoint.forget Phase.forgotten
  simp only [state_eq_done hok hzombie hinternal]
  split_ifs with hfinished hdone
  · exact free hz (tied_dequeueDone hfinished (hok.buffer_of hunexp) _)
  · refine ⟨?_, rfl, rfl, rfl, rfl, rfl, ?_⟩
    · obtain ⟨type, partner, failed, buffer, sreq, done, zombie, internal⟩ := rest
      cases hzombie
      cases hinternal
      have hdone' : done = true := hdone
      subst hdone'
      cases hc : ep.hasCtxids <;>
        simp [Endpoint.set, Req.dequeueDone, Phase.req, hunexp, hc]
    · rw [hz]
      rfl
  · refine ⟨?_, rfl, rfl, rfl, rfl, rfl, ?_⟩
    · obtain ⟨type, partner, failed, buffer, sreq, done, zombie, internal⟩ := rest
      cases hzombie
      cases hinternal
      have hdone' : done = false := Bool.eq_false_iff.2 hdone
      subst hdone'
      simp [Endpoint.set, Phase.req, hunexp]
    · rw [hz]
      rfl

theorem testSuccess (hdone : rest.done = true) :
    Updates ep (ep.testSuccess id (ph.req ep.hasCtxids rest)) id
      (ph.forgotten ep.hasCtxids rest) := by
  have hstate : (Req.dequeueDone (ph.req ep.hasCtxids rest) ep.hasCtxids).state =
      ({ ph.req ep.hasCtxids rest with handle := false } : Req ι).state := rfl
  unfold Endpoint.testSuccess Phase.forgotten
  simp only [hstate, state_eq_done hok hzombie hinternal]
  split_ifs with hfinished
  · exact free hz (tied_dequeueDone hfinished (hok.buffer_of hunexp) _)
  · refine ⟨?_, rfl, rfl, rfl, rfl, rfl, ?_⟩
    · obtain ⟨type, partner, failed, buffer, sreq, done, zombie, internal⟩ := rest
      cases hzombie
      cases hinternal
      cases hdone
      cases hc : ep.hasCtxids <;>
        simp [Endpoint.set, Req.dequeueDone, Phase.req, hunexp, hc]
    · rw [hz]
      rfl

end Updates

namespace Lands

variable {ep ep' : Endpoint ι} {id : ℕ} {req : Req ι}

theorem inv' (h : Inv ep) (hreq : ep.req id = some req)
    (hself : ¬ ∃ id' req₁, ep.req id' = some req₁ ∧ req₁.IsSelfUnexp ∧ req₁.sreq = id)
    (hl : Lands ep ep' id) : Inv ep' := by
  obtain ⟨new, hup, hnew⟩ := hl
  exact h.update hreq hup (fun r hr => (hnew r hr).1) (fun hs => absurd hs hself)
    fun r hr hs => absurd hs (hnew r hr).2

theorem inv (h : Inv ep) (hreq : ep.req id = some req) (hself : ¬ req.IsSelfSend)
    (hl : Lands ep ep' id) : Inv ep' :=
  inv' h hreq (h.no_pointer hreq hself) hl

theorem of_free (hup : Updates ep ep' id none) : Lands ep ep' id :=
  ⟨none, hup, fun _ hreq => absurd hreq (Option.not_mem_none _)⟩

theorem inv_alloc (h : Inv ep) (hzombie : req.state.zombie = false)
    (hl : Lands (ep.alloc req) ep' ep.next) : Inv ep' := by
  obtain ⟨new, hup, hnew⟩ := hl
  exact h.alloc hzombie hup (fun r hr => (hnew r hr).1) fun r hr hs => absurd hs (hnew r hr).2

end Lands

namespace Settles

open Phase

variable {ep ep' : Endpoint ι} {id : ℕ} {rest : Rest ι} {handle : Bool}

theorem lands (h : Settles ep ep' id rest handle)
    (hhandle : handle = (!rest.zombie && !rest.internal)) : Lands ep ep' id := by
  obtain ⟨new, hup, -, hnew⟩ := h
  refine ⟨new, hup, fun req hreq => ?_⟩
  obtain ⟨ph, rest', hcalm, rfl⟩ := hnew req hreq
  refine ⟨⟨ph, rest', hcalm.ok, ?_⟩, not_isSelfUnexp hcalm.unexp rfl⟩
  rw [hhandle, ← hcalm.zombie, ← hcalm.internal]
  simp only [Phase.req, hcalm.unexp, Bool.not_false, Bool.and_true]

/-- The end of a call: the application gets a pointer, or the request is forgotten. -/
theorem give (h : Settles ep ep' id rest false) (hzombie : rest.zombie = false)
    (hinternal : rest.internal = false) (give : Bool) :
    Lands ep (ep'.giveOrForget id give) id := by
  obtain ⟨new, hup, hsome, hnew⟩ := h
  have hc := hup.hasCtxids
  cases new with
  | none => exact absurd (hsome rfl) (by simp [hzombie])
  | some req =>
      obtain ⟨ph, rest', hcalm, rfl⟩ := hnew req rfl
      have hget : ep'.req id = some { ph.req ep.hasCtxids rest' with handle := false } := by
        rw [hup.req, Function.update_self]
      have hzombie' : rest'.zombie = false := hcalm.zombie.trans hzombie
      have hinternal' : rest'.internal = false := hcalm.internal.trans hinternal
      have hz : zombieBit (ep'.req id) = 0 := by
        rw [hget]
        exact zombieBit_req hzombie' _
      unfold Endpoint.giveOrForget
      rw [hget]
      cases give with
      | true =>
          refine ⟨_, hup.trans (.set (hz.trans (zombieBit_req hzombie' true).symm)), ?_⟩
          rintro _ ⟨⟩
          refine ⟨⟨ph, rest', hcalm.ok, ?_⟩, not_isSelfUnexp hcalm.unexp rfl⟩
          simp only [Phase.req, hcalm.unexp, hzombie', hinternal', Bool.not_false, Bool.and_true]
      | false =>
          rw [← hc] at hup hget ⊢
          refine ⟨_, hup.trans (.forget hz hcalm.ok hcalm.unexp hzombie' hinternal'),
            fun req hreq => ?_⟩
          rw [hc] at hreq
          exact hcalm.ok.forgotten hcalm.unexp hinternal' hreq

end Settles

/-! ## Calls that take a request -/

namespace Inv

open Phase

variable {ep ep' : Endpoint ι} {id : ℕ} {req : Req ι} {ph : Phase} {rest : Rest ι}

theorem zombies_pos (h : Inv ep) (hreq : ep.req id = some req) (hz : req.state.zombie = true) :
    0 < ep.zombies := by
  have hmem : id ∈ Finset.range ep.next := Finset.mem_range.2 (h.lt_next hreq)
  have hsum := Finset.add_sum_erase _ (fun id => zombieBit (ep.req id)) hmem
  have hone : zombieBit (ep.req id) = 1 := by
    rw [hreq, zombieBit, Option.any_some, hz, if_pos rfl]
  rw [h.zombies, Endpoint.zombieCount]
  simp only [hone] at hsum
  omega

end Inv

namespace Phase

variable {ph : Phase} {rest : Rest ι}

theorem Ok.internal_eq_false (hok : ph.Ok rest) (hconnect : ph ≠ .connecting)
    (hfinished : ph ≠ .finished) : rest.internal = false := by
  by_contra hne
  rw [Bool.not_eq_false] at hne
  have htypes := hok.types
  rw [(hok.internal hne).1] at htypes
  revert hconnect hfinished htypes
  cases ph <;> decide

theorem Ok.partner_ne_none (hok : ph.Ok rest) (hposted : ph ≠ .posted) (hfinished : ph ≠ .finished) :
    rest.partner ≠ none := by
  intro hnone
  rcases hok.partner hnone with rfl | rfl
  · exact hposted rfl
  · exact hfinished rfl

theorem Ok.done_eq_false (hok : ph.Ok rest) (hearly : ph.early = false) (hfinished : ph ≠ .finished) :
    rest.done = false := by
  by_contra hne
  rw [Bool.not_eq_false] at hne
  rcases hok.done hne with h | h
  · rw [h] at hearly
    exact nomatch hearly
  · exact hfinished h

end Phase

namespace Updates

theorem req_self {ep ep' : Endpoint ι} {id : ℕ} {new : Option (Req ι)}
    (h : Updates ep ep' id new) : ep'.req id = new := by
  rw [h.req, Function.update_self]

theorem req_of_ne {ep ep' : Endpoint ι} {id id' : ℕ} {new : Option (Req ι)}
    (h : Updates ep ep' id new) (hne : id' ≠ id) : ep'.req id' = ep.req id' := by
  rw [h.req, Function.update_of_ne hne]

/-- Work on one request, then on another, and on the first again, comes to all of the work on
the first and then that on the other. -/
theorem swap {ep ep₁ ep₂ ep₃ : Endpoint ι} {a b : ℕ} {req : Req ι} {new new' : Option (Req ι)}
    (hab : a ≠ b) (h₁ : Updates ep ep₁ a (some req)) (h₂ : Updates ep₁ ep₂ b new')
    (h₃ : Updates ep₂ ep₃ a new) (hpos : zombieBit (ep.req a) ≤ ep.zombies) :
    ∃ ep', Updates ep ep' a new ∧ Updates ep' ep₃ b new' := by
  have ha : ep₂.req a = some req := by
    rw [h₂.req, Function.update_of_ne hab, h₁.req, Function.update_self]
  have hb : ep₁.req b = ep.req b := by rw [h₁.req, Function.update_of_ne hab.symm]
  have hz₁ := h₁.zombies
  have hz₂ := h₂.zombies
  have hz₃ := h₃.zombies
  rw [hb] at hz₂
  rw [ha] at hz₃
  have hfrees₁ : ep₁.frees = ep.frees := h₁.frees
  refine ⟨{ ep₃ with
      req := Function.update ep.req a new
      frees := if new.isNone then Function.update ep.frees a (ep.frees a + 1) else ep.frees
      zombies := ep.zombies + zombieBit new - zombieBit (ep.req a) }, ?_, ?_⟩
  · refine ⟨rfl, ?_, ?_, ?_, ?_, rfl, ?_⟩
    · exact h₃.hasCtxids.trans (h₂.hasCtxids.trans h₁.hasCtxids)
    · exact h₃.myself.trans (h₂.myself.trans h₁.myself)
    · exact h₃.next.trans (h₂.next.trans h₁.next)
    · exact h₃.dangling.trans (h₂.dangling.trans h₁.dangling)
    · show ep.zombies + zombieBit new - zombieBit (ep.req a) + zombieBit (ep.req a) = _
      omega
  · refine ⟨?_, rfl, rfl, rfl, rfl, ?_, ?_⟩
    · show ep₃.req = Function.update (Function.update ep.req a new) b new'
      rw [h₃.req, h₂.req, h₁.req, Function.update_comm hab, Function.update_idem,
        Function.update_comm hab]
    · rw [h₃.frees, h₂.frees, hfrees₁]
      cases new with
      | none =>
          cases new' with
          | none =>
              simp only [Option.isNone_none, if_true]
              rw [Function.update_of_ne hab, Function.update_comm hab,
                Function.update_of_ne hab.symm]
          | some _ => rfl
      | some _ => rfl
    · show ep₃.zombies + zombieBit (Function.update ep.req a new b) =
        ep.zombies + zombieBit new - zombieBit (ep.req a) + zombieBit new'
      rw [Function.update_of_ne hab.symm]
      omega

end Updates

theorem req_new (ph : Phase) (hunexp : ph.isUnexp = false) (c : Bool) (type : ReqType)
    (partner : Option ι) (zombie internal b : Bool) :
    ({ ph.req c ⟨type, partner, false, false, 0, false, zombie, internal⟩ with handle := b } :
        Req ι) =
      { type
        partner
        state := { ph.state with done := false, zombie, internal }
        queueElt := ph.queueElt
        partnerElt := ph.partnerElt
        handle := b } := by
  cases c <;> simp [Phase.req, hunexp]

/-- The same for what lands. -/
theorem Lands.swap {ep ep₁ ep₂ ep₃ : Endpoint ι} {a b : ℕ} {req : Req ι} (hab : a ≠ b)
    (h₁ : Updates ep ep₁ a (some req)) (h₂ : Lands ep₁ ep₂ b) (h₃ : Lands ep₂ ep₃ a)
    (hpos : zombieBit (ep.req a) ≤ ep.zombies) :
    ∃ ep', Lands ep ep' a ∧ Lands ep' ep₃ b ∧ ∀ id, id ≠ a → ep'.req id = ep.req id := by
  obtain ⟨new', hup₂, hnew'⟩ := h₂
  obtain ⟨new, hup₃, hnew⟩ := h₃
  obtain ⟨ep', hup, hup'⟩ := Updates.swap hab h₁ hup₂ hup₃ hpos
  rw [hup₂.hasCtxids, h₁.hasCtxids] at hnew
  rw [h₁.hasCtxids, ← hup.hasCtxids] at hnew'
  refine ⟨ep', ⟨new, hup, hnew⟩, ⟨new', hup', hnew'⟩, fun id hid => ?_⟩
  rw [hup.req, Function.update_of_ne hid]

theorem idle_new (c : Bool) (type : ReqType) (partner : Option ι) (zombie : Bool) :
    Phase.idle c ⟨type, partner, false, false, 0, false, zombie, false⟩ false =
      { type, partner, state := { zombie } } :=
  req_new .finished rfl c type partner zombie false false

theorem zombieBit_alloc {ep : Endpoint ι} {req : Req ι} :
    zombieBit ((ep.alloc req).req ep.next) = zombieBit (some req) :=
  congrArg zombieBit (Function.update_self ..)

theorem alloc_req_of_ne {ep : Endpoint ι} {req : Req ι} {id : ℕ} (hid : id ≠ ep.next) :
    (ep.alloc req).req id = ep.req id :=
  Function.update_of_ne hid ..

theorem Updates.alloc {ep : Endpoint ι} {req : Req ι} :
    Updates (ep.alloc req) (ep.alloc req) ep.next (some req) where
  req := (Function.update_eq_self_iff.2 (Function.update_self ..).symm).symm
  hasCtxids := rfl
  myself := rfl
  next := rfl
  dangling := rfl
  frees := rfl
  zombies := congrArg (ep.zombies + ·) zombieBit_alloc

namespace Settles

open Phase

variable {ep : Endpoint ι} {id : ℕ} {req : Req ι}

/-- A request that is in a phase already. -/
theorem refl {ph : Phase} {rest rest' : Rest ι} {b : Bool} (hcalm : ph.Calm rest rest')
    (hreq : ep.req id = some { ph.req ep.hasCtxids rest' with handle := b }) :
    Settles ep ep id rest b := by
  refine ⟨_, ⟨?_, rfl, rfl, rfl, rfl, rfl, congrArg (ep.zombies + ·) (congrArg zombieBit hreq)⟩,
    nofun, ?_⟩
  · rw [← hreq, Function.update_eq_self]
  · rintro _ ⟨⟩
    exact ⟨ph, rest', hcalm, rfl⟩

/-- A request that is allocated in a phase. -/
theorem alloc (ep : Endpoint ι) (ph : Phase) (rest : Rest ι) (b : Bool) (hcalm : ph.Calm rest rest)
    (hreq : req = { ph.req ep.hasCtxids rest with handle := b }) :
    Settles (ep.alloc req) (ep.alloc req) ep.next rest b := by
  refine ⟨some req, .alloc, nofun, ?_⟩
  rintro _ ⟨⟩
  exact ⟨ph, rest, hcalm, hreq⟩

end Settles

end Xen2mx.Request
