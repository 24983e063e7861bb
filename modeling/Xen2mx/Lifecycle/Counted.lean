/-
# `Xen2mx.Lifecycle.Counted` — when an endpoint of the backend is counted

    open, of an endpoint that is not free     nobody has a reference to it
    the steps of an open                      none of them fails
    release                                   nobody has a reference, and everything is unmapped

The first resets the count, the second leaves the status as it was with the first resources taken,
and the third takes away what a reception may be writing to.

**Proved here.**

    a careful step keeps the invariant                                        (`Inv.step`)
    a step that is not careful leads to a state that is not counted           (`Inv.careful`)
    a run goes through counted states only  ⟺  all its steps are careful     (`endpoint_counted`)
-/
import Xen2mx.Lifecycle.Backend

namespace Xen2mx.Lifecycle

/-! ## The condition -/

def Careful (s : State) : Act → Prop
  | .openEndpoint => s.status ≠ .free → s.outstanding = 0
  | .alloc fails | .accept fails => fails = none
  | .attach found => found = true
  | .release fails => fails = none ∧ s.outstanding = 0
  | _ => True

instance (s : State) : ∀ a : Act, Decidable (Careful s a)
  | .openEndpoint => inferInstanceAs (Decidable (s.status ≠ .free → s.outstanding = 0))
  | .alloc fails | .accept fails => inferInstanceAs (Decidable (fails = none))
  | .attach found => inferInstanceAs (Decidable (found = true))
  | .release fails => inferInstanceAs (Decidable (fails = none ∧ s.outstanding = 0))
  | .opened | .closeEndpoint | .detach | .lastRelease | .closed | .lookup | .get | .check
  | .reacquire | .put => isTrue trivial

/-! ## The invariant -/

/-- The status while a request is processed; between two of them the endpoint is free or open. -/
def Worker.Allows : Worker → Status → Prop
  | .idle, st => st = .free ∨ st = .ok
  | .opening, st | .allocated, st | .accepted, st => st = .initializing
  | .attached, st => st = .ok
  | .closing, st | .released, st | .detached, st | .lastReleased, st => st = .closing

/-- The table of the interface has the endpoint. -/
def Worker.listed : Worker → Status → Bool
  | .idle, .ok | .attached, _ | .closing, _ | .released, _ => true
  | _, _ => false

def Worker.held : Worker → Status → List Resource
  | .idle, .ok | .accepted, _ | .attached, _ | .closing, _ => allocResources ++ acceptResources
  | .allocated, _ | .released, _ | .detached, _ => allocResources
  | _, _ => []

/-- No user can have reached the endpoint. -/
def Worker.Quiet : Worker → Status → Prop
  | .idle, st => st = .free
  | .opening, _ | .allocated, _ | .accepted, _ | .lastReleased, _ => True
  | _, _ => False

structure Inv (s : State) : Prop where
  status : s.worker.Allows s.status
  listed : s.listed = s.worker.listed s.status
  iface : s.iface = (s.worker.listed s.status || s.worker = .detached)
  held : ∀ r, s.taken r = s.given r + (s.worker.held s.status).count r
  refcount : s.status ≠ .free → s.refcount = 1 + s.outstanding
  quiet : s.worker.Quiet s.status → s.reading = 0 ∧ s.outstanding = 0
  unheld : s.worker = .released ∨ s.worker = .detached → s.holders = 0
  last : s.early = false ∧ s.kfreed = false
  opens : ∀ o ∈ s.opens, o = .opened ∨ o = .failed .free ∨ o = .refused false

theorem Inv.start : Inv start where
  status := .inl rfl
  listed := rfl
  iface := rfl
  held _ := rfl
  refcount h := absurd rfl h
  quiet _ := ⟨rfl, rfl⟩
  unheld := nofun
  last := ⟨rfl, rfl⟩
  opens := nofun

/-! ## Resources -/

theorem count_held_le (w : Worker) (st : Status) (r : Resource) : (w.held st).count r ≤ 1 := by
  cases w <;> cases st <;> cases r <;> decide

theorem count_all (r : Resource) : (allocResources ++ acceptResources).count r = 1 := by
  cases r <;> decide

theorem count_release (r : Resource) :
    (allocResources ++ acceptResources).count r =
      releaseResources.count r + allocResources.count r := by
  cases r <;> decide

theorem count_free (r : Resource) : freeResources.count r = allocResources.count r := by
  cases r <;> decide

variable {s s' : State}

theorem Inv.counted (h : Inv s) : s.Counted where
  refcount hok := h.refcount fun hfree => by cases hok.symm.trans hfree
  once r := by
    have hheld := h.held r
    have hle := count_held_le s.worker s.status r
    omega
  idle hidle r := by
    have hheld := h.held r
    have hstatus := h.status
    rw [hidle] at hheld hstatus
    rcases hstatus with hfree | hok
    · rw [hfree] at hheld ⊢
      exact hheld
    · rw [hok] at hheld ⊢
      rw [hheld, if_pos rfl]
      exact congrArg _ (count_all r)
  last := h.last
  opens := h.opens

/-! ## Users -/

/-- Users come and go. -/
theorem Inv.users (h : Inv s) {reading checking holders : ℕ} {refcount : ℤ}
    (href : s.status ≠ .free → refcount = 1 + (checking + holders : ℕ))
    (hquiet : s.worker.Quiet s.status → reading = 0 ∧ checking + holders = 0)
    (hunheld : s.worker = .released ∨ s.worker = .detached → holders = 0) :
    Inv { s with reading, checking, holders, refcount } :=
  { h with refcount := href, quiet := hquiet, unheld := hunheld }

theorem Worker.Quiet.not_listed {w : Worker} {st : Status} (h : w.Quiet st) :
    w.listed st = false := by
  cases w <;> cases st <;> first | rfl | cases h

/-- Somebody else still has a reference. -/
theorem krefPut_eq (h : s.refcount ≠ 1) : s.krefPut = { s with refcount := s.refcount - 1 } :=
  if_neg fun h0 => h (by dsimp only at h0; omega)

theorem Inv.lookup (h : Inv s) (hlisted : s.listed = true) :
    Inv { s with reading := s.reading + 1 } := by
  have hnot : ¬ s.worker.Quiet s.status := fun hq =>
    Bool.noConfusion (hlisted.symm.trans (h.listed.trans hq.not_listed))
  exact h.users h.refcount (fun hq => absurd hq hnot) h.unheld

theorem Inv.get (h : Inv s) (hreading : 0 < s.reading) :
    Inv { s with
      reading := s.reading - 1, checking := s.checking + 1, refcount := s.refcount + 1 } := by
  have hnot : ¬ s.worker.Quiet s.status := fun hq => absurd (h.quiet hq).1 (by omega)
  refine h.users (fun hne => ?_) (fun hq => absurd hq hnot) h.unheld
  have href := h.refcount hne
  unfold State.outstanding at href
  omega

theorem Inv.check (h : Inv s) (hchecking : 0 < s.checking) (hok : s.status = .ok) :
    Inv { s with checking := s.checking - 1, holders := s.holders + 1 } := by
  refine h.users (fun hne => ?_) (fun hq => ?_) fun hw => ?_
  · have href := h.refcount hne
    unfold State.outstanding at href
    omega
  · have hnone := (h.quiet hq).2
    unfold State.outstanding at hnone
    omega
  · have hstatus := h.status
    rw [hok] at hstatus
    rcases hw with hw | hw <;> rw [hw] at hstatus <;> cases hstatus

theorem Inv.reacquire (h : Inv s) (huser : 0 < s.holders ∨ s.worker = .idle ∧ s.iface = true) :
    Inv { s with holders := s.holders + 1, refcount := s.refcount + 1 } := by
  refine h.users (fun hne => ?_) (fun hq => ?_) fun hw => ?_
  · have href := h.refcount hne
    unfold State.outstanding at href
    omega
  · rcases huser with hholders | ⟨hw, hiface⟩
    · have hnone := (h.quiet hq).2
      unfold State.outstanding at hnone
      omega
    · rw [h.iface, hq.not_listed, hw] at hiface
      cases hiface
  · rcases huser with hholders | ⟨hidle, -⟩
    · have hunheld := h.unheld hw
      omega
    · rw [hidle] at hw
      rcases hw with hw | hw <;> cases hw

/-- A reference that is put is not the last one. -/
theorem Inv.put (h : Inv s) {checking holders : ℕ}
    (hone : checking + holders + 1 = s.outstanding) (hle : holders ≤ s.holders) :
    Inv { s with checking, holders }.krefPut := by
  have hnot : ¬ s.worker.Quiet s.status := fun hq => by
    have hnone := (h.quiet hq).2
    omega
  have hfree : s.status ≠ .free := fun hfree => by
    have hstatus := h.status
    have hquiet : s.worker.Quiet s.status := by
      rw [hfree] at hstatus ⊢
      cases hw : s.worker <;> rw [hw] at hstatus <;> first | rfl | trivial
    exact hnot hquiet
  have href := h.refcount hfree
  rw [krefPut_eq (by dsimp only; omega)]
  refine h.users (fun _ => ?_) (fun hq => absurd hq hnot)
    fun hw => Nat.le_zero.1 (h.unheld hw ▸ hle)
  show s.refcount - 1 = 1 + (checking + holders : ℕ)
  omega

/-! ## Requests of the guest -/

section Requests

variable {w : Worker} {st : Status}

/-- What the invariant says at a place of the worker. -/
theorem Inv.at (h : Inv s) (hw : s.worker = w) (hst : s.status = st) :
    s.listed = w.listed st ∧ s.iface = (w.listed st || w = .detached) ∧
      (∀ r, s.taken r = s.given r + (w.held st).count r) ∧
      (w.Quiet st → s.reading = 0 ∧ s.outstanding = 0) := by
  subst hw hst
  exact ⟨h.listed, h.iface, h.held, h.quiet⟩

/-- While it processes a request, the worker fixes the status. -/
theorem Inv.status_of (h : Inv s) (hw : s.worker = w) (hone : ∀ st', w.Allows st' → st' = st) :
    s.status = st := hone _ (hw ▸ h.status)

theorem Inv.openEndpoint (h : Inv s) (hw : s.worker = .idle)
    (hcareful : s.status ≠ .free → s.outstanding = 0) : Inv (openEndpoint s) := by
  unfold Lifecycle.openEndpoint
  split
  · rename_i hfree
    obtain ⟨hlisted, hiface, hheld, hquiet⟩ := h.at hw hfree
    exact {
      status := rfl, listed := hlisted, iface := hiface, held := hheld
      refcount := fun _ => show (1 : ℤ) = 1 + (s.outstanding : ℤ) by rw [(hquiet rfl).2]; rfl
      quiet := fun _ => hquiet rfl
      unheld := nofun
      last := h.last, opens := h.opens }
  · rename_i hne
    have href := h.refcount hne
    rw [hcareful hne] at href
    refine { h with
      refcount := fun _ => show (1 : ℤ) = 1 + (s.outstanding : ℤ) by rw [hcareful hne]; rfl
      opens := fun o ho => ?_ }
    rcases List.mem_cons.1 ho with rfl | ho
    · right; right
      rw [href]
      rfl
    · exact h.opens o ho

theorem Inv.alloc (h : Inv s) (hw : s.worker = .opening) :
    Inv { s.take allocResources with worker := .allocated } := by
  have hst : s.status = .initializing := h.status_of hw fun _ => id
  obtain ⟨hlisted, hiface, hheld, hquiet⟩ := h.at hw hst
  exact {
    status := hst, listed := hlisted, iface := hiface
    held := fun r => congrArg (· + allocResources.count r) (hheld r)
    refcount := h.refcount
    quiet := fun _ => hquiet trivial
    unheld := nofun
    last := h.last, opens := h.opens }

theorem Inv.accept (h : Inv s) (hw : s.worker = .allocated) :
    Inv { s.take acceptResources with worker := .accepted } := by
  have hst : s.status = .initializing := h.status_of hw fun _ => id
  obtain ⟨hlisted, hiface, hheld, hquiet⟩ := h.at hw hst
  refine {
    status := hst, listed := hlisted, iface := hiface
    held := fun r => ?_
    refcount := h.refcount
    quiet := fun _ => hquiet trivial
    unheld := nofun
    last := h.last, opens := h.opens }
  show s.taken r + acceptResources.count r = s.given r + (allocResources ++ acceptResources).count r
  rw [hheld r, List.count_append, Nat.add_assoc]
  rfl

theorem Inv.attach (h : Inv s) (hw : s.worker = .accepted) :
    Inv { s with iface := true, listed := true, status := .ok, worker := .attached } := by
  have hst : s.status = .initializing := h.status_of hw fun _ => id
  obtain ⟨-, -, hheld, -⟩ := h.at hw hst
  exact {
    status := rfl, listed := rfl, iface := rfl, held := hheld
    refcount := fun _ => h.refcount (by rw [hst]; nofun)
    quiet := nofun
    unheld := nofun
    last := h.last, opens := h.opens }

theorem Inv.opened (h : Inv s) (hw : s.worker = .attached) :
    Inv { s with status := .ok, worker := .idle, opens := .opened :: s.opens } := by
  have hst : s.status = .ok := h.status_of hw fun _ => id
  obtain ⟨hlisted, hiface, hheld, -⟩ := h.at hw hst
  refine {
    status := .inr rfl, listed := hlisted, iface := hiface, held := hheld
    refcount := fun _ => h.refcount (by rw [hst]; nofun)
    quiet := nofun
    unheld := nofun
    last := h.last
    opens := fun o ho => ?_ }
  rcases List.mem_cons.1 ho with rfl | ho
  · exact .inl rfl
  · exact h.opens o ho

theorem Inv.closeEndpoint (h : Inv s) (hw : s.worker = .idle) : Inv (closeEndpoint s) := by
  unfold Lifecycle.closeEndpoint
  split
  · rename_i hok
    obtain ⟨hlisted, hiface, hheld, -⟩ := h.at hw hok
    exact {
      status := rfl, listed := hlisted, iface := hiface, held := hheld
      refcount := fun _ => h.refcount (by rw [hok]; nofun)
      quiet := nofun
      unheld := nofun
      last := h.last, opens := h.opens }
  · exact h

theorem Inv.release (h : Inv s) (hw : s.worker = .closing) (hcareful : s.outstanding = 0) :
    Inv { s.give releaseResources with worker := .released } := by
  have hst : s.status = .closing := h.status_of hw fun _ => id
  obtain ⟨hlisted, hiface, hheld, -⟩ := h.at hw hst
  refine {
    status := hst, listed := hlisted, iface := hiface
    held := fun r => ?_
    refcount := h.refcount
    quiet := nofun
    unheld := fun _ => (Nat.add_eq_zero_iff.1 hcareful).2
    last := ⟨?_, h.last.2⟩, opens := h.opens }
  · show s.taken r = s.given r + releaseResources.count r + allocResources.count r
    rw [hheld r, Nat.add_assoc, ← count_release]
    rfl
  · show (s.early || (releaseResources ≠ [] && s.outstanding ≠ 0)) = false
    rw [h.last.1, hcareful]
    rfl

theorem Inv.detach (h : Inv s) (hw : s.worker = .released) :
    Inv { s with listed := false, worker := .detached } := by
  have hst : s.status = .closing := h.status_of hw fun _ => id
  obtain ⟨-, hiface, hheld, -⟩ := h.at hw hst
  exact {
    status := hst, listed := rfl, iface := hiface, held := hheld
    refcount := h.refcount
    quiet := nofun
    unheld := fun _ => h.unheld (.inl hw)
    last := h.last, opens := h.opens }

theorem Inv.lastRelease (h : Inv s) (hw : s.worker = .detached) (hreading : s.reading = 0)
    (hchecking : s.checking = 0) :
    Inv { s.give freeResources with iface := false, worker := .lastReleased } := by
  have hst : s.status = .closing := h.status_of hw fun _ => id
  obtain ⟨hlisted, -, hheld, -⟩ := h.at hw hst
  have hnone : s.outstanding = 0 := by rw [State.outstanding, hchecking, h.unheld (.inr hw)]
  refine {
    status := hst, listed := hlisted, iface := rfl
    held := fun r => ?_
    refcount := h.refcount
    quiet := fun _ => ⟨hreading, hnone⟩
    unheld := nofun
    last := ⟨?_, h.last.2⟩, opens := h.opens }
  · show s.taken r = s.given r + freeResources.count r
    rw [hheld r, count_free]
    rfl
  · show (s.early || (freeResources ≠ [] && s.outstanding ≠ 0)) = false
    rw [h.last.1, hnone]
    rfl

theorem Inv.closed (h : Inv s) (hw : s.worker = .lastReleased) :
    Inv { s with status := .free, worker := .idle } := by
  have hst : s.status = .closing := h.status_of hw fun _ => id
  obtain ⟨hlisted, hiface, hheld, hquiet⟩ := h.at hw hst
  exact {
    status := .inl rfl, listed := hlisted, iface := hiface, held := hheld
    refcount := fun hne => absurd rfl hne
    quiet := fun _ => hquiet trivial
    unheld := nofun
    last := h.last, opens := h.opens }

end Requests

/-! ## Steps -/

theorem step_eq_some {a : Act} :
    machine.step s a = some s' ↔ s.kfreed = false ∧ stepLive s a = some s' := by
  show (if s.kfreed then none else stepLive s a) = some s' ↔ _
  cases s.kfreed <;> simp

theorem Inv.step {a : Act} (h : Inv s) (hcareful : Careful s a) (hs : machine.step s a = some s') :
    Inv s' := by
  replace hs := (step_eq_some.1 hs).2
  cases a with
  | openEndpoint =>
      obtain ⟨hw, rfl⟩ := guard_eq_some.1 hs
      exact h.openEndpoint hw hcareful
  | alloc fails =>
      obtain rfl : fails = none := hcareful
      obtain ⟨hw, rfl⟩ := guard_eq_some.1 hs
      exact h.alloc hw
  | accept fails =>
      obtain rfl : fails = none := hcareful
      obtain ⟨hw, rfl⟩ := guard_eq_some.1 hs
      exact h.accept hw
  | attach found =>
      obtain rfl : found = true := hcareful
      obtain ⟨hw, rfl⟩ := guard_eq_some.1 hs
      exact h.attach hw
  | opened =>
      obtain ⟨hw, rfl⟩ := guard_eq_some.1 hs
      exact h.opened hw
  | closeEndpoint =>
      obtain ⟨hw, rfl⟩ := guard_eq_some.1 hs
      exact h.closeEndpoint hw
  | release fails =>
      obtain ⟨rfl, hnone⟩ : fails = none ∧ s.outstanding = 0 := hcareful
      obtain ⟨hw, rfl⟩ := guard_eq_some.1 hs
      exact h.release hw hnone
  | detach =>
      obtain ⟨hw, rfl⟩ := guard_eq_some.1 hs
      exact h.detach hw
  | lastRelease =>
      obtain ⟨⟨hw, hreading, hchecking⟩, rfl⟩ := guard_eq_some.1 hs
      exact h.lastRelease hw hreading hchecking
  | closed =>
      obtain ⟨hw, rfl⟩ := guard_eq_some.1 hs
      exact h.closed hw
  | lookup =>
      obtain ⟨hlisted, rfl⟩ := guard_eq_some.1 hs
      exact h.lookup hlisted
  | get =>
      obtain ⟨hreading, rfl⟩ := guard_eq_some.1 hs
      exact h.get hreading
  | check =>
      obtain ⟨hchecking, hs⟩ := Option.ite_none_right_eq_some.1 hs
      by_cases hok : s.status = .ok
      · rw [if_pos hok] at hs
        cases hs
        exact h.check hchecking hok
      · rw [if_neg hok] at hs
        cases hs
        exact h.put (by unfold State.outstanding; omega) (Nat.le_refl _)
  | reacquire =>
      obtain ⟨huser, rfl⟩ := guard_eq_some.1 hs
      exact h.reacquire huser
  | put =>
      obtain ⟨hholders, rfl⟩ := guard_eq_some.1 hs
      exact h.put (by unfold State.outstanding; omega) (by omega)

/-! ## Steps that are not careful -/

/-- An open that fails leaves the endpoint neither free nor open. -/
theorem not_counted_openFails (hst : s.status = .initializing) : ¬ s.openFails.Counted := by
  intro hc
  rcases hc.opens _ List.mem_cons_self with h | h | h
  · cases h
  · cases hst.symm.trans (Opened.failed.inj h)
  · cases h

theorem Inv.careful (h : Inv s) {a : Act} (hs : machine.step s a = some s') (hc : s'.Counted) :
    Careful s a := by
  replace hs := (step_eq_some.1 hs).2
  cases a with
  | openEndpoint =>
      intro hne
      obtain ⟨-, rfl⟩ := guard_eq_some.1 hs
      rw [Lifecycle.openEndpoint, if_neg hne] at hc
      have href := h.refcount hne
      rcases hc.opens _ List.mem_cons_self with ho | ho | ho
      · cases ho
      · cases ho
      · have hone : s.refcount = 1 := by simpa using Opened.refused.inj ho
        omega
  | alloc fails =>
      cases fails with
      | none => rfl
      | some n =>
          obtain ⟨hw, rfl⟩ := guard_eq_some.1 hs
          exact absurd hc (not_counted_openFails (h.status_of hw fun _ => id))
  | accept fails =>
      cases fails with
      | none => rfl
      | some n =>
          obtain ⟨hw, rfl⟩ := guard_eq_some.1 hs
          exact absurd hc (not_counted_openFails (h.status_of hw fun _ => id))
  | attach found =>
      cases found with
      | true => rfl
      | false =>
          obtain ⟨hw, rfl⟩ := guard_eq_some.1 hs
          exact absurd hc (not_counted_openFails (h.status_of hw fun _ => id))
  | release fails =>
      cases fails with
      | none =>
          obtain ⟨-, rfl⟩ := guard_eq_some.1 hs
          refine ⟨rfl, ?_⟩
          have hearly : (s.early || (releaseResources ≠ [] && s.outstanding ≠ 0)) = false :=
            hc.last.1
          simpa [releaseResources] using (Bool.or_eq_false_iff.1 hearly).2
      | some n =>
          obtain ⟨⟨hw, hn⟩, rfl⟩ := guard_eq_some.1 hs
          have hst : s.status = .closing := h.status_of hw fun _ => id
          have hheld : s.taken .endpointVm = s.given .endpointVm + 1 :=
            (h.at hw hst).2.2.1 .endpointVm
          have hidle : s.taken .endpointVm = s.given .endpointVm +
              (releaseResources.take n).count .endpointVm + if s.status = .ok then 1 else 0 :=
            hc.idle rfl .endpointVm
          have hcount : ∀ n ∈ releaseFailures, (releaseResources.take n).count .endpointVm = 0 := by
            decide
          rw [hcount n hn, hst, if_neg nofun] at hidle
          omega
  | opened | closeEndpoint | detach | lastRelease | closed | lookup | get | check | reacquire
  | put => trivial

/-! ## Every run -/

/-- A run goes through counted states only, exactly if its steps are all careful. -/
theorem endpoint_counted {acts : List Act} {t : State} (h : machine.exec start acts = some t) :
    machine.Meets Careful start acts ↔
      ∀ bs, bs <+: acts → ∀ s, machine.exec start bs = some s → s.Counted := by
  rw [Machine.meets_of_exec h]
  refine Machine.meets_iff_forall_prefix (I := Inv) ?_ (fun _ hI => hI.counted) ?_ Inv.start
  · exact fun s a s' hI hcareful hs => hI.step (hcareful s' hs) hs
  · exact fun s a hI => ⟨fun hcareful s' hs => (hI.step (hcareful s' hs) hs).counted,
      fun hcounted s' hs => hI.careful hs (hcounted s' hs)⟩

/-- An open, a reception, a second open, and a close with a reception under way. -/
def openAndClose : List Act :=
  [.openEndpoint, .alloc none, .accept none, .attach true, .opened, .lookup, .get, .check,
    .reacquire, .put, .put, .openEndpoint, .closeEndpoint, .release none, .lookup, .get, .lookup,
    .detach, .check, .get, .check, .lastRelease, .closed]

theorem endpoint_counted_openAndClose :
    ∃ s, machine.exec start openAndClose = some s ∧ s.status = .free ∧ s.Counted := by
  obtain ⟨s, hs, hstatus⟩ := Option.map_eq_some_iff.1
    (show (machine.exec start openAndClose).map (·.status) = some .free by decide +kernel)
  exact ⟨s, hs, hstatus,
    (endpoint_counted hs).1 (by decide +kernel) _ (List.prefix_refl _) s hs⟩

/-- A second open while a packet is received, whose end then frees the endpoint; and an open that
has no memory for its fourth resource. -/
theorem endpoint_not_counted :
    (∃ s, machine.exec start [.openEndpoint, .alloc none, .accept none, .attach true, .opened,
        .lookup, .get, .check, .openEndpoint, .put] = some s ∧ ¬ s.Counted) ∧
      ∃ s, machine.exec start [.openEndpoint, .alloc none, .accept (some 3)] = some s ∧
        ¬ s.Counted := by
  constructor
  · obtain ⟨s, hs, hfreed⟩ := Option.map_eq_some_iff.1
      (show (machine.exec start [.openEndpoint, .alloc none, .accept none, .attach true, .opened,
        .lookup, .get, .check, .openEndpoint, .put]).map (·.kfreed) = some true by decide +kernel)
    exact ⟨s, hs, fun hc => Bool.noConfusion (hfreed.symm.trans hc.last.2)⟩
  · obtain ⟨s, hs, hopens⟩ := Option.map_eq_some_iff.1
      (show (machine.exec start [.openEndpoint, .alloc none, .accept (some 3)]).map (·.opens) =
        some [.failed .initializing] by decide +kernel)
    refine ⟨s, hs, fun hc => ?_⟩
    rcases hc.opens (.failed .initializing) (by rw [hopens]; exact List.mem_singleton_self _) with
      h | h | h <;> cases h

end Xen2mx.Lifecycle
