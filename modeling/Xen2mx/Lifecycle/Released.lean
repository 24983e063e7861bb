/-
# `Xen2mx.Lifecycle.Released` — when the endpoints of a guest are released once

    an ioctl, a release, a handler      the structure is not freed
    an open                             takes no list that it keeps when it fails; its request does
                                        not fail
    the release of a file               its endpoint is free or open
    the end of a release that closes    never

The close ioctl frees the structure while the file is open, so that the process can do nothing with
the file after it, not even release it.  The release of an open endpoint closes it too, and then
uses it again: it is freed already, or its grants are kept, if the backend did not answer in time.
An open that gives up waiting leaves an endpoint that no release frees.

**Proved here.**

    a careful step keeps the invariant                                          (`Inv.step`)
    a step that is not careful leads to a state that is not sound               (`Inv.careful`)
    a run goes through sound states only  ⟺  its steps are careful             (`endpoint_released`)
-/
import Xen2mx.Lifecycle.Frontend

namespace Xen2mx.Lifecycle.Frontend

open Function (update update_self update_of_ne)
open Resource

/-! ## The condition -/

/-- The structure is not freed. -/
def State.Alive (s : State) (e : ℕ) : Prop := (s.endpoints e).kfreed = 0

instance (s : State) (e : ℕ) : Decidable (s.Alive e) :=
  inferInstanceAs (Decidable (_ = _))

/-- The request that an open waits for. -/
def Process.opens : Process → Option ℕ
  | .opening _ requestId => some requestId
  | _ => none

def Careful (s : State) : Act → Prop
  | .openEndpoint f eid _ fails =>
      s.Alive f ∧ s.Alive (s.target f eid) ∧
        ((s.endpoints (s.target f eid)).status = .free → ∀ failure ∈ fails, failure.taken = [])
  | .openEnds => ∀ requestId ∈ s.process.opens, s.requests requestId ≠ .failed
  | .closeEndpoint f eid _ => s.Alive f ∧ s.Alive (s.target f eid)
  | .release f _ =>
      s.Alive f ∧ ((s.endpoints f).status = .free ∨ (s.endpoints f).status = .ok)
  | .releaseEnds => False
  | .ioctl f => s.Alive f
  | .getInfo eid => ∀ n ∈ s.table eid, s.Alive n
  | .notify r => ∀ n ∈ s.receiving r, s.Alive n
  | .closeAnswer => ∀ p ∈ s.responding, s.Alive p.1
  | _ => True

instance (s : State) : ∀ a : Act, Decidable (Careful s a)
  | .openEndpoint f eid _ fails =>
      inferInstanceAs (Decidable (s.Alive f ∧ s.Alive (s.target f eid) ∧
        ((s.endpoints (s.target f eid)).status = .free → ∀ failure ∈ fails, failure.taken = [])))
  | .openEnds =>
      inferInstanceAs (Decidable (∀ requestId ∈ s.process.opens, s.requests requestId ≠ .failed))
  | .closeEndpoint f eid _ =>
      inferInstanceAs (Decidable (s.Alive f ∧ s.Alive (s.target f eid)))
  | .release f _ =>
      inferInstanceAs (Decidable (s.Alive f ∧
        ((s.endpoints f).status = .free ∨ (s.endpoints f).status = .ok)))
  | .releaseEnds => isFalse id
  | .ioctl f => inferInstanceAs (Decidable (s.Alive f))
  | .getInfo eid => inferInstanceAs (Decidable (∀ n ∈ s.table eid, s.Alive n))
  | .notify r => inferInstanceAs (Decidable (∀ n ∈ s.receiving r, s.Alive n))
  | .closeAnswer => inferInstanceAs (Decidable (∀ p ∈ s.responding, s.Alive p.1))
  | .openFile | .openTimeout | .closeEnds | .closeTimeout | .receive _ _ | .answer _ _
  | .respond _ _ => isTrue trivial

/-! ## The invariant -/

/-- An endpoint that was opened has everything until it is freed. -/
structure Endpoint.Inv (e : Endpoint) : Prop extends e.Once where
  held : e.kfreed = 0 → e.status ≠ .free → ∀ r, e.taken r = e.given r + 1
  refcount : e.kfreed = 0 → e.refcount = 1

/-- An endpoint that was opened, or is freed. -/
def Endpoint.Used (e : Endpoint) : Prop := e.kfreed = 0 → e.status ≠ .free

/-- The endpoint that an open or a close waits at. -/
def Process.waits : Process → Option ℕ
  | .opening n _ | .closing n _ _ _ => some n
  | _ => none

structure Inv (s : State) : Prop extends s.Sound where
  endpoint : ∀ e, (s.endpoints e).Inv
  fresh : ∀ e, s.opened ≤ e → s.endpoints e = .unopened
  table : ∀ eid, ∀ n ∈ s.table eid, (s.endpoints n).Used
  responding : ∀ p ∈ s.responding, (s.endpoints p.1).Used
  waits : ∀ n ∈ s.process.waits, s.Alive n ∧ (s.endpoints n).status ≠ .free
  finishing : ∀ n, s.process = .finishing n → (s.endpoints n).Used

/-! ### Endpoints -/

namespace Endpoint

theorem Inv.unopened : Inv .unopened where
  balanced _ := ⟨Nat.le_refl _, Nat.zero_le _⟩
  kfreed := Nat.zero_le _
  freed h := absurd rfl h
  free _ _ := rfl
  held _ h := absurd rfl h
  refcount _ := rfl

theorem balanced_of_eq {given taken : ℕ} (h : given = taken) :
    given ≤ taken ∧ taken ≤ given + 1 := ⟨Nat.le_of_eq h, h ▸ Nat.le_succ given⟩

theorem balanced_of_succ {given taken : ℕ} (h : taken = given + 1) :
    given ≤ taken ∧ taken ≤ given + 1 := ⟨h ▸ Nat.le_succ given, Nat.le_of_eq h⟩

theorem count_all (r : Resource) : allResources.count r = 1 := by cases r <;> decide

theorem count_ungranted (r : Resource) : ungranted.count r + [queues].count r = 1 := by
  cases r <;> decide

variable {e : Endpoint}

/-- An endpoint that is free has nothing, and is given everything. -/
theorem Inv.opens (h : e.Inv) (halive : e.kfreed = 0) (hfree : e.status = .free) (eid : ℕ) :
    ({ e.take allResources with status := .initializing, index := eid } : Endpoint).Inv := by
  have hnone := h.free hfree
  have htaken : ∀ r, e.taken r + allResources.count r = e.given r + 1 := fun r => by
    rw [count_all, hnone]
  exact {
    balanced := fun r => balanced_of_succ (htaken r)
    kfreed := h.kfreed
    freed := fun hfreed => absurd halive hfreed
    free := nofun
    held := fun _ _ => htaken
    refcount := h.refcount }

/-- An open that fails before it has taken a list. -/
theorem Inv.fails (h : e.Inv) (halive : e.kfreed = 0) (hfree : e.status = .free) :
    ((e.take [queues]).give [queues]).Inv := by
  have hnone : ∀ r, e.given r + [queues].count r = e.taken r + [queues].count r := fun r => by
    rw [h.free hfree]
  exact {
    balanced := fun r => balanced_of_eq (hnone r)
    kfreed := h.kfreed
    freed := fun hfreed => absurd halive hfreed
    free := fun _ => hnone
    held := fun _ hne => absurd hfree hne
    refcount := h.refcount }

/-- An endpoint that was opened stays so. -/
theorem Inv.status (h : e.Inv) (halive : e.kfreed = 0) (hopened : e.status ≠ .free) (st : Status)
    (hst : st ≠ .free) (file : File) : ({ e with status := st, file } : Endpoint).Inv where
  balanced := h.balanced
  kfreed := h.kfreed
  freed hfreed := absurd halive hfreed
  free hfree := absurd hfree hst
  held _ _ := h.held halive hopened
  refcount := h.refcount

theorem krefPut_of_one (hone : e.refcount = 1) :
    e.krefPut = { { e with refcount := e.refcount - 1 }.give [queues] with
      kfreed := e.kfreed + 1 } := by
  unfold krefPut
  dsimp only
  rw [if_pos (by omega)]

theorem kfreed_krefPut (hone : e.refcount = 1) : e.krefPut.kfreed = e.kfreed + 1 := by
  rw [krefPut_of_one hone]

/-- The last reference is put after the grants are ended. -/
theorem Inv.closes (h : e.Inv) (halive : e.kfreed = 0) (hopened : e.status ≠ .free) :
    (e.give ungranted).krefPut.Inv := by
  have hrefcount : (e.give ungranted).refcount = 1 := h.refcount halive
  have hgiven : ∀ r, e.given r + ungranted.count r + [queues].count r = e.taken r := fun r => by
    rw [Nat.add_assoc, count_ungranted, h.held halive hopened]
  rw [krefPut_of_one hrefcount]
  exact {
    balanced := fun r => balanced_of_eq (hgiven r)
    kfreed := Nat.succ_le_succ (Nat.le_of_eq halive)
    freed := fun _ => hgiven
    free := fun _ => hgiven
    held := fun hzero => absurd hzero (Nat.succ_ne_zero _)
    refcount := fun hzero => absurd hzero (Nat.succ_ne_zero _) }

/-- The release of a file whose endpoint is not open. -/
theorem Inv.frees (h : e.Inv) (halive : e.kfreed = 0) (hfree : e.status = .free) :
    ({ e with file := .released, kfreed := e.kfreed + 1 } : Endpoint).Inv where
  balanced := h.balanced
  kfreed := Nat.succ_le_succ (Nat.le_of_eq halive)
  freed _ := h.free hfree
  free := h.free
  held hzero := absurd hzero (Nat.succ_ne_zero _)
  refcount hzero := absurd hzero (Nat.succ_ne_zero _)

end Endpoint

theorem Inv.start : Inv start where
  once _ := Endpoint.Inv.unopened.toOnce
  released _ := nofun
  stray := rfl
  endpoint _ := .unopened
  fresh _ _ := rfl
  table _ := nofun
  responding := nofun
  waits := nofun
  finishing _ := nofun

variable {s s' : State} {n : ℕ} {v : Endpoint}

/-! ### One endpoint -/

theorem set_endpoints : (s.set n v).endpoints n = v := update_self ..

theorem set_endpoints_of_ne {m : ℕ} (hne : m ≠ n) : (s.set n v).endpoints m = s.endpoints m :=
  update_of_ne hne ..

/-- What holds of one endpoint holds after another is set, and of that one if it is made to. -/
theorem forall_set {P : Endpoint → Prop} {m : ℕ} (h : P (s.endpoints m)) (hv : P v) :
    P ((s.set n v).endpoints m) := by
  by_cases hm : m = n
  · rw [hm, set_endpoints]
    exact hv
  · rw [set_endpoints_of_ne hm]
    exact h

theorem use_of_alive (h : s.Alive n) : s.use n = s := by
  unfold State.use
  rw [h]
  cases s
  simp

theorem stray_use : (s.use n).stray = false ↔ s.stray = false ∧ s.Alive n := by
  unfold State.use State.Alive
  simp

/-! ### Parts of the state -/

theorem Inv.lt_opened (h : Inv s) (hfile : (s.endpoints n).file = .opened) : n < s.opened := by
  by_contra hge
  rw [h.fresh n (not_lt.1 hge)] at hfile
  cases hfile

theorem Inv.lt_opened_of_used (h : Inv s) (hused : (s.endpoints n).Used) : n < s.opened := by
  by_contra hge
  rw [h.fresh n (not_lt.1 hge)] at hused
  exact hused rfl rfl

theorem Inv.target_lt (h : Inv s) {f : ℕ} (eid : ℕ) (hfile : (s.endpoints f).file = .opened) :
    s.target f eid < s.opened := by
  unfold State.target
  split_ifs
  · exact h.lt_opened hfile
  · cases htable : s.table eid with
    | none => exact h.lt_opened hfile
    | some n => exact h.lt_opened_of_used (h.table eid n htable)

/-- What the ring carries, and what handlers look up for events, is free. -/
theorem Inv.ring (h : Inv s) (requests : ℕ → RequestStatus) (pending : List Request)
    (receiving : Ring → Option ℕ) : Inv { s with requests, pending, receiving } where
  once := h.once
  released := h.released
  stray := h.stray
  endpoint := h.endpoint
  fresh := h.fresh
  table := h.table
  responding := h.responding
  waits := h.waits
  finishing := h.finishing

theorem Inv.entry (h : Inv s) (eid : ℕ) (o : Option ℕ)
    (ho : ∀ n ∈ o, (s.endpoints n).Used) : Inv { s with table := update s.table eid o } where
  once := h.once
  released := h.released
  stray := h.stray
  endpoint := h.endpoint
  fresh := h.fresh
  table eid' n hn := by
    have hn : update s.table eid o eid' = some n := hn
    by_cases heid : eid' = eid
    · rw [heid, update_self] at hn
      exact ho n hn
    · rw [update_of_ne heid] at hn
      exact h.table eid' n hn
  responding := h.responding
  waits := h.waits
  finishing := h.finishing

/-- One endpoint changes, and what the process is in. -/
theorem Inv.set (h : Inv s) (hn : n < s.opened) (hv : v.Inv)
    (hused : (s.endpoints n).Used → v.Used) (p : Process)
    (hfile : v.file = .released → v.kfreed = 1 ∨ p.Releases n)
    (hreleases : ∀ e ≠ n, s.process.Releases e → p.Releases e)
    (hwaits : ∀ m ∈ p.waits, (s.set n v).Alive m ∧ ((s.set n v).endpoints m).status ≠ .free)
    (hfinishing : ∀ m, p = .finishing m → ((s.set n v).endpoints m).Used) :
    Inv { s.set n v with process := p } := by
  have husedSet : ∀ m, (s.endpoints m).Used → ((s.set n v).endpoints m).Used := fun m hm => by
    by_cases hmn : m = n
    · rw [hmn, set_endpoints]
      exact hused (hmn ▸ hm)
    · rw [set_endpoints_of_ne hmn]
      exact hm
  refine {
    once := fun e => (forall_set (P := Endpoint.Inv) (h.endpoint e) hv).toOnce
    released := fun e => ?_
    stray := h.stray
    endpoint := fun e => forall_set (P := Endpoint.Inv) (h.endpoint e) hv
    fresh := fun e he => ?_
    table := fun eid m hm => husedSet m (h.table eid m hm)
    responding := fun r hr => husedSet r.1 (h.responding r hr)
    waits := hwaits
    finishing := hfinishing }
  · show ((s.set n v).endpoints e).file = .released →
      ((s.set n v).endpoints e).kfreed = 1 ∨ p.Releases e
    by_cases he : e = n
    · rw [he, set_endpoints]
      exact hfile
    · rw [set_endpoints_of_ne he]
      exact fun hf => (h.released e hf).imp_right (hreleases e he)
  · have hne : e ≠ n := fun heq => absurd hn (not_lt.2 (heq ▸ he))
    exact (set_endpoints_of_ne hne).trans (h.fresh e he)

/-- The process goes on without a change to an endpoint. -/
theorem Inv.goes (h : Inv s) (p : Process) (hreleases : ∀ e, s.process.Releases e → p.Releases e)
    (hwaits : ∀ m ∈ p.waits, s.Alive m ∧ (s.endpoints m).status ≠ .free)
    (hfinishing : ∀ m, p = .finishing m → (s.endpoints m).Used) :
    Inv { s with process := p } where
  once := h.once
  released e hf := (h.released e hf).imp_right (hreleases e)
  stray := h.stray
  endpoint := h.endpoint
  fresh := h.fresh
  table := h.table
  responding := h.responding
  waits := hwaits
  finishing := hfinishing

theorem Inv.poked {p : Process} {q : Request} (h : Inv { s with process := p })
    (hused : (s.endpoints n).Used) : Inv (s.poke q n p) :=
  (h.entry q.eid (some n) (by rintro _ ⟨⟩; exact hused)).ring _ _ _

/-! ## Steps -/

theorem Inv.openFile (h : Inv s) (hidle : s.process = .idle) :
    Inv { s.set s.opened { Endpoint.unopened with file := .opened } with
      opened := s.opened + 1 } := by
  have hnew : ({ Endpoint.unopened with file := .opened } : Endpoint).Inv :=
    { Endpoint.Inv.unopened with }
  have hne : ∀ m, (s.endpoints m).Used → m ≠ s.opened := fun m hm =>
    Nat.ne_of_lt (h.lt_opened_of_used hm)
  have hsame : ∀ m, (s.endpoints m).Used →
      ((s.set s.opened { Endpoint.unopened with file := .opened }).endpoints m).Used := by
    intro m hm
    rw [set_endpoints_of_ne (hne m hm)]
    exact hm
  refine {
    once := fun e => (forall_set (P := Endpoint.Inv) (h.endpoint e) hnew).toOnce
    released := fun e => ?_
    stray := h.stray
    endpoint := fun e => forall_set (P := Endpoint.Inv) (h.endpoint e) hnew
    fresh := fun e he => ?_
    table := fun eid m hm => hsame m (h.table eid m hm)
    responding := fun r hr => hsame r.1 (h.responding r hr)
    waits := fun m hm => by
      have hm : m ∈ s.process.waits := hm
      rw [hidle] at hm
      cases hm
    finishing := fun m hm => by cases hidle.symm.trans hm }
  · exact forall_set (P := fun v => v.file = .released → v.kfreed = 1 ∨ s.process.Releases e)
      (h.released e) nofun
  · have hne : e ≠ s.opened := fun heq => absurd (heq ▸ he) (Nat.not_succ_le_self _)
    exact (set_endpoints_of_ne hne).trans (h.fresh e (Nat.le_of_succ_le he))

/-- A file that is open is not on its way to be released. -/
theorem not_releases {p : Process} (hidle : p = .idle) (e : ℕ) : ¬ p.Releases e := by
  rw [hidle]
  exact id

theorem Inv.kfreed_of_released (h : Inv s) (hidle : s.process = .idle)
    (hfile : (s.endpoints n).file = .released) : (s.endpoints n).kfreed = 1 :=
  (h.released n hfile).resolve_right (not_releases hidle n)

theorem Inv.openEndpoint (h : Inv s) {f eid requestId : ℕ} {fails : Option Failure}
    (hcareful : Careful s (.openEndpoint f eid requestId fails))
    (hs : step s (.openEndpoint f eid requestId fails) = some s') : Inv s' := by
  obtain ⟨⟨hidle, hfile⟩, rfl⟩ := guard_eq_some.1 hs
  obtain ⟨halive, halive', hlists⟩ := hcareful
  have hlt := h.target_lt eid hfile
  generalize s.target f eid = n at hlt halive' hlists ⊢
  rw [use_of_alive halive, use_of_alive halive']
  have hother : ∀ {p : Process}, ∀ e ≠ n, s.process.Releases e → p.Releases e := fun e _ hr =>
    absurd hr (not_releases hidle e)
  split_ifs with hfree
  · exact h
  · have hfree : (s.endpoints n).status = .free := not_not.1 hfree
    cases fails with
    | none =>
        have hopened := (h.endpoint n).opens halive' hfree eid
        refine Inv.poked ?_ ?_
        · refine h.set hlt hopened (fun _ _ => nofun) (.opening n requestId)
            (fun hf => .inl (h.kfreed_of_released hidle hf)) hother ?_ nofun
          rintro m ⟨⟩
          rw [State.Alive, set_endpoints]
          exact ⟨halive', nofun⟩
        · rw [set_endpoints]
          exact fun _ => nofun
    | some failure =>
        have hnone := hlists hfree failure rfl
        have hfailed : Inv (s.set n (((s.endpoints n).take [queues]).give [queues])) :=
          h.set hlt ((h.endpoint n).fails halive' hfree)
            (fun hused => absurd hfree (hused halive')) s.process
            (fun hf => .inl (h.kfreed_of_released hidle hf)) (fun e _ hr => hr)
            (by rw [hidle]; nofun) (by rw [hidle]; nofun)
        cases failure with
        | alloc => exact h
        | sendqList => exact hfailed
        | recvqList | grantRefs => cases hnone

theorem Inv.openEnds (h : Inv s) (hcareful : Careful s .openEnds)
    (hs : step s .openEnds = some s') : Inv s' := by
  simp only [step, stepProcess] at hs
  split at hs
  · rename_i n requestId hprocess
    obtain ⟨halive, hopened⟩ := h.waits n (by rw [hprocess]; rfl)
    split at hs
    · cases hs
    · cases hs
      rw [use_of_alive halive]
      refine h.set (h.lt_opened_of_used fun _ => hopened)
        ((h.endpoint n).status halive hopened .ok nofun _) (fun _ _ => nofun) .idle
        (fun hf => .inl ?_) (fun e _ hr => ?_) nofun nofun
      · refine (h.released n hf).resolve_right ?_
        rw [hprocess]
        exact id
      · rw [hprocess] at hr
        exact hr
    · rename_i hfailed
      exact absurd hfailed (hcareful requestId (by rw [hprocess]; rfl))
  · cases hs

theorem Inv.openTimeout (h : Inv s) (hs : step s .openTimeout = some s') : Inv s' := by
  simp only [step, stepProcess] at hs
  split at hs
  · rename_i n requestId hprocess
    obtain ⟨-, rfl⟩ := guard_eq_some.1 hs
    exact h.goes .idle (fun e hr => by rw [hprocess] at hr; exact hr) nofun nofun
  · cases hs

theorem Inv.closeEndpoint (h : Inv s) {f eid requestId : ℕ}
    (hcareful : Careful s (.closeEndpoint f eid requestId))
    (hs : step s (.closeEndpoint f eid requestId) = some s') : Inv s' := by
  obtain ⟨⟨hidle, hfile⟩, rfl⟩ := guard_eq_some.1 hs
  obtain ⟨halive, halive'⟩ := hcareful
  generalize s.target f eid = n at halive' ⊢
  rw [use_of_alive halive, use_of_alive halive']
  split_ifs with hfree
  · exact h
  · refine Inv.poked (h.goes (.closing n eid requestId false) ?_ ?_ nofun) fun _ => hfree
    · exact fun e hr => absurd hr (not_releases hidle e)
    · rintro m ⟨⟩
      exact ⟨halive', hfree⟩

/-- A close that ends frees the structure. -/
theorem Inv.closeEnds (h : Inv s) (hs : step s .closeEnds = some s') : Inv s' := by
  simp only [step, stepProcess] at hs
  split at hs
  · rename_i n eid requestId release hprocess
    obtain ⟨halive, hopened⟩ := h.waits n (by rw [hprocess]; rfl)
    rw [Option.ite_none_left_eq_some] at hs
    obtain ⟨-, hs⟩ := hs
    cases hs
    rw [use_of_alive halive]
    have hone : ((s.endpoints n).give ungranted).refcount = 1 := (h.endpoint n).refcount halive
    have hfreed : ((s.endpoints n).give ungranted).krefPut.kfreed = 1 :=
      (Endpoint.kfreed_krefPut hone).trans (congrArg (· + 1) halive)
    have hused : ((s.endpoints n).give ungranted).krefPut.Used := fun hzero => by
      rw [hfreed] at hzero
      cases hzero
    refine Inv.entry (s := { s.set n ((s.endpoints n).give ungranted).krefPut with
      process := if release then .finishing n else .idle }) ?_ eid none nofun
    refine h.set (h.lt_opened_of_used fun _ => hopened)
      ((h.endpoint n).closes halive hopened) (fun _ => hused) _ (fun _ => .inl hfreed)
      (fun e he hr => ?_) ?_ ?_
    · rw [hprocess] at hr
      cases release with
      | true => exact absurd hr.symm he
      | false => exact hr.elim
    · cases release <;> exact nofun
    · cases release with
      | true =>
          rintro m ⟨⟩
          rw [set_endpoints]
          exact hused
      | false => exact nofun
  · cases hs

theorem Inv.closeTimeout (h : Inv s) (hs : step s .closeTimeout = some s') : Inv s' := by
  simp only [step, stepProcess] at hs
  split at hs
  · rename_i n eid requestId release hprocess
    obtain ⟨-, hopened⟩ := h.waits n (by rw [hprocess]; rfl)
    obtain ⟨-, rfl⟩ := guard_eq_some.1 hs
    refine h.goes _ (fun e hr => ?_) ?_ ?_
    · rw [hprocess] at hr
      cases release with
      | true => exact hr
      | false => exact hr
    · cases release <;> exact nofun
    · cases release with
      | true =>
          rintro m ⟨⟩
          exact fun _ => hopened
      | false => exact nofun
  · cases hs

theorem Inv.release (h : Inv s) {f requestId : ℕ} (hcareful : Careful s (.release f requestId))
    (hs : step s (.release f requestId) = some s') : Inv s' := by
  obtain ⟨⟨hidle, hfile⟩, rfl⟩ := guard_eq_some.1 hs
  obtain ⟨halive, hstatus⟩ := hcareful
  have hlt := h.lt_opened hfile
  have hother : ∀ {p : Process}, ∀ e ≠ f, s.process.Releases e → p.Releases e := fun e _ hr =>
    absurd hr (not_releases hidle e)
  rw [use_of_alive halive]
  rcases hstatus with hfree | hok
  · simp only [hfree]
    have hfreed : (s.endpoints f).kfreed + 1 = 1 := congrArg (· + 1) halive
    rw [← hfree]
    exact h.set hlt ((h.endpoint f).frees halive hfree) (fun _ hzero => absurd hzero nofun)
      s.process (fun _ => .inl hfreed) (fun e _ hr => hr) (by rw [hidle]; nofun)
      (by rw [hidle]; nofun)
  · have hopened : (s.endpoints f).status ≠ .free := by rw [hok]; nofun
    simp only [hok]
    refine Inv.poked ?_ ?_
    · refine h.set hlt ((h.endpoint f).status halive hopened .closing nofun .released)
        (fun _ _ => nofun)
        (.closing f (s.endpoints f).index requestId true) (fun _ => .inr rfl) hother ?_ nofun
      rintro m ⟨⟩
      rw [State.Alive, set_endpoints]
      exact ⟨halive, nofun⟩
    · rw [set_endpoints]
      exact fun _ => nofun

/-- What a handler of a close has looked up. -/
theorem Inv.responds (h : Inv s) {o : Option (ℕ × ℕ)} (ho : ∀ p ∈ o, (s.endpoints p.1).Used) :
    Inv { s with responding := o } where
  once := h.once
  released := h.released
  stray := h.stray
  endpoint := h.endpoint
  fresh := h.fresh
  table := h.table
  responding := ho
  waits := h.waits
  finishing := h.finishing

theorem Inv.respond (h : Inv s) {q : Request} {ret : ℤ}
    (hs : step s (.respond q ret) = some s') : Inv s' := by
  obtain ⟨-, rfl⟩ := guard_eq_some.1 hs
  dsimp only
  split
  · exact h.ring _ _ _
  · rename_i n hfunc htable
    split_ifs
    · exact h.ring _ _ _
    · refine (h.ring s.requests (s.pending.erase q) s.receiving).responds ?_
      rintro _ ⟨⟩
      exact h.table q.eid n htable
  · exact h.ring _ _ _

theorem Inv.closeAnswer (h : Inv s) (hcareful : Careful s .closeAnswer)
    (hs : step s .closeAnswer = some s') : Inv s' := by
  obtain ⟨⟨n, requestId⟩, hresponding, rfl⟩ := Option.map_eq_some_iff.1 hs
  have halive : s.Alive n := hcareful _ hresponding
  have hopened : (s.endpoints n).status ≠ .free := h.responding _ hresponding halive
  dsimp only
  rw [use_of_alive halive]
  have hset : Inv { s.set n { s.endpoints n with status := .ok } with process := s.process } := by
    refine h.set (h.lt_opened_of_used fun _ => hopened)
      ((h.endpoint n).status halive hopened .ok nofun _) (fun _ _ => nofun) s.process
      (h.released n) (fun e _ hr => hr) (fun m hm => ?_) (fun m hm => ?_)
    · exact forall_set (P := fun v => v.kfreed = 0 ∧ v.status ≠ .free) (h.waits m hm)
        ⟨halive, nofun⟩
    · exact forall_set (P := Endpoint.Used) (h.finishing m hm) fun _ => nofun
  exact (hset.responds (o := none) nofun).ring _ _ _

/-- A careful step keeps the invariant. -/
theorem Inv.step {a : Act} (h : Inv s) (hcareful : Careful s a)
    (hs : machine.step s a = some s') : Inv s' := by
  cases a with
  | openFile =>
      obtain ⟨hidle, rfl⟩ := guard_eq_some.1 hs
      exact h.openFile hidle
  | openEndpoint f eid requestId fails => exact h.openEndpoint hcareful hs
  | openEnds => exact h.openEnds hcareful hs
  | openTimeout => exact h.openTimeout hs
  | closeEndpoint f eid requestId => exact h.closeEndpoint hcareful hs
  | closeEnds => exact h.closeEnds hs
  | closeTimeout => exact h.closeTimeout hs
  | release f requestId => exact h.release hcareful hs
  | releaseEnds => cases hcareful
  | ioctl f =>
      obtain ⟨-, rfl⟩ := guard_eq_some.1 hs
      rwa [use_of_alive hcareful]
  | getInfo eid =>
      obtain ⟨-, hs⟩ := Option.ite_none_right_eq_some.1 hs
      obtain ⟨n, htable, rfl⟩ := Option.map_eq_some_iff.1 hs
      rwa [use_of_alive (hcareful n htable)]
  | receive r eid =>
      obtain ⟨-, rfl⟩ := guard_eq_some.1 hs
      exact h.ring _ _ _
  | notify r =>
      obtain ⟨n, hreceiving, rfl⟩ := Option.map_eq_some_iff.1 hs
      rw [use_of_alive (hcareful n hreceiving)]
      exact h.ring _ _ _
  | answer requestId status =>
      obtain ⟨-, rfl⟩ := guard_eq_some.1 hs
      exact h.ring _ _ _
  | respond q ret => exact h.respond hs
  | closeAnswer => exact h.closeAnswer hcareful hs

/-! ## What a step that is not careful leads to -/

theorem alive_of_use {f : ℕ} (hs : ((s.use f).use n).stray = false) : s.Alive f ∧ s.Alive n := by
  obtain ⟨hs, halive⟩ := stray_use.1 hs
  exact ⟨(stray_use.1 hs).2, halive⟩

/-- What an open that fails keeps is never given back. -/
theorem Failure.taken_eq_nil {failure : Failure} {e : Endpoint}
    (hbefore : ∀ r, e.given r = e.taken r)
    (hafter : ∀ r, e.given r + [queues].count r = e.taken r + (queues :: failure.taken).count r) :
    failure.taken = [] := by
  have hnone : ∀ r, failure.taken.count r = 0 := fun r => by
    have hr := hafter r
    rw [hbefore r, List.count_cons, List.count_cons, List.count_nil] at hr
    omega
  exact List.eq_nil_iff_forall_not_mem.2 fun r hr => List.count_pos_iff.2 hr |>.ne' (hnone r)

theorem careful_openEndpoint (h : Inv s) {f eid requestId : ℕ} {fails : Option Failure}
    (hs : step s (.openEndpoint f eid requestId fails) = some s') (hc : s'.Sound) :
    Careful s (.openEndpoint f eid requestId fails) := by
  obtain ⟨-, rfl⟩ := guard_eq_some.1 hs
  show s.Alive f ∧ s.Alive (s.target f eid) ∧ _
  generalize s.target f eid = n at hc ⊢
  have hstray : ((s.use f).use n).stray = false := by
    have hstray := hc.stray
    split_ifs at hstray with hfree
    · exact hstray
    · rcases fails with _ | failure
      · exact hstray
      · cases failure <;> exact hstray
  obtain ⟨halive, halive'⟩ := alive_of_use hstray
  refine ⟨halive, halive', fun hfree failure hfails => ?_⟩
  obtain rfl : fails = some failure := hfails
  rw [if_neg (not_not.2 hfree)] at hc
  have hbefore := (h.once n).free hfree
  have hkept : ((((s.use f).use n).set n (((s.endpoints n).take
      (queues :: failure.taken)).give [queues])).endpoints n).Once → failure.taken = [] := by
    rw [set_endpoints]
    exact fun honce => Failure.taken_eq_nil hbefore (honce.free hfree)
  cases failure with
  | alloc => rfl
  | sendqList => rfl
  | recvqList | grantRefs => exact hkept (hc.once n)

theorem careful_openEnds (h : Inv s) (hs : step s .openEnds = some s') (hc : s'.Sound) :
    Careful s .openEnds := by
  intro requestId hrequest hfailed
  simp only [step, stepProcess] at hs
  split at hs
  · rename_i n requestId' hprocess
    rw [hprocess] at hrequest
    cases hrequest
    obtain ⟨halive, hopened⟩ := h.waits n (by rw [hprocess]; rfl)
    rw [hfailed] at hs
    cases hs
    have honce : (((s.use n).set n { (s.endpoints n).give [queues] with
      status := .free }).endpoints n).Once := hc.once n
    rw [set_endpoints] at honce
    have hgiven : (s.endpoints n).given grants = (s.endpoints n).taken grants :=
      honce.free rfl grants
    have hheld := (h.endpoint n).held halive hopened grants
    omega
  · cases hs

theorem careful_release {f requestId : ℕ}
    (hs : step s (.release f requestId) = some s') (hc : s'.Sound) :
    Careful s (.release f requestId) := by
  obtain ⟨⟨hidle, -⟩, rfl⟩ := guard_eq_some.1 hs
  have halive : s.Alive f := by
    refine (stray_use.1 (?_ : (s.use f).stray = false)).2
    have hstray := hc.stray
    dsimp only at hstray
    split at hstray <;> exact hstray
  refine ⟨halive, ?_⟩
  -- the structure is not freed, and no release is on its way
  have hlost : ¬ (((s.use f).set f { s.endpoints f with file := .released }).Sound) := fun hc => by
    have hreleased := hc.released f
    rw [set_endpoints] at hreleased
    rcases hreleased rfl with hfreed | hreleases
    · rw [show (s.endpoints f).kfreed = 0 from halive] at hfreed
      cases hfreed
    · exact not_releases hidle f hreleases
  cases hstatus : (s.endpoints f).status with
  | free => exact .inl rfl
  | ok => exact .inr rfl
  | initializing | closing =>
      simp only [hstatus] at hc
      rw [← hstatus] at hc
      exact absurd hc hlost

theorem careful_releaseEnds (h : Inv s) (hs : step s .releaseEnds = some s')
    (hc : s'.Sound) : False := by
  simp only [step, stepProcess] at hs
  split at hs
  · rename_i n hprocess
    cases hs
    have halive : s.Alive n := (stray_use.1 hc.stray).2
    have hopened := h.finishing n hprocess halive
    have honce : (((s.use n).set n (s.endpoints n).krefPut).endpoints n).Once := hc.once n
    rw [set_endpoints, Endpoint.krefPut_of_one ((h.endpoint n).refcount halive)] at honce
    -- the grants of the endpoint are not ended
    have hgiven : (s.endpoints n).given grants = (s.endpoints n).taken grants :=
      honce.freed (Nat.succ_ne_zero _) grants
    have hheld := (h.endpoint n).held halive hopened grants
    omega
  · cases hs

theorem Inv.careful {a : Act} (h : Inv s) (hs : machine.step s a = some s') (hc : s'.Sound) :
    Careful s a := by
  cases a with
  | openEndpoint f eid requestId fails => exact careful_openEndpoint h hs hc
  | openEnds => exact careful_openEnds h hs hc
  | closeEndpoint f eid requestId =>
      obtain ⟨-, rfl⟩ := guard_eq_some.1 hs
      have hstray := hc.stray
      split_ifs at hstray <;> exact alive_of_use hstray
  | release f requestId => exact careful_release hs hc
  | releaseEnds => exact careful_releaseEnds h hs hc
  | ioctl f =>
      obtain ⟨-, rfl⟩ := guard_eq_some.1 hs
      exact (stray_use.1 hc.stray).2
  | getInfo eid =>
      obtain ⟨-, hs⟩ := Option.ite_none_right_eq_some.1 hs
      obtain ⟨n, htable, rfl⟩ := Option.map_eq_some_iff.1 hs
      intro n' hn'
      cases htable.symm.trans hn'
      exact (stray_use.1 hc.stray).2
  | notify r =>
      obtain ⟨n, hreceiving, rfl⟩ := Option.map_eq_some_iff.1 hs
      intro n' hn'
      cases hreceiving.symm.trans hn'
      exact (stray_use.1 hc.stray).2
  | closeAnswer =>
      obtain ⟨⟨n, requestId⟩, hresponding, rfl⟩ := Option.map_eq_some_iff.1 hs
      intro p hp
      cases hresponding.symm.trans hp
      exact (stray_use.1 hc.stray).2
  | openFile | openTimeout | closeEnds | closeTimeout | receive _ _ | answer _ _ | respond _ _ =>
      trivial

/-! ## Every run -/

/-- A run goes through sound states only, exactly if its steps are all careful. -/
theorem endpoint_released {acts : List Act} {t : State} (h : machine.exec start acts = some t) :
    machine.Meets Careful start acts ↔
      ∀ bs, bs <+: acts → ∀ s, machine.exec start bs = some s → s.Sound := by
  rw [Machine.meets_of_exec h]
  refine Machine.meets_iff_forall_prefix (I := Inv) ?_ (fun _ hI => hI.toSound) ?_ Inv.start
  · exact fun s a s' hI hcareful hs => hI.step (hcareful s' hs) hs
  · exact fun s a hI => ⟨fun hcareful s' hs => (hI.step (hcareful s' hs) hs).toSound,
      fun hsound s' hs => hI.careful hs (hsound s' hs)⟩

def openRequest : Request := { func := .openEndpoint, eid := 3, requestId := 5 }

def closeRequest : Request := { func := .closeEndpoint, eid := 3, requestId := 6 }

/-- The first file opens an endpoint. -/
def openOne : List Act :=
  [.openFile, .openEndpoint 0 3 5 none, .respond openRequest 0, .openEnds]

/-- An endpoint that is opened and closed, and receives an event; and another file whose open fails,
and that is released. -/
def openAndClose : List Act :=
  openOne ++ [.ioctl 0, .receive .recvRing 3, .notify .recvRing, .closeEndpoint 0 3 6,
    .respond closeRequest 0, .closeAnswer, .closeEnds, .openFile,
    .openEndpoint 1 3 7 (some .sendqList), .release 1 8]

theorem endpoint_released_openAndClose :
    ∃ s, machine.exec start openAndClose = some s ∧
      (s.endpoints 0).kfreed = 1 ∧ (s.endpoints 1).kfreed = 1 ∧ s.Sound := by
  obtain ⟨s, hs, hfreed⟩ := Option.map_eq_some_iff.1
    (show (machine.exec start openAndClose).map
      (fun s => ((s.endpoints 0).kfreed, (s.endpoints 1).kfreed)) = some (1, 1) by decide +kernel)
  obtain ⟨hfreed, hfreed'⟩ := Prod.mk.inj hfreed
  exact ⟨s, hs, hfreed, hfreed',
    (endpoint_released hs).1 (by decide +kernel) _ (List.prefix_refl _) s hs⟩

/-- The release of a file that is open uses the endpoint that its close has freed; and one whose
open gave up waiting is never freed. -/
theorem endpoint_not_released :
    (∃ s, machine.exec start (openOne ++ [.release 0 6, .respond closeRequest 0, .closeAnswer,
        .closeEnds, .releaseEnds]) = some s ∧ ¬ s.Sound) ∧
      ∃ s, machine.exec start
        [.openFile, .openEndpoint 0 3 5 none, .openTimeout, .release 0 6] = some s ∧ ¬ s.Sound := by
  constructor
  · obtain ⟨s, hs, hstray⟩ := Option.map_eq_some_iff.1
      (show (machine.exec start (openOne ++ [.release 0 6, .respond closeRequest 0, .closeAnswer,
        .closeEnds, .releaseEnds])).map (·.stray) = some true by decide +kernel)
    exact ⟨s, hs, fun hc => Bool.noConfusion (hstray.symm.trans hc.stray)⟩
  · obtain ⟨s, hs, hlost⟩ := Option.map_eq_some_iff.1
      (show (machine.exec start
        [.openFile, .openEndpoint 0 3 5 none, .openTimeout, .release 0 6]).map
          (fun s => ((s.endpoints 0).file, (s.endpoints 0).kfreed, s.process)) =
        some (.released, 0, .idle) by decide +kernel)
    simp only [Prod.mk.injEq] at hlost
    obtain ⟨hfile, hkfreed, hidle⟩ := hlost
    refine ⟨s, hs, fun hc => ?_⟩
    rcases hc.released 0 hfile with hfreed | hreleases
    · rw [hkfreed] at hfreed
      cases hfreed
    · exact not_releases hidle 0 hreleases

end Xen2mx.Lifecycle.Frontend
