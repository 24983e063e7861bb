/-
# `Xen2mx.Xenfront.Failures` — an ioctl that fails leaves the ring as it was

A failing ioctl gives nothing back: there is no way to return a slot.  If it
fails at a check made before `omx_ring_get_request` the ring is as if the call
had never been made, whatever other calls do meanwhile.  If it fails at a check
made after, the producer index keeps the slot, and the next call that pokes the
backend publishes whatever the slot holds.

**Proved here.**

    every failing call fails before its slot  ⟹  the run without the failed calls
                                                  is a run to the same ring
                                                  (`failedIoctl_noTrace`)
-/
import Xen2mx.Xenfront.Calls

namespace Xen2mx.Xenfront

open Xenback (Func RingSize)

variable {ι D : Type*} [DecidableEq ι] (n : RingSize) (calls : ι → Call D)

/-! ## The statement -/

/-- The call whose code an action runs. -/
def Act.caller : Act ι D → Option ι
  | .call c _ | .fail c _ | .timeout c | .readData c => some c
  | _ => none

def Pc.hasFailed : Pc D → Bool
  | .failed _ => true
  | _ => false

/-- The state without the calls in `gone`: they have not begun. -/
def State.without (s : State ι D) (gone : ι → Bool) : State ι D :=
  { s with pc := fun c => if gone c then .check 0 else s.pc c }

/-- The calls that have failed. -/
def State.failed (s : State ι D) (c : ι) : Bool := (s.pc c).hasFailed

/-- The action is not one of a call in `gone`. -/
def Act.spares (gone : ι → Bool) (a : Act ι D) : Bool := a.caller.all fun c => !gone c

/-- The failed calls have left no trace: the other actions alone lead to the same
ring, the same indexes and the same statuses, and no index is left with a failed call. -/
structure NoTrace (m : Machine (State ι D) (Act ι D)) (as : List (Act ι D)) (s : State ι D) : Prop where
  erased : m.exec m.init (as.filter (Act.spares s.failed)) = some (s.without s.failed)
  no_slot : ∀ c idx, s.pc c ≠ .failed (some idx)

/-- The call has not asked for a slot. -/
def Pc.isCheck : Pc D → Bool
  | .check _ => true
  | _ => false

/-- A call that fails does so at a check it makes before `omx_ring_get_request`. -/
def FailsEarly (s : State ι D) : Act ι D → Prop
  | .fail c _ => (s.pc c).isCheck = true
  | _ => True

instance FailsEarly.decidable (s : State ι D) (a : Act ι D) : Decidable (FailsEarly s a) :=
  match a with
  | .fail c _ => inferInstanceAs (Decidable ((s.pc c).isCheck = true))
  | .call _ _ | .timeout _ | .readData _ | .answer _ _ | .pushResponses | .interrupt
  | .setEndpoint _ _ | .setUserRegion _ _ _ => isTrue trivial

/-! ## Removing calls -/

variable {gone : ι → Bool}

omit [DecidableEq ι] in
theorem State.without_pc {s : State ι D} {c : ι} (h : gone c = false) :
    (s.without gone).pc c = s.pc c := by
  simp only [State.without, h, Bool.false_eq_true, if_false]

/-- A step of a call that stays does not depend on the calls that are removed. -/
theorem State.run_without {s t : State ι D} {c : ι} (hc : gone c = false)
    {code : Shared D → Pc D → Option (Shared D × Pc D)} (h : s.run c code = some t) :
    (s.without gone).run c code = some (t.without gone) := by
  obtain ⟨r, hr, rfl⟩ := Option.map_eq_some_iff.1 h
  refine Option.map_eq_some_iff.2 ⟨r, ?_, ?_⟩
  · rw [State.without_pc hc]
    exact hr
  · simp only [State.without, State.mk.injEq, true_and]
    funext c'
    by_cases hc' : c' = c
    · simp only [hc', hc, if_true, Bool.false_eq_true, if_false]
    · simp only [hc', if_false]

/-- A step of a removed call that leaves the ring alone cannot be told from no step. -/
theorem State.run_gone {s t : State ι D} {c : ι} (hc : gone c = true)
    {code : Shared D → Pc D → Option (Shared D × Pc D)} (h : s.run c code = some t)
    (hsh : t.toShared = s.toShared) : t.without gone = s.without gone := by
  obtain ⟨r, hr, rfl⟩ := Option.map_eq_some_iff.1 h
  simp only at hsh
  simp only [State.without, State.mk.injEq, hsh, true_and]
  funext c'
  by_cases hc' : c' = c
  · simp only [hc', hc, if_true]
  · simp only [hc', if_false]

theorem step_gone {s t : State ι D} {a : Act ι D} {c : ι} (ha : a.caller = some c)
    (hc : gone c = true) (h : step n calls s a = some t) (hsh : t.toShared = s.toShared) :
    t.without gone = s.without gone := by
  cases a with
  | call c' junk | fail c' junk | timeout c' | readData c' =>
      cases ha
      exact State.run_gone hc h hsh
  | answer | interrupt | pushResponses | setEndpoint | setUserRegion => cases ha

theorem step_without {s t : State ι D} {a : Act ι D} (ha : a.spares gone = true)
    (h : step n calls s a = some t) : step n calls (s.without gone) a = some (t.without gone) := by
  cases a with
  | call c junk | fail c junk | timeout c | readData c =>
      exact State.run_without (by simpa [Act.spares, Act.caller] using ha) h
  | answer x d | interrupt =>
      obtain ⟨sh, hsh, rfl⟩ := Option.map_eq_some_iff.1 h
      exact Option.map_eq_some_iff.2 ⟨sh, hsh, rfl⟩
  | pushResponses | setEndpoint eid endpoint | setUserRegion endpoint id present =>
      cases h
      rfl

/-! ## Calls without a slot -/

/-- The call has taken no slot: it is at a check before, or has failed one. -/
def Pc.slotless : Pc D → Bool
  | .check _ | .failed none => true
  | _ => false

theorem Pc.slotless_of_isCheck {pc : Pc D} (h : pc.isCheck = true) : pc.slotless = true := by
  cases pc with
  | check k => rfl
  | _ => cases h

theorem callCode_slotless {call : Call D} {junk : D} {sh : Shared D} {pc : Pc D}
    {r : Shared D × Pc D} (h : callCode n call junk sh pc = some r) (hr : r.2.slotless = true) :
    pc.slotless = true ∧ r.1 = sh := by
  cases pc with
  | check k =>
      simp only [callCode] at h
      split at h
      · cases h
        exact ⟨rfl, rfl⟩
      · split at h <;> cases h <;> cases hr
  | fill idx id k =>
      simp only [callCode] at h
      split at h <;> cases h <;> cases hr
  | wait idx id =>
      simp only [callCode] at h
      split at h <;> cases h
      cases hr
  | read idx id st data =>
      cases st with
      | none =>
          cases h
          cases hr
      | some st =>
          simp only [callCode] at h
          split at h <;> cases h
          cases hr
  | load | store | mark | identify | header | poke =>
      cases h
      cases hr
  | failed | timedOut | returned => cases h

theorem failCode_slotless {call : Call D} {junk : D} {sh : Shared D} {pc : Pc D}
    {r : Shared D × Pc D} (h : failCode n call junk sh pc = some r) (hpc : pc.isCheck = true) :
    r = (sh, .failed none) := by
  cases pc with
  | check k =>
      simp only [failCode] at h
      split at h <;> cases h
      rfl
  | _ => cases hpc

theorem State.run_slotless {s t : State ι D} {c c' : ι}
    {code : Shared D → Pc D → Option (Shared D × Pc D)} (h : s.run c' code = some t)
    (hcode : ∀ r, code s.toShared (s.pc c') = some r → r.2.slotless = true →
      (s.pc c').slotless = true ∧ r.1 = s.toShared)
    (hc : (t.pc c).slotless = true) :
    (s.pc c).slotless = true ∧ (c' = c → t.toShared = s.toShared) := by
  obtain ⟨r, hr, rfl⟩ := Option.map_eq_some_iff.1 h
  by_cases hcc : c = c'
  · subst hcc
    simp only [if_true] at hc
    exact ⟨(hcode r hr hc).1, fun _ => (hcode r hr hc).2⟩
  · simp only [hcc, if_false] at hc
    exact ⟨hc, fun h => absurd h.symm hcc⟩

/-- A call that has no slot after a step had none before, and its own step left the
ring alone. -/
theorem step_slotless {s t : State ι D} {a : Act ι D} {c : ι} (hok : FailsEarly s a)
    (h : step n calls s a = some t) (hc : (t.pc c).slotless = true) :
    (s.pc c).slotless = true ∧ (a.caller = some c → t.toShared = s.toShared) := by
  cases a with
  | call c' junk =>
      have hrun := State.run_slotless h (fun r hr hs => callCode_slotless n hr hs) hc
      exact ⟨hrun.1, fun ha => hrun.2 (Option.some.inj ha)⟩
  | fail c' junk =>
      have hrun := State.run_slotless h (fun r hr _ => ?_) hc
      · exact ⟨hrun.1, fun ha => hrun.2 (Option.some.inj ha)⟩
      · have hcheck : (s.pc c').isCheck = true := hok
        rw [failCode_slotless n hr hcheck]
        exact ⟨Pc.slotless_of_isCheck hcheck, rfl⟩
  | timeout c' =>
      refine (State.run_slotless h (fun r hr hs => ?_) hc).imp_right fun hrun ha =>
        hrun (Option.some.inj ha)
      unfold timeoutCode at hr
      split at hr <;> cases hr
      cases hs
  | readData c' =>
      refine (State.run_slotless h (fun r hr hs => ?_) hc).imp_right fun hrun ha =>
        hrun (Option.some.inj ha)
      unfold readDataCode at hr
      split at hr
      · obtain ⟨f, -, rfl⟩ := Option.map_eq_some_iff.1 hr
        cases hs
      · cases hr
  | answer x d | interrupt =>
      obtain ⟨sh, hsh, rfl⟩ := Option.map_eq_some_iff.1 h
      exact ⟨hc, nofun⟩
  | pushResponses | setEndpoint eid endpoint | setUserRegion endpoint id present =>
      cases h
      exact ⟨hc, nofun⟩

theorem callCode_not_failed {call : Call D} {junk : D} {sh : Shared D} {pc : Pc D}
    {r : Shared D × Pc D} (h : callCode n call junk sh pc = some r) (idx : Option ℕ) :
    r.2 ≠ .failed idx := by
  cases pc with
  | check k =>
      simp only [callCode] at h
      split at h
      · cases h
        nofun
      · split at h <;> cases h <;> nofun
  | fill i id k | wait i id =>
      simp only [callCode] at h
      split at h <;> cases h <;> nofun
  | read i id st data =>
      cases st with
      | none =>
          cases h
          nofun
      | some st =>
          simp only [callCode] at h
          split at h <;> cases h
          nofun
  | load | store | mark | identify | header | poke =>
      cases h
      nofun
  | failed | timedOut | returned => cases h

/-- No step that meets `FailsEarly` ends a call with a slot in its hands. -/
theorem step_not_failed {s t : State ι D} {a : Act ι D} (hok : FailsEarly s a)
    (h : step n calls s a = some t) (hs : ∀ c idx, s.pc c ≠ .failed (some idx)) :
    ∀ c idx, t.pc c ≠ .failed (some idx) := by
  intro c idx
  have hrun : ∀ {c' : ι} {code : Shared D → Pc D → Option (Shared D × Pc D)},
      s.run c' code = some t → (∀ r, code s.toShared (s.pc c') = some r → r.2 ≠ .failed (some idx)) →
      t.pc c ≠ .failed (some idx) := by
    intro c' code hstep hcode
    obtain ⟨r, hr, rfl⟩ := Option.map_eq_some_iff.1 hstep
    by_cases hc : c = c'
    · simpa only [hc, if_true] using hcode r hr
    · simpa only [hc, if_false] using hs c idx
  cases a with
  | call c' junk => exact hrun h fun r hr => callCode_not_failed n hr _
  | fail c' junk =>
      refine hrun h fun r hr => ?_
      rw [failCode_slotless n hr hok]
      nofun
  | timeout c' =>
      refine hrun h fun r hr => ?_
      unfold timeoutCode at hr
      split at hr <;> cases hr
      nofun
  | readData c' =>
      refine hrun h fun r hr => ?_
      unfold readDataCode at hr
      split at hr
      · obtain ⟨f, -, rfl⟩ := Option.map_eq_some_iff.1 hr
        nofun
      · cases hr
  | answer x d | interrupt =>
      obtain ⟨sh, hsh, rfl⟩ := Option.map_eq_some_iff.1 h
      exact hs c idx
  | pushResponses | setEndpoint eid endpoint | setUserRegion endpoint id present =>
      cases h
      exact hs c idx

/-! ## Every run -/

theorem exec_slotless {fe : XenfrontInfo D} {mem : ℕ → Response D} {s t : State ι D}
    {as : List (Act ι D)} {c : ι} (hm : (machine n calls fe mem).Meets FailsEarly s as)
    (h : (machine n calls fe mem).exec s as = some t) (hc : (t.pc c).slotless = true) :
    (s.pc c).slotless = true := by
  induction as generalizing s with
  | nil =>
      cases h
      exact hc
  | cons a as ih =>
      obtain ⟨s', hs, ht⟩ := (Machine.exec_cons_eq_some _).1 h
      exact (step_slotless n calls hm.1 hs (ih (hm.2 s' hs) ht)).1

/-- The steps of calls without a slot can be left out of a run. -/
theorem exec_without {fe : XenfrontInfo D} {mem : ℕ → Response D} {gone : ι → Bool}
    {s t : State ι D} {as : List (Act ι D)} (hm : (machine n calls fe mem).Meets FailsEarly s as)
    (h : (machine n calls fe mem).exec s as = some t)
    (hgone : ∀ c, gone c = true → (t.pc c).slotless = true) :
    (machine n calls fe mem).exec (s.without gone) (as.filter (Act.spares gone)) =
      some (t.without gone) := by
  induction as generalizing s with
  | nil =>
      cases h
      rfl
  | cons a as ih =>
      obtain ⟨s', hs, ht⟩ := (Machine.exec_cons_eq_some _).1 h
      have hrest := ih (hm.2 s' hs) ht
      by_cases ha : a.spares gone = true
      · rw [List.filter_cons_of_pos ha, Machine.exec_cons_eq_some]
        exact ⟨s'.without gone, step_without n calls ha hs, hrest⟩
      · rw [List.filter_cons_of_neg ha]
        obtain ⟨c, hcaller, hc⟩ : ∃ c, a.caller = some c ∧ gone c = true := by
          unfold Act.spares at ha
          cases hcaller : a.caller with
          | none => simp [hcaller] at ha
          | some c => exact ⟨c, rfl, by simpa [hcaller] using ha⟩
        have hsh := (step_slotless n calls hm.1 hs
          (exec_slotless n calls (hm.2 s' hs) ht (hgone c hc))).2 hcaller
        rw [← step_gone n calls hcaller hc hs hsh]
        exact hrest

/-- In a run that meets `FailsEarly`, the calls that fail leave no trace on the ring:
no other call ever publishes anything of theirs. -/
theorem failedIoctl_noTrace (fe : XenfrontInfo D) (mem : ℕ → Response D) {as : List (Act ι D)}
    {s : State ι D} (hm : (machine n calls fe mem).Meets FailsEarly (init fe mem) as)
    (h : (machine n calls fe mem).exec (init fe mem) as = some s) :
    NoTrace (machine n calls fe mem) as s := by
  have hno : ∀ c idx, s.pc c ≠ .failed (some idx) :=
    hm.invariant (I := fun s => ∀ c idx, s.pc c ≠ .failed (some idx))
      (fun s a t hs hok ht => step_not_failed n calls hok ht hs) (fun c idx h => by cases h) h
  refine ⟨?_, hno⟩
  have hgone : ∀ c, s.failed c = true → (s.pc c).slotless = true := by
    intro c hc
    unfold State.failed at hc
    cases hs : s.pc c with
    | failed idx =>
        cases idx with
        | none => rfl
        | some i => exact absurd hs (hno c i)
    | _ =>
        rw [hs] at hc
        cases hc
  have hinit : (init fe mem).without s.failed = init fe mem := by
    simp [State.without, init]
  rw [← exec_without n calls hm h hgone, hinit]
  rfl

/-- An ioctl without checks after its slot fails early if it fails. -/
theorem failsEarly_of_checksAfter {s t : State ι D} {c : ι} {junk : D}
    (hnil : (calls c).ioctl.checksAfter = []) (h : step n calls s (.fail c junk) = some t) :
    FailsEarly s (.fail c junk) := by
  obtain ⟨r, hr, -⟩ := Option.map_eq_some_iff.1 h
  show (s.pc c).isCheck = true
  cases hs : s.pc c with
  | check k => rfl
  | fill idx id k =>
      rw [hs, failCode, hnil, if_neg (show ¬ k < ([] : List Failure).length from Nat.not_lt_zero k)] at hr
      cases hr
  | _ =>
      rw [hs] at hr
      cases hr

/-! ## Runs -/

/-- Call 0 sends a tiny message, call 1 a notification, all others open an endpoint. -/
def threeCalls (c : ℕ) : Call ℕ :=
  { ioctl := match c with
      | 0 => .sendTiny
      | 1 => .sendNotify
      | _ => .openEndpoint
    eid := some 0
    endpoint := 0
    id := 0
    args := 100 + c
    beyond := fun _ _ e => e }

def zeroedSlot : Response ℕ := ⟨.null, 0, 0, 0, 0, 0, 0⟩

/-- A frontend with the endpoint 0 known. -/
def quietFrontend : XenfrontInfo ℕ :=
  { requests := fun _ => .done
    endpoints := fun eid => if eid = 0 then some 0 else none
    userRegions := fun _ _ => false
    infoDoing := fun _ => false
    results := fun _ => 0 }

def threeCallsMachine : Machine (State ℕ ℕ) (Act ℕ ℕ) :=
  machine ⟨3, by decide⟩ threeCalls quietFrontend fun _ => zeroedSlot

/-- Opening an endpoint fails; the notification is sent all the same. -/
theorem failedIoctl_noTrace_open :
    ∃ s, threeCallsMachine.exec (init quietFrontend fun _ => zeroedSlot)
        ([.fail 2 0] ++ List.replicate 9 (.call 1 0)) = some s ∧
      s.reqProd = 1 ∧
      NoTrace threeCallsMachine ([.fail 2 0] ++ List.replicate 9 (.call 1 0)) s := by
  obtain ⟨s, hs, hprod⟩ : ∃ s, threeCallsMachine.exec (init quietFrontend fun _ => zeroedSlot)
      ([.fail 2 0] ++ List.replicate 9 (.call 1 0)) = some s ∧ s.reqProd = 1 :=
    ⟨_, rfl, rfl⟩
  exact ⟨s, hs, hprod, failedIoctl_noTrace _ threeCalls quietFrontend (fun _ => zeroedSlot)
    (by decide) hs⟩

/-- The tiny message cannot be read from the user, after its slot is taken; the
notification makes the slot visible to the backend with what it holds by then. -/
theorem failedIoctl_publishes_stale :
    ∃ s, threeCallsMachine.exec (init quietFrontend fun _ => zeroedSlot)
        (List.replicate 6 (.call 0 0) ++ [.fail 0 7] ++ List.replicate 9 (.call 1 0)) = some s ∧
      s.pc 0 = .failed (some 0) ∧ s.reqProd = 2 ∧
      s.ring 0 = ⟨.sendTiny, 0, 0, 0, 0, 0, 7⟩ ∧
      ¬ NoTrace threeCallsMachine
        (List.replicate 6 (.call 0 0) ++ [.fail 0 7] ++ List.replicate 9 (.call 1 0)) s := by
  obtain ⟨s, hs, hpc, hprod, hslot⟩ : ∃ s,
      threeCallsMachine.exec (init quietFrontend fun _ => zeroedSlot)
        (List.replicate 6 (.call 0 0) ++ [.fail 0 7] ++ List.replicate 9 (.call 1 0)) = some s ∧
      s.pc 0 = .failed (some 0) ∧ s.reqProd = 2 ∧ s.ring 0 = ⟨.sendTiny, 0, 0, 0, 0, 0, 7⟩ :=
    ⟨_, rfl, rfl, rfl, rfl⟩
  exact ⟨s, hs, hpc, hprod, hslot, fun h => h.no_slot 0 0 hpc⟩

end Xen2mx.Xenfront
