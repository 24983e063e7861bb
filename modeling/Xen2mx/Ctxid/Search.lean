/-
# `Xen2mx.Ctxid.Search` — searching the queues of one context

`omx_test_any` and `omx_wait_any` look for the first done request that matches, `omx_iprobe` and
`omx_probe` for the first unexpected message.  With several context ids they search the queue of
one context, "unless the mask crosses context ids".  What `MATCHING_CROSS_CTXIDS` says is that
the mask looks at some bit of the context id:

    bits of the context id in the mask     searched                     should be searched
    all                                    anyctxid queue               that of the context, or anyctxid
    some                                   anyctxid queue               anyctxid queue
    none                                   queue of context 0           anyctxid queue

The calls only check that the information has no bit that the mask has not; nothing in the
source is called CHECK_MATCH_WITH_CTXID.

A call that waits searches once in each round, after what the round's progress made of the
endpoint.  Where the rounds end it times out.

**Proved here.**  The calls find what a scan of the anyctxid queue finds exactly when there are
no contexts, the mask has a bit of the context id, or the first request that matches is of
context 0 (`search_eq_iff`), a call that waits if this is so in each of its rounds
(`waitRounds_eq_iff`).
-/
import Xen2mx.Ctxid.Cleanup
import Xen2mx.Matching.Order

namespace Xen2mx.Ctxid

open Matching (CtxidConfig ReturnCode)

variable {ι : Type*}

/-! ## The calls -/

/-- The queue that a search is about. -/
inductive Which where
  | done
  | unexp
  deriving DecidableEq

def Queues.get (queues : Queues) : Which → List ℕ
  | .done => queues.doneReqQ
  | .unexp => queues.unexpReqQ

namespace Endpoint

variable (z : CtxidConfig)

/-- `omx__test_any_common` and `omx__iprobe_common`. -/
def searchCommon (w : Which) (matchInfo matchMask : BitVec 64) (ep : Endpoint ι) : Option ℕ :=
  match w with
  | .done => ep.testAnyCommon z matchInfo matchMask
  | .unexp => ep.iprobeCommon z matchInfo matchMask

/-- A scan of the anyctxid queue. -/
def scan (w : Which) (matchInfo matchMask : BitVec 64) (ep : Endpoint ι) : Option ℕ :=
  (ep.anyctxid.get w).find? (ep.isMatch matchInfo matchMask)

end Endpoint

/-- The rounds of a call that waits, from the round `n`: when it returns, and what. -/
def waitRounds {σ α : Type*} (search : σ → Option α) (n : ℕ) : List σ → Option (ℕ × α)
  | [] => none
  | s :: rounds =>
      match search s with
      | some found => some (n, found)
      | none => waitRounds search (n + 1) rounds

/-- The check of the calls. -/
def checked {β : Type*} (matchInfo matchMask : BitVec 64) (result : β) : Except ReturnCode β :=
  if matchInfo &&& ~~~matchMask ≠ 0 then .error .badMatchMask else .ok result

namespace Endpoint

variable (z : CtxidConfig) (matchInfo matchMask : BitVec 64)

/-- `omx_test_any`, after its progress. -/
def testAny (ep : Endpoint ι) : Except ReturnCode (Option ℕ) :=
  checked matchInfo matchMask (ep.searchCommon z .done matchInfo matchMask)

/-- `omx_iprobe`, after its progress. -/
def iprobe (ep : Endpoint ι) : Except ReturnCode (Option ℕ) :=
  checked matchInfo matchMask (ep.searchCommon z .unexp matchInfo matchMask)

/-- `omx_wait_any`. -/
def waitAny (rounds : List (Endpoint ι)) : Except ReturnCode (Option (ℕ × ℕ)) :=
  checked matchInfo matchMask (waitRounds (searchCommon z .done matchInfo matchMask) 0 rounds)

/-- `omx_probe`. -/
def probe (rounds : List (Endpoint ι)) : Except ReturnCode (Option (ℕ × ℕ)) :=
  checked matchInfo matchMask (waitRounds (searchCommon z .unexp matchInfo matchMask) 0 rounds)

end Endpoint

open Endpoint

/-! ## One search -/

variable {z : CtxidConfig} {matchInfo matchMask : BitVec 64}

theorem ctxidFromMatching_eq_zero (hinfo : matchInfo &&& ~~~matchMask = 0)
    (hcross : matchingCrossCtxids z matchMask = false) : z.ctxidFromMatching matchInfo = 0 := by
  have hmask : matchMask &&& z.ctxidMask = 0 := by
    simpa [matchingCrossCtxids] using hcross
  refine BitVec.eq_of_getLsbD_eq fun i _ => ?_
  rw [CtxidConfig.getLsbD_ctxidFromMatching]
  by_cases hi : i < z.ctxidBits
  · have hlt : z.ctxidShift + i < 64 := by
      have hadd := z.add_le
      omega
    have hnot : matchMask.getLsbD (z.ctxidShift + i) = false := by
      have hbit : (matchMask &&& z.ctxidMask).getLsbD (z.ctxidShift + i) = false := by
        rw [hmask]
        exact BitVec.getLsbD_zero
      rw [BitVec.getLsbD_and, CtxidConfig.getLsbD_ctxidMask hi, Bool.and_true] at hbit
      exact hbit
    have hbit : (matchInfo &&& ~~~matchMask).getLsbD (z.ctxidShift + i) = false := by
      rw [hinfo]
      exact BitVec.getLsbD_zero
    rw [BitVec.getLsbD_and, BitVec.getLsbD_not, hnot, decide_eq_true hlt, Bool.not_false,
      Bool.and_true, Bool.and_true] at hbit
    rw [hbit, Bool.and_false]
    exact BitVec.getLsbD_zero.symm
  · rw [decide_eq_false hi, Bool.false_and]
    exact BitVec.getLsbD_zero.symm

/-- There are no contexts, the mask has a bit of the context id, or what is looked for, if it is
there, is first found in context 0. -/
def Found (z : CtxidConfig) (w : Which) (matchInfo matchMask : BitVec 64) (ep : Endpoint ι) :
    Prop :=
  z.hasCtxids = false ∨ matchingCrossCtxids z matchMask = true ∨
    ∀ id ∈ ep.scan w matchInfo matchMask, ep.ctxidOf z id = some 0

instance (w : Which) (ep : Endpoint ι) : Decidable (Found z w matchInfo matchMask ep) :=
  inferInstanceAs (Decidable (_ ∨ _ ∨ ∀ id ∈ ep.scan w matchInfo matchMask, _))

theorem searchCommon_eq (w : Which) (ep : Endpoint ι) :
    ep.searchCommon z w matchInfo matchMask =
      (if !z.hasCtxids || matchingCrossCtxids z matchMask then ep.anyctxid.get w
        else (ep.ctxid (z.ctxidFromMatching matchInfo)).get w).find?
          (ep.isMatch matchInfo matchMask) := by
  cases w <;> rfl

/-- Where the queues of the contexts are those of the endpoint, a search is a scan. -/
theorem search_eq_iff (w : Which) {ep : Endpoint ι} (hmirrored : ep.Mirrored z)
    (hinfo : matchInfo &&& ~~~matchMask = 0) :
    ep.searchCommon z w matchInfo matchMask = ep.scan w matchInfo matchMask ↔
      Found z w matchInfo matchMask ep := by
  rw [searchCommon_eq, Found]
  cases hctxids : z.hasCtxids with
  | false => exact iff_of_true rfl (.inl rfl)
  | true =>
      cases hcross : matchingCrossCtxids z matchMask with
      | true => exact iff_of_true rfl (.inr (.inl rfl))
      | false =>
          rw [ctxidFromMatching_eq_zero hinfo hcross]
          have hmirror : Mirrors (ep.ctxidOf z) (ep.anyctxid.get w) fun c => (ep.ctxid c).get w := by
            cases w with
            | done => exact hmirrored.done
            | unexp => exact hmirrored.unexp
          refine (hmirror.find?_eq_iff 0 (ep.isMatch matchInfo matchMask)).trans ?_
          refine ⟨fun h => .inr (.inr h), fun h => ?_⟩
          rcases h with h | h | h
          · cases h
          · cases h
          · exact h

/-! ## The rounds of a call that waits -/

/-- In each round of the call. -/
def Throughout {σ α : Type*} (found : σ → Prop) (scan : σ → Option α) : List σ → Prop
  | [] => True
  | s :: rounds => found s ∧ (scan s = none → Throughout found scan rounds)

/-- A call that waits returns in the round it starts in or later. -/
theorem le_of_waitRounds {σ α : Type*} {search : σ → Option α} {rounds : List σ} {n m : ℕ}
    {found : α} (h : waitRounds search n rounds = some (m, found)) : n ≤ m := by
  induction rounds generalizing n with
  | nil => cases h
  | cons s rounds ih =>
      rw [waitRounds] at h
      split at h
      · cases h
        exact Nat.le_refl _
      · exact Nat.le_of_succ_le (ih h)

theorem waitRounds_eq_iff {σ α : Type*} {search scan : σ → Option α} {found : σ → Prop}
    (n : ℕ) (rounds : List σ) (hsearch : ∀ s ∈ rounds, search s = scan s ↔ found s) :
    waitRounds search n rounds = waitRounds scan n rounds ↔ Throughout found scan rounds := by
  induction rounds generalizing n with
  | nil => exact iff_of_true rfl trivial
  | cons s rounds ih =>
      have ih' := ih (n + 1) fun s' hs' => hsearch s' (List.mem_cons_of_mem _ hs')
      have hlater : ∀ (f : σ → Option α) x, waitRounds f (n + 1) rounds ≠ some (n, x) :=
        fun f x h => absurd (le_of_waitRounds h) (Nat.not_succ_le_self n)
      rw [Throughout, ← hsearch s (List.mem_cons_self ..), waitRounds, waitRounds]
      cases hf : search s with
      | none =>
          cases hg : scan s with
          | none => exact ⟨fun h => ⟨rfl, fun _ => ih'.1 h⟩, fun h => ih'.2 (h.2 rfl)⟩
          | some y =>
              exact iff_of_false (hlater search y) fun h => nomatch h.1
      | some x =>
          cases hg : scan s with
          | none => exact iff_of_false (fun h => hlater scan x h.symm) fun h => nomatch h.1
          | some y =>
              refine ⟨fun h => ⟨?_, fun hnone => nomatch hnone⟩, fun h => ?_⟩
              · cases h
                rfl
              · cases h.1
                rfl

/-! ## The calls are scans -/

theorem checked_eq_iff {β : Type*} {a b : β} (hinfo : matchInfo &&& ~~~matchMask = 0) :
    checked matchInfo matchMask a = .ok b ↔ a = b := by
  rw [checked, if_neg (not_not.2 hinfo)]
  exact ⟨fun h => by cases h; rfl, fun h => by rw [h]⟩

/-- On an endpoint whose contexts have their queues, the calls return what a scan of the anyctxid
queue with the same information and mask does, exactly when there are no contexts, the mask has a
bit of the context id, or the first request that matches is of context 0; and those that wait, if
so it is in each of their rounds. -/
theorem searches_eq_scan_iff (hinfo : matchInfo &&& ~~~matchMask = 0) {ep : Endpoint ι}
    (hep : ep.Mirrored z) {rounds : List (Endpoint ι)} (hrounds : ∀ ep ∈ rounds, ep.Mirrored z) :
    (ep.testAny z matchInfo matchMask = .ok (ep.scan .done matchInfo matchMask) ↔
        Found z .done matchInfo matchMask ep) ∧
      (ep.iprobe z matchInfo matchMask = .ok (ep.scan .unexp matchInfo matchMask) ↔
        Found z .unexp matchInfo matchMask ep) ∧
      (waitAny z matchInfo matchMask rounds =
          .ok (waitRounds (scan .done matchInfo matchMask) 0 rounds) ↔
        Throughout (Found z .done matchInfo matchMask) (scan .done matchInfo matchMask) rounds) ∧
      (probe z matchInfo matchMask rounds =
          .ok (waitRounds (scan .unexp matchInfo matchMask) 0 rounds) ↔
        Throughout (Found z .unexp matchInfo matchMask) (scan .unexp matchInfo matchMask)
          rounds) := by
  have hrounds' : ∀ w, ∀ ep ∈ rounds,
      ep.searchCommon z w matchInfo matchMask = ep.scan w matchInfo matchMask ↔
        Found z w matchInfo matchMask ep :=
    fun w ep hmem => search_eq_iff w (hrounds ep hmem) hinfo
  exact ⟨(checked_eq_iff hinfo).trans (search_eq_iff .done hep hinfo),
    (checked_eq_iff hinfo).trans (search_eq_iff .unexp hep hinfo),
    (checked_eq_iff hinfo).trans (waitRounds_eq_iff 0 rounds (hrounds' .done)),
    (checked_eq_iff hinfo).trans (waitRounds_eq_iff 0 rounds (hrounds' .unexp))⟩

/-- An endpoint after a run. -/
def after (as : List (Action Bool)) : Endpoint Bool :=
  ((machine twoBits 8).exec (machine twoBits 8).init as).getD (.init 8)

/-- A message of context 1 comes before one of context 0. -/
def twoMessages : Endpoint Bool :=
  after [.recvUnexp false 5 .whole, .recvUnexp false 4 .whole]

theorem twoMessages_mirrored : twoMessages.Mirrored twoBits :=
  (machine_mirrored_iff (by decide) 8 _).2 (by decide)
    [.recvUnexp false 5 .whole, .recvUnexp false 4 .whole] List.prefix_rfl _ rfl

/-- With a bit of the context id in the mask. -/
theorem searches_eq_scan_five :
    twoMessages.testAny twoBits 5 5 = .ok (twoMessages.scan .done 5 5) ∧
      twoMessages.iprobe twoBits 5 5 = .ok (twoMessages.scan .unexp 5 5) ∧
      waitAny twoBits 5 5 [twoMessages] = .ok (waitRounds (scan .done 5 5) 0 [twoMessages]) ∧
      probe twoBits 5 5 [twoMessages] = .ok (waitRounds (scan .unexp 5 5) 0 [twoMessages]) := by
  have hrounds : ∀ ep ∈ [twoMessages], ep.Mirrored twoBits := fun ep hep =>
    List.mem_singleton.1 hep ▸ twoMessages_mirrored
  have hinfo : (5 : BitVec 64) &&& ~~~5 = 0 := by decide
  obtain ⟨htest, hiprobe, hwait, hprobe⟩ :=
    searches_eq_scan_iff hinfo twoMessages_mirrored hrounds
  exact ⟨htest.2 (by decide), hiprobe.2 (by decide), hwait.2 ⟨by decide, fun _ => trivial⟩,
    hprobe.2 ⟨by decide, fun _ => trivial⟩⟩

/-- With no bit of the context id in the mask, a probe misses the message of context 1. -/
theorem searches_ne_scan :
    ¬ ∀ (matchInfo matchMask : BitVec 64) (ep : Endpoint Bool), ep.Mirrored twoBits →
      matchInfo &&& ~~~matchMask = 0 →
        ep.iprobe twoBits matchInfo matchMask = .ok (ep.scan .unexp matchInfo matchMask) := by
  intro h
  have hprobe := h 4 4 twoMessages twoMessages_mirrored (by decide)
  have hsearch : twoMessages.searchCommon twoBits .unexp 4 4 = some 1 := by decide
  have hscan : twoMessages.scan .unexp 4 4 = some 0 := by decide
  rw [Endpoint.iprobe, hsearch, hscan] at hprobe
  cases hprobe

end Xen2mx.Ctxid
