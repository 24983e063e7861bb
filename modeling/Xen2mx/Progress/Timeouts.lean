/-
# `Xen2mx.Progress.Timeouts` — timeouts in milliseconds, resends and jiffies

A timeout is given in milliseconds, in 32 bits, the last of which is the infinite one.  It becomes
a number of resends, a delay in jiffies, or a date in jiffies, with a second of 1024 milliseconds.
The product is rounded up in 32 bits, so it comes back to 0 for long timeouts; the infinite one is
apart for the jiffies, and a long one like the others for the resends.

    resends    2 a second      back to 0 after 2147483136 ms, the infinite timeout among them
    jiffies    hz a second     back to 0 when hz times the timeout does not fit
    date       from now

**Proved here.**

    the conversions are in the order of the timeouts up to a limit
        ⟺  neither product wraps up to it, nor the date                 (`ordered_iff`)
    the infinite timeout has fewer resends than a second                (`not_ordered`)

The order survives a wrap that goes from no jiffy to the last ones, until the next step; only an hz
next to `2 ^ 32` has more than one timeout there.
-/
import Mathlib.Data.BitVec
import Mathlib.Tactic.Common

namespace Xen2mx.Progress

/-! ## The conversions -/

/-- `OMX_TIMEOUT_INFINITE`. -/
def timeoutInfinite : BitVec 32 := -1

/-- `OMX_CMD_WAIT_EVENT_TIMEOUT_INFINITE`. -/
def cmdWaitEventTimeoutInfinite : BitVec 64 := -1

/-- `RESEND_PER_SECOND`. -/
def resendPerSecond : BitVec 32 := 2

/-- `omx__timeout_ms_to_resends`. -/
def timeoutMsToResends (ms : BitVec 32) : BitVec 32 := (ms * resendPerSecond + 1023) / 1024

/-- `omx__timeout_ms_to_relative_jiffies`. -/
def timeoutMsToRelativeJiffies (hz ms : BitVec 32) : BitVec 64 :=
  if ms = timeoutInfinite then cmdWaitEventTimeoutInfinite
  else ((ms * hz + 1023) / 1024).setWidth 64

/-- `omx__timeout_ms_to_absolute_jiffies`. -/
def timeoutMsToAbsoluteJiffies (hz : BitVec 32) (now : BitVec 64) (ms : BitVec 32) : BitVec 64 :=
  if ms = timeoutInfinite then cmdWaitEventTimeoutInfinite
  else now + ((ms * hz + 1023) / 1024).setWidth 64

/-- The timeouts of an endpoint. -/
structure Timeouts where
  pullResendTimeoutJiffies : BitVec 32
  reqResendsMax : BitVec 32

/-- `omx_set_request_timeout`: of the request, whose `resends_max` it is, or of the endpoint. -/
def setRequestTimeout (hz : BitVec 32) (ep : Timeouts) (request : Option (BitVec 32))
    (ms : BitVec 32) : Timeouts × Option (BitVec 32) :=
  let jiffies := (timeoutMsToRelativeJiffies hz ms).setWidth 32
  let resends := timeoutMsToResends ms
  match request with
  | some _ => (ep, some resends)
  | none => (⟨jiffies, resends⟩, none)

/-- Of two timeouts up to the limit, the longer has no fewer resends and no shorter delay. -/
def Ordered (hz : BitVec 32) (now : BitVec 64) (limit : BitVec 32) : Prop :=
  ∀ ms ms' : BitVec 32, ms ≤ ms' → ms' ≤ limit →
    timeoutMsToResends ms ≤ timeoutMsToResends ms' ∧
    timeoutMsToRelativeJiffies hz ms ≤ timeoutMsToRelativeJiffies hz ms' ∧
    timeoutMsToAbsoluteJiffies hz now ms ≤ timeoutMsToAbsoluteJiffies hz now ms' ∧
    ∀ ep, (setRequestTimeout hz ep none ms).1.pullResendTimeoutJiffies ≤
      (setRequestTimeout hz ep none ms').1.pullResendTimeoutJiffies

/-! ## The rounded product -/

/-- The product by the rate, rounded up in 32 bits. -/
def ticks (rate ms : ℕ) : ℕ := (ms * rate + 1023) % 2 ^ 32 / 1024

theorem ticks_lt (rate ms : ℕ) : ticks rate ms < 2 ^ 22 := by
  have hlt := Nat.mod_lt (ms * rate + 1023) (Nat.two_pow_pos 32)
  unfold ticks
  omega

theorem ticks_zero (rate : ℕ) : ticks rate 0 = 0 := by
  rw [ticks, Nat.zero_mul]
  rfl

theorem toNat_ticks (rate ms : BitVec 32) :
    ((ms * rate + 1023) / 1024).toNat = ticks rate.toNat ms.toNat := by
  rw [BitVec.toNat_udiv, BitVec.toNat_add, BitVec.toNat_mul, ticks]
  exact congrArg (· / 1024) (Nat.mod_add_mod _ _ _)

/-- The rate is below or above half of the word: the product wraps, or goes down from there. -/
def TicksFit (rate limit : ℕ) : Prop :=
  limit * rate + 1023 < 2 ^ 32 ∨ limit ≤ 1 ∨ limit * (2 ^ 32 - rate) < 2048

/-- The rounded product does not go down up to a limit. -/
def TicksOrdered (rate limit : ℕ) : Prop :=
  ∀ ms ms', ms ≤ ms' → ms' ≤ limit → ticks rate ms ≤ ticks rate ms'

/-- A product that does not wrap. -/
theorem ticks_of_lt {rate ms : ℕ} (h : ms * rate + 1023 < 2 ^ 32) :
    ticks rate ms = (ms * rate + 1023) / 1024 := by
  rw [ticks, Nat.mod_eq_of_lt h]

/-- Of a rate that is close to the top of the word, what counts is the distance. -/
theorem ticks_of_add {rate dist ms : ℕ} (hrate : rate + dist = 2 ^ 32) (hms : 1 ≤ ms)
    (h : 1024 ≤ ms * dist) (h' : ms * dist ≤ 2 ^ 32 + 1023) :
    ticks rate ms = (2 ^ 32 + 1023 - ms * dist) / 1024 := by
  have hprod : ms * rate + ms * dist = ms * 2 ^ 32 := by rw [← Nat.mul_add, hrate]
  have hsplit : ms * rate + 1023 = 2 ^ 32 + 1023 - ms * dist + (ms - 1) * 2 ^ 32 := by
    have hpred : (ms - 1) * 2 ^ 32 + 2 ^ 32 = ms * 2 ^ 32 := by
      rw [← Nat.succ_mul, Nat.succ_eq_add_one, Nat.sub_add_cancel hms]
    omega
  rw [ticks, hsplit, Nat.add_mul_mod_self_right, Nat.mod_eq_of_lt (by omega)]

theorem TicksFit.ordered {rate limit : ℕ} (hrate : rate < 2 ^ 32) (h : TicksFit rate limit) :
    TicksOrdered rate limit := by
  intro ms ms' hle hlimit
  have hprod := Nat.mul_le_mul_right rate hle
  rcases h with hfits | hone | hdist
  · have hprod' := Nat.mul_le_mul_right rate hlimit
    have hms : ms * rate + 1023 < 2 ^ 32 := by omega
    have hms' : ms' * rate + 1023 < 2 ^ 32 := by omega
    rw [ticks_of_lt hms, ticks_of_lt hms']
    exact Nat.div_le_div_right (by omega)
  · rcases hle.eq_or_lt with rfl | hlt
    · exact le_rfl
    · obtain rfl : ms = 0 := by omega
      rw [ticks_zero]
      exact Nat.zero_le _
  · obtain ⟨dist, hdist'⟩ := Nat.exists_eq_add_of_le hrate.le
    rw [hdist', Nat.add_sub_cancel_left] at hdist
    have hprod' := Nat.mul_le_mul_right dist hlimit
    have hprod := Nat.mul_le_mul_right dist hle
    -- Up to 1023 below the word there is nothing, and the last jiffies after that.
    have hlast : ∀ t, 1024 ≤ t * dist → t * dist < 2048 → ticks rate t = 2 ^ 22 - 1 := by
      intro t ht ht'
      have hpos : 1 ≤ t := Nat.pos_of_ne_zero fun h0 => by
        rw [h0, Nat.zero_mul] at ht
        omega
      rw [ticks_of_add hdist'.symm hpos ht (by omega)]
      omega
    rcases Nat.lt_or_ge (ms' * dist) 1024 with hlt | hge
    · have hnone : ∀ t, t * dist < 1024 → ticks rate t = 0 := by
        intro t ht
        have hsum : t * rate + 1023 + t * dist = t * 2 ^ 32 + 1023 := by
          rw [hdist', Nat.mul_add]
          omega
        have hsplit : t * rate + 1023 = 1023 - t * dist + t * 2 ^ 32 := by omega
        rw [ticks, hsplit, Nat.add_mul_mod_self_right, Nat.mod_eq_of_lt (by omega)]
        omega
      rw [hnone ms (by omega), hnone ms' hlt]
    · rw [hlast ms' hge (by omega)]
      exact Nat.le_sub_one_of_lt (ticks_lt rate ms)

/-- The first timeout with a property, and the one before it. -/
theorem exists_first {P : ℕ → Prop} {n : ℕ} (h0 : ¬ P 0) (hn : P n) :
    ∃ m < n, ¬ P m ∧ P (m + 1) := by
  classical
  obtain ⟨m, hm⟩ := Nat.exists_eq_succ_of_ne_zero (n := Nat.find ⟨n, hn⟩) fun hzero =>
    h0 (hzero ▸ Nat.find_spec (p := P) ⟨n, hn⟩)
  refine ⟨m, ?_, ?_, ?_⟩
  · have hle := Nat.find_min' (p := P) ⟨n, hn⟩ hn
    omega
  · exact Nat.find_min (p := P) ⟨n, hn⟩ (hm ▸ Nat.lt_succ_self m)
  · have hspec := Nat.find_spec (p := P) ⟨n, hn⟩
    rwa [hm] at hspec

theorem TicksOrdered.fit {rate limit : ℕ} (hrate : rate < 2 ^ 32) (h : TicksOrdered rate limit) :
    TicksFit rate limit := by
  by_contra hnot
  obtain ⟨hwraps, hnot⟩ := not_or.1 hnot
  obtain ⟨hlimit, hdist⟩ := not_or.1 hnot
  obtain ⟨dist, hdist'⟩ := Nat.exists_eq_add_of_le hrate.le
  rw [hdist', Nat.add_sub_cancel_left] at hdist
  rcases Nat.lt_or_ge (2 ^ 31) rate with hlarge | hsmall
  · -- Two steps from the top of the word, of which the second is lower.
    obtain ⟨m, hm, hbefore, hafter⟩ := exists_first (P := fun t => 2048 ≤ t * dist)
      (by rw [Nat.zero_mul]; decide) (not_lt.1 hdist)
    have hnext : (m + 1) * dist = m * dist + dist := Nat.succ_mul m dist
    rcases Nat.eq_zero_or_pos m with rfl | hpos
    · have hone : 1 * dist = dist := Nat.one_mul dist
      have htwo : 2 * dist = dist + dist := Nat.two_mul dist
      have hle := h 1 2 (by decide) (by omega)
      rw [ticks_of_add hdist'.symm le_rfl (by omega) (by omega),
        ticks_of_add hdist'.symm (by decide) (by omega) (by omega)] at hle
      omega
    · have hself : dist ≤ m * dist := Nat.le_mul_of_pos_left dist hpos
      have hle := h m (m + 1) (Nat.le_succ m) hm
      rw [ticks_of_add hdist'.symm hpos (by omega) (by omega),
        ticks_of_add hdist'.symm (Nat.le_add_left 1 m) (by omega) (by omega)] at hle
      omega
  · -- The first product that wraps is below the one before.
    obtain ⟨m, hm, hbefore, hafter⟩ := exists_first (P := fun t => 2 ^ 32 ≤ t * rate + 1023)
      (by rw [Nat.zero_mul]; decide) (not_lt.1 hwraps)
    have hnext : (m + 1) * rate = m * rate + rate := Nat.succ_mul m rate
    have hle := h m (m + 1) (Nat.le_succ m) hm
    rw [ticks_of_lt (not_le.1 hbefore), ticks, Nat.mod_eq_sub_mod hafter,
      Nat.mod_eq_of_lt (by omega)] at hle
    omega

theorem ticksOrdered_iff {rate limit : ℕ} (hrate : rate < 2 ^ 32) :
    TicksOrdered rate limit ↔ TicksFit rate limit :=
  ⟨TicksOrdered.fit hrate, TicksFit.ordered hrate⟩

/-! ## The order of the conversions -/

section

variable {hz : BitVec 32} {now : BitVec 64} {limit ms ms' : BitVec 32}

theorem toNat_setWidth_ticks (hz ms : BitVec 32) :
    (((ms * hz + 1023) / 1024).setWidth 64).toNat = ticks hz.toNat ms.toNat := by
  have hlt := ticks_lt hz.toNat ms.toNat
  rw [BitVec.toNat_setWidth, toNat_ticks]
  exact Nat.mod_eq_of_lt (by omega)

theorem ne_infinite (h : limit.toNat * 2 + 1023 < 2 ^ 32) (hle : ms ≤ limit) :
    ms ≠ timeoutInfinite := by
  rintro rfl
  have hle' : timeoutInfinite.toNat ≤ limit.toNat := hle
  have hvalue : timeoutInfinite.toNat = 2 ^ 32 - 1 := rfl
  omega

theorem resends_le_iff : timeoutMsToResends ms ≤ timeoutMsToResends ms' ↔
    ticks 2 ms.toNat ≤ ticks 2 ms'.toNat := by
  show (timeoutMsToResends ms).toNat ≤ (timeoutMsToResends ms').toNat ↔ _
  rw [timeoutMsToResends, timeoutMsToResends, toNat_ticks, toNat_ticks]
  exact Iff.rfl

theorem relativeJiffies_eq (h : ms ≠ timeoutInfinite) :
    (timeoutMsToRelativeJiffies hz ms).toNat = ticks hz.toNat ms.toNat := by
  rw [timeoutMsToRelativeJiffies, if_neg h, toNat_setWidth_ticks]

theorem absoluteJiffies_eq (h : ms ≠ timeoutInfinite) :
    (timeoutMsToAbsoluteJiffies hz now ms).toNat =
      (now.toNat + ticks hz.toNat ms.toNat) % 2 ^ 64 := by
  rw [timeoutMsToAbsoluteJiffies, if_neg h, BitVec.toNat_add, toNat_setWidth_ticks]

theorem pullResendTimeout_eq (h : ms ≠ timeoutInfinite) (ep : Timeouts) :
    (setRequestTimeout hz ep none ms).1.pullResendTimeoutJiffies.toNat =
      ticks hz.toNat ms.toNat := by
  have hlt := ticks_lt hz.toNat ms.toNat
  show ((timeoutMsToRelativeJiffies hz ms).setWidth 32).toNat = _
  rw [BitVec.toNat_setWidth, relativeJiffies_eq h]
  exact Nat.mod_eq_of_lt (by omega)

/-- Two resends a second leave no room for the odd rates. -/
theorem ticksFit_two {limit : ℕ} : TicksFit 2 limit ↔ limit * 2 + 1023 < 2 ^ 32 := by
  unfold TicksFit
  omega

/-- The date does not go down if the delay does not, and the last one is no later than time goes. -/
theorem absolute_le_iff (now : BitVec 64) (hz limit : ℕ) :
    (∀ ms ms', ms ≤ ms' → ms' ≤ limit →
      (now.toNat + ticks hz ms) % 2 ^ 64 ≤ (now.toNat + ticks hz ms') % 2 ^ 64) ↔
    TicksOrdered hz limit ∧ now.toNat + ticks hz limit < 2 ^ 64 := by
  have hnow := now.isLt
  constructor
  · intro h
    have hfits : ∀ ms, ms ≤ limit → now.toNat + ticks hz ms < 2 ^ 64 := by
      intro ms hms
      by_contra hnot
      have hlt := ticks_lt hz ms
      have hle := h 0 ms (Nat.zero_le _) hms
      rw [ticks_zero, Nat.add_zero, Nat.mod_eq_of_lt hnow, Nat.mod_eq_sub_mod (not_lt.1 hnot),
        Nat.mod_eq_of_lt (by omega)] at hle
      omega
    refine ⟨fun ms ms' hle hlimit => ?_, hfits limit le_rfl⟩
    have hle' := h ms ms' hle hlimit
    rw [Nat.mod_eq_of_lt (hfits ms (hle.trans hlimit)), Nat.mod_eq_of_lt (hfits ms' hlimit)] at hle'
    omega
  · rintro ⟨hticks, hlast⟩ ms ms' hle hlimit
    have hms := hticks ms ms' hle hlimit
    have hms' := hticks ms' limit hlimit le_rfl
    rw [Nat.mod_eq_of_lt (by omega), Nat.mod_eq_of_lt (by omega)]
    omega

/-- An order of the words is one of their values. -/
theorem forall_words_iff {P : ℕ → ℕ → Prop} : (∀ ms ms' : BitVec 32, ms ≤ ms' → ms' ≤ limit →
    P ms.toNat ms'.toNat) ↔ ∀ ms ms', ms ≤ ms' → ms' ≤ limit.toNat → P ms ms' := by
  constructor
  · intro h ms ms' hle hlimit
    have hlt := limit.isLt
    have hms : (BitVec.ofNat 32 ms).toNat = ms := Nat.mod_eq_of_lt (by omega)
    have hms' : (BitVec.ofNat 32 ms').toNat = ms' := Nat.mod_eq_of_lt (by omega)
    have hP := h (.ofNat 32 ms) (.ofNat 32 ms') (by rwa [BitVec.le_def, hms, hms'])
      (by rwa [BitVec.le_def, hms'])
    rwa [hms, hms'] at hP
  · exact fun h ms ms' hle hlimit => h _ _ hle hlimit

theorem ordered_iff_ticks : Ordered hz now limit ↔ TicksOrdered 2 limit.toNat ∧
    TicksOrdered hz.toNat limit.toNat ∧
      now.toNat + ticks hz.toNat limit.toNat < 2 ^ 64 := by
  have hresends : TicksOrdered 2 limit.toNat ↔ ∀ ms ms' : BitVec 32, ms ≤ ms' → ms' ≤ limit →
      timeoutMsToResends ms ≤ timeoutMsToResends ms' := by
    simp only [resends_le_iff]
    exact forall_words_iff.symm
  constructor
  · intro h
    have htwo := hresends.2 fun ms ms' hle hlimit => (h ms ms' hle hlimit).1
    have hfits := ticksFit_two.1 (htwo.fit (by decide))
    refine ⟨htwo, (absolute_le_iff now _ _).1 (forall_words_iff.1 fun ms ms' hle hlimit => ?_)⟩
    have hle' := (h ms ms' hle hlimit).2.2.1
    rwa [BitVec.le_def, absoluteJiffies_eq (ne_infinite hfits (BitVec.le_trans hle hlimit)),
      absoluteJiffies_eq (ne_infinite hfits hlimit)] at hle'
  · rintro ⟨htwo, hticks, hlast⟩ ms ms' hle hlimit
    have hfits := ticksFit_two.1 (htwo.fit (by decide))
    have hms := ne_infinite hfits (BitVec.le_trans hle hlimit)
    have hms' := ne_infinite hfits hlimit
    refine ⟨hresends.1 htwo ms ms' hle hlimit, ?_, ?_, fun ep => ?_⟩
    · rw [BitVec.le_def, relativeJiffies_eq hms, relativeJiffies_eq hms']
      exact hticks _ _ hle hlimit
    · rw [BitVec.le_def, absoluteJiffies_eq hms, absoluteJiffies_eq hms']
      exact (absolute_le_iff now _ _).2 ⟨hticks, hlast⟩ _ _ hle hlimit
    · rw [BitVec.le_def, pullResendTimeout_eq hms, pullResendTimeout_eq hms']
      exact hticks _ _ hle hlimit

end

/-- The timeouts up to a limit are converted in their order exactly when neither product wraps, or
that by hz stays where its first wrap leads, and the date does not wrap. -/
theorem ordered_iff (hz : BitVec 32) (now : BitVec 64) (limit : BitVec 32) :
    Ordered hz now limit ↔
      limit.toNat * 2 + 1023 < 2 ^ 32 ∧
      (limit.toNat * hz.toNat + 1023 < 2 ^ 32 ∨ limit.toNat ≤ 1 ∨
        limit.toNat * (2 ^ 32 - hz.toNat) < 2048) ∧
      now.toNat + (limit.toNat * hz.toNat + 1023) % 2 ^ 32 / 1024 < 2 ^ 64 := by
  rw [ordered_iff_ticks, ticksOrdered_iff (by decide), ticksFit_two, ticksOrdered_iff hz.isLt]
  exact Iff.rfl

/-- The infinite timeout has no resends, and a timeout of a second has two. -/
theorem not_ordered : ¬ ∀ (hz : BitVec 32) (now : BitVec 64), Ordered hz now timeoutInfinite := by
  intro h
  have hle := (h 250 0 1000 timeoutInfinite (by decide) (by decide)).1
  exact absurd hle (by decide)

end Xen2mx.Progress
