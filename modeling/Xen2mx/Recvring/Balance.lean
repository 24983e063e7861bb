/-
# `Xen2mx.Recvring.Balance` — when the receive ring stays balanced

The backend never asks whether the ring has room, writes its responses in any
order, and pushes them all whenever one is complete; two of its receptions that
take a slot at once may get the same one; the frontend answers a response only if
it finds the endpoint.  `Careful` is what the two then depend on: one reception at
a time takes a slot, while fewer responses than the ring has slots are without
their balancing request, the handler reaches no slot before it is written, and
the endpoint of every response is open when the handler gets to it.

**Proved here**, of every run that meets it:

    the responses from the last one handled on are in their slots        (`Placed.slot`)
    neither end writes over a response that is not consumed, each is
    handled once and in order, and has one balancing request             (`recvRing_balanced`)
-/
import Mathlib.Data.Fintype.Basic
import Mathlib.Data.Fintype.Card
import Xen2mx.Recvring.Ring

namespace Xen2mx.Recvring

open Xenback (RingIdx RingSize)
open Function (update update_self update_of_ne)

variable {κ δ : Type*} [DecidableEq κ] (n : RingSize)

/-! ## The condition -/

def Careful (s : State κ δ) : Act κ δ → Prop
  | .load _ _ => (∀ k, (s.reception k).loads = none) ∧
      (s.back.rspProdPvt - s.sring.reqProd).toNat < n.size
  | .handle => ∀ cons ∈ s.handler.next,
      (∀ k, cons ∉ (s.reception k).writes) ∧ s.endpoints (ringGet n s.sring cons).eid = true
  | _ => True

instance Careful.decidable [Fintype κ] (s : State κ δ) : ∀ a : Act κ δ, Decidable (Careful n s a)
  | .load _ _ => inferInstanceAs (Decidable ((∀ k, (s.reception k).loads = none) ∧ _ < n.size))
  -- not the search through all the indexes of the ring
  | .handle => Option.decidableForallMem (p := fun cons =>
      (∀ k, cons ∉ (s.reception k).writes) ∧ s.endpoints (ringGet n s.sring cons).eid = true)
      s.handler.next
  | .take _ | .fill _ | .poke _ | .balance | .interrupt | .ack | .finish | .setEndpoint _ _ =>
      isTrue trivial

instance Overwrites.decidable (s : State κ δ) : ∀ a : Act κ δ, Decidable (Overwrites n s a)
  | .fill k => Option.decidableExistsMem (p := fun idx =>
      ∃ i ∈ s.holds (n.slot idx), s.handled.length ≤ i) (s.reception k).writes
  | .ack => inferInstanceAs (Decidable (s.handler.owed ≠ [] ∧
      ∃ i ∈ s.holds (n.slot s.front.reqProdPvt), s.handled.length ≤ i))
  | .load _ _ | .take _ | .poke _ | .balance | .interrupt | .handle | .finish
  | .setEndpoint _ _ => isFalse id

/-! ## The invariant -/

/-- Where the handler is, with as many responses handled as `h` and published as `p`. -/
def Handler.At (h p : ℕ) (front : FrontRing) : Handler → Prop
  | .idle => front.rspCons = BitVec.ofNat 32 h
  | .loop cons prod | .acking cons prod _ => cons = BitVec.ofNat 32 h ∧
      ∃ q, h ≤ q ∧ q ≤ p ∧ prod = BitVec.ofNat 32 q

theorem Handler.At.mono {h p p' : ℕ} {front : FrontRing} {handler : Handler}
    (hat : handler.At h p front) (hle : p ≤ p') : handler.At h p' front := by
  cases handler with
  | idle => exact hat
  | loop | acking =>
      obtain ⟨hcons, q, hq, hqp, hprod⟩ := hat
      exact ⟨hcons, q, hq, hqp.trans hle, hprod⟩

/-- The indexes of the ring, on counters. -/
structure Counted (s : State κ δ) : Prop where
  rspProdPvt : s.back.rspProdPvt = BitVec.ofNat 32 s.sent.length
  reqProdPvt : s.front.reqProdPvt = BitVec.ofNat 32 s.returned.length
  reqProd : s.sring.reqProd = s.front.reqProdPvt
  /-- as many are published as the handler can see -/
  rspProd : ∃ p ≤ s.sent.length, s.handled.length ≤ p ∧ s.sring.rspProd = BitVec.ofNat 32 p ∧
    s.handler.At s.handled.length p s.front
  /-- all are published, or the context of one that is not will push them -/
  pushed : s.sring.rspProd = s.back.rspProdPvt ∨ ∃ k, s.reception k ≠ .idle
  room : s.sent.length ≤ s.returned.length + n.size
  returned : (s.returned ++ s.handler.owed).map some = s.handled.map (·.func.ack)
  handled : s.handled <+: s.sent
  known : ∀ e ∈ s.sent, e.func.ack.isSome

/-- A reception that has read `rsp_prod_pvt` is alone, and there is room for its response. -/
structure Loading (s : State κ δ) : Prop where
  loaded : ∀ k idx e, s.reception k = .loaded idx e → idx = s.back.rspProdPvt ∧
    s.sent.length < s.returned.length + n.size ∧ e.func.ack.isSome
  alone : ∀ k k' idx idx' e e', s.reception k = .loaded idx e → s.reception k' = .loaded idx' e' →
    k = k'

/-- Where the responses that are not handled yet are. -/
structure Placed (s : State κ δ) : Prop where
  slot : ∀ i e, s.handled.length ≤ i → s.sent[i]? = some e →
    s.sring.ring (i % n.size) = e ∨ ∃ k, s.reception k = .taken i (BitVec.ofNat 32 i) e
  taken : ∀ k i idx e, s.reception k = .taken i idx e →
    idx = BitVec.ofNat 32 i ∧ s.handled.length ≤ i ∧ s.sent[i]? = some e
  own : ∀ k k' i idx idx' e e', s.reception k = .taken i idx e → s.reception k' = .taken i idx' e' →
    k = k'
  holds : ∀ j i, s.holds j = some i → i % n.size = j ∧ i < s.sent.length ∧
    ∀ k idx e, s.reception k ≠ .taken i idx e

structure Invariant (s : State κ δ) : Prop where
  counted : Counted n s
  loading : Loading n s
  placed : Placed n s

variable {n} {s s' : State κ δ}

omit [DecidableEq κ] in
theorem Counted.length_owed (h : Counted n s) :
    s.handled.length = s.returned.length + s.handler.owed.length := by
  have hlen := congrArg List.length h.returned
  simpa using hlen.symm

omit [DecidableEq κ] in
/-- Two responses that are neither handled share no slot. -/
theorem Counted.slot_inj (h : Counted n s) {i i' : ℕ} (hi : s.handled.length ≤ i)
    (hi' : s.handled.length ≤ i') (hlt : i < s.sent.length) (hlt' : i' < s.sent.length)
    (heq : i % n.size = i' % n.size) : i = i' := by
  have hroom := h.room
  have howed := h.length_owed
  rcases lt_trichotomy i i' with hlt₁ | rfl | hlt₁
  · exact absurd heq.symm (n.mod_ne hlt₁ (by omega))
  · rfl
  · exact absurd heq (n.mod_ne hlt₁ (by omega))

omit [DecidableEq κ] in
theorem Invariant.start (zero : δ) : Invariant n (start zero : State κ δ) where
  counted := {
    rspProdPvt := rfl, reqProdPvt := rfl, reqProd := rfl
    rspProd := ⟨0, le_rfl, le_rfl, rfl, rfl⟩
    pushed := .inl rfl
    room := Nat.zero_le _
    returned := rfl
    handled := List.nil_prefix
    known := nofun }
  loading := { loaded := nofun, alone := nofun }
  placed := {
    slot := nofun, taken := nofun, own := nofun, holds := nofun }

/-! ## The backend -/

section
variable {f : κ → Reception δ} {k k' : κ} {i j : ℕ} {idx idx' : RingIdx} {e e' : Entry δ}

theorem update_taken_iff (hk : ∀ i idx e, f k ≠ .taken i idx e) :
    update f k (.taken j idx' e') k' = .taken i idx e ↔
      k' = k ∧ j = i ∧ idx' = idx ∧ e' = e ∨ f k' = .taken i idx e := by
  by_cases hne : k' = k
  · subst hne
    simp [hk]
  · simp [hne]

theorem update_iff_of_ne {r r' : Reception δ} (hr : r ≠ r') :
    update f k r k' = r' ↔ k' ≠ k ∧ f k' = r' := by
  by_cases hne : k' = k
  · subst hne
    simp [hr]
  · simp [hne]

theorem update_loaded_iff {idx₀ : RingIdx} {e₀ : Entry δ} (hk : ∀ i idx e, f k ≠ .taken i idx e) :
    update f k (.loaded idx₀ e₀) k' = .taken i idx e ↔ f k' = .taken i idx e := by
  rw [update_iff_of_ne (by simp)]
  exact ⟨And.right, fun h => ⟨fun hne => hk _ _ _ (hne ▸ h), h⟩⟩

theorem update_filled_iff :
    update f k .filled k' = .taken i idx e ↔ k' ≠ k ∧ f k' = .taken i idx e :=
  update_iff_of_ne nofun

theorem update_idle_iff :
    update f k .idle k' = .taken i idx e ↔ k' ≠ k ∧ f k' = .taken i idx e :=
  update_iff_of_ne nofun

end

section
variable {k : κ} {resp : Entry δ}

omit [DecidableEq κ] in
/-- What a reception that has read `rsp_prod_pvt` relies on is kept while it waits. -/
theorem Loading.frame (hl : Loading n s) (hback : s'.back.rspProdPvt = s.back.rspProdPvt)
    (hsent : s'.sent = s.sent) (hreturned : s.returned.length ≤ s'.returned.length)
    (hreception : ∀ k idx e, s'.reception k = .loaded idx e → s.reception k = .loaded idx e) :
    Loading n s' where
  loaded := by
    intro k idx e hk
    obtain ⟨hidx, hroom, hack⟩ := hl.loaded k idx e (hreception k idx e hk)
    rw [hback, hsent]
    exact ⟨hidx, by omega, hack⟩
  alone := fun k k' idx idx' e e' hk hk' =>
    hl.alone k k' idx idx' e e' (hreception _ _ _ hk) (hreception _ _ _ hk')

theorem Counted.load (hc : Counted n s) (h : s.load k resp = some s') : Counted n s' := by
  simp only [State.load] at h
  split at h <;> cases h
  exact { hc with pushed := .inr ⟨k, by simp⟩ }

theorem Loading.load (hc : Counted n s) (hok : Careful n s (.load k resp))
    (h : s.load k resp = some s') : Loading n s' := by
  obtain ⟨hnone, hok⟩ := hok
  simp only [State.load] at h
  split at h <;> cases h
  rename_i hack
  have hroom := hc.room
  have howed := hc.length_owed
  have hle := hc.handled.length_le
  have hsize := n.size_lt
  rw [hc.reqProd, hc.rspProdPvt, hc.reqProdPvt, RingIdx.toNat_sub (by omega) (by omega)] at hok
  have hlt : s.sent.length < s.returned.length + n.size := by omega
  have honly : ∀ k' idx e, update s.reception k (.loaded s.back.rspProdPvt resp) k' =
      .loaded idx e → k' = k ∧ idx = s.back.rspProdPvt ∧ e = resp := by
    intro k' idx e hk'
    by_cases hne : k' = k
    · rw [hne, update_self] at hk'
      cases hk'
      exact ⟨hne, rfl, rfl⟩
    · rw [update_of_ne hne] at hk'
      have hloads := hnone k'
      rw [hk'] at hloads
      cases hloads
  constructor
  · intro k' idx e hk'
    obtain ⟨-, rfl, rfl⟩ := honly k' idx e hk'
    exact ⟨rfl, hlt, by rw [hack]; rfl⟩
  · intro k₁ k₂ idx idx' e e' h₁ h₂
    exact (honly k₁ idx e h₁).1.trans (honly k₂ idx' e' h₂).1.symm

theorem Placed.load (hp : Placed n s) (h : s.load k resp = some s') : Placed n s' := by
  simp only [State.load] at h
  split at h <;> cases h
  rename_i hk _
  have hiff : ∀ {k' i idx e},
      update s.reception k (.loaded s.back.rspProdPvt resp) k' = .taken i idx e ↔
        s.reception k' = .taken i idx e := update_loaded_iff (by simp [hk])
  constructor <;> simp only [ne_eq, hiff]
  case slot => exact hp.slot
  case taken => exact hp.taken
  case own => exact hp.own
  case holds => exact hp.holds

theorem Counted.take (hc : Counted n s) (hl : Loading n s) (h : s.take k = some s') :
    Counted n s' := by
  simp only [State.take] at h
  split at h <;> cases h
  rename_i idx resp hk
  obtain ⟨rfl, hroom, hack⟩ := hl.loaded k idx resp hk
  refine { hc with
    rspProdPvt := ?_, rspProd := ?_, pushed := .inr ⟨k, by simp⟩, room := ?_, handled := ?_,
    known := ?_ }
  · simp only [hc.rspProdPvt, List.length_append, List.length_singleton]
    exact RingIdx.ofNat_succ _
  · obtain ⟨p, hps, hrest⟩ := hc.rspProd
    exact ⟨p, by simp only [List.length_append]; omega, hrest⟩
  · simp only [List.length_append, List.length_singleton]
    omega
  · exact hc.handled.trans (List.prefix_append _ _)
  · intro e he
    rcases List.mem_append.1 he with he | he
    · exact hc.known e he
    · rw [List.mem_singleton.1 he]
      exact hack

theorem Loading.take (hl : Loading n s) (h : s.take k = some s') : Loading n s' := by
  simp only [State.take] at h
  split at h <;> cases h
  rename_i idx₀ resp hk
  have hnone : ∀ k' idx e, update s.reception k (.taken s.sent.length idx₀ resp) k' ≠
      .loaded idx e := by
    intro k' idx e hk'
    by_cases hne : k' = k
    · rw [hne, update_self] at hk'
      cases hk'
    · rw [update_of_ne hne] at hk'
      exact hne (hl.alone _ _ _ _ _ _ hk' hk)
  exact ⟨fun k' idx e hk' => absurd hk' (hnone k' idx e),
    fun k' _ idx _ e _ hk' => absurd hk' (hnone k' idx e)⟩

theorem Placed.take (hc : Counted n s) (hl : Loading n s) (hp : Placed n s)
    (h : s.take k = some s') : Placed n s' := by
  simp only [State.take] at h
  split at h <;> cases h
  rename_i idx resp hk
  obtain ⟨rfl, -⟩ := hl.loaded k idx resp hk
  have hold : ∀ {k' i idx e}, s.reception k' = .taken i idx e → i < s.sent.length :=
    fun h => (List.getElem?_eq_some_iff.1 (hp.taken _ _ _ _ h).2.2).1
  have hiff : ∀ {k' i idx e},
      update s.reception k (.taken s.sent.length s.back.rspProdPvt resp) k' = .taken i idx e ↔
        k' = k ∧ s.sent.length = i ∧ s.back.rspProdPvt = idx ∧ resp = e ∨
          s.reception k' = .taken i idx e := update_taken_iff (by simp [hk])
  constructor <;> simp only [ne_eq, hiff]
  case slot =>
    intro i e hi he
    rcases lt_or_ge i s.sent.length with hlt | hge
    · rw [List.getElem?_append_left hlt] at he
      exact (hp.slot i e hi he).imp_right fun ⟨k', hk'⟩ => ⟨k', .inr hk'⟩
    · rw [List.getElem?_append_right hge, List.getElem?_singleton] at he
      split at he <;> cases he
      have hi : s.sent.length = i := by omega
      exact .inr ⟨k, .inl ⟨rfl, hi, by rw [hc.rspProdPvt, hi], rfl⟩⟩
  case taken =>
    rintro k' i idx e (⟨rfl, rfl, rfl, rfl⟩ | h)
    · exact ⟨hc.rspProdPvt, hc.handled.length_le, by simp⟩
    · obtain ⟨hidx, hle, he⟩ := hp.taken _ _ _ _ h
      exact ⟨hidx, hle, by rw [List.getElem?_append_left (hold h)]; exact he⟩
  case own =>
    rintro k₁ k₂ i idx idx' e e' (⟨rfl, rfl, -, -⟩ | h₁) (⟨rfl, hi, -, -⟩ | h₂)
    · rfl
    · exact absurd (hold h₂) (lt_irrefl _)
    · exact absurd (hi ▸ hold h₁) (lt_irrefl _)
    · exact hp.own _ _ _ _ _ _ _ h₁ h₂
  case holds =>
    intro j i hj
    obtain ⟨hmod, hlt, hno⟩ := hp.holds j i hj
    refine ⟨hmod, by simp only [List.length_append]; omega, ?_⟩
    rintro k' idx e (⟨-, rfl, -, -⟩ | h)
    · exact absurd hlt (lt_irrefl _)
    · exact hno _ _ _ h

theorem Counted.fill (hc : Counted n s) (h : s.fill n k = some s') : Counted n s' := by
  simp only [State.fill] at h
  split at h <;> cases h
  exact { hc with pushed := .inr ⟨k, by simp⟩ }

theorem Loading.fill (hl : Loading n s) (h : s.fill n k = some s') : Loading n s' := by
  simp only [State.fill] at h
  split at h <;> cases h
  exact hl.frame rfl rfl le_rfl fun _ _ _ hk => ((update_iff_of_ne (by simp)).1 hk).2

theorem Placed.fill (hc : Counted n s) (hp : Placed n s) (h : s.fill n k = some s') :
    Placed n s' := by
  simp only [State.fill] at h
  split at h <;> cases h
  rename_i i₀ idx₀ resp hk
  obtain ⟨rfl, hle₀, he₀⟩ := hp.taken _ _ _ _ hk
  have hlt₀ := (List.getElem?_eq_some_iff.1 he₀).1
  constructor <;> simp only [ne_eq, update_filled_iff, n.slot_ofNat]
  case slot =>
    intro i e hi he
    simp only [ringSet, n.slot_ofNat]
    by_cases hii : i = i₀
    · subst hii
      exact .inl (by rw [if_pos rfl]; exact Option.some_inj.1 (he₀.symm.trans he))
    · have hlt := (List.getElem?_eq_some_iff.1 he).1
      rw [if_neg fun hs => hii (hc.slot_inj hi hle₀ hlt hlt₀ hs)]
      refine (hp.slot i e hi he).imp_right fun ⟨k', hk'⟩ => ⟨k', ?_, hk'⟩
      rintro rfl
      rw [hk] at hk'
      cases hk'
      exact hii rfl
  case taken => exact fun k' i idx e h => hp.taken _ _ _ _ h.2
  case own => exact fun k₁ k₂ i idx idx' e e' h₁ h₂ => hp.own _ _ _ _ _ _ _ h₁.2 h₂.2
  case holds =>
    intro j i hj
    by_cases hjs : j = i₀ % n.size
    · subst hjs
      rw [update_self] at hj
      cases hj
      exact ⟨rfl, hlt₀, fun k' idx e h => h.1 (hp.own _ _ _ _ _ _ _ h.2 hk)⟩
    · rw [update_of_ne hjs] at hj
      obtain ⟨hmod, hlt, hno⟩ := hp.holds j i hj
      exact ⟨hmod, hlt, fun k' idx e h => hno _ _ _ h.2⟩

theorem Counted.poke (hc : Counted n s) (h : s.poke k = some s') : Counted n s' := by
  simp only [State.poke] at h
  split at h <;> cases h
  refine { hc with rspProd := ⟨s.sent.length, le_rfl, hc.handled.length_le, hc.rspProdPvt, ?_⟩,
                   pushed := .inl rfl }
  obtain ⟨p, hps, -, -, hat⟩ := hc.rspProd
  exact hat.mono hps

theorem Loading.poke (hl : Loading n s) (h : s.poke k = some s') : Loading n s' := by
  simp only [State.poke] at h
  split at h <;> cases h
  exact hl.frame rfl rfl le_rfl fun _ _ _ hk => ((update_iff_of_ne (by simp)).1 hk).2

theorem Placed.poke (hp : Placed n s) (h : s.poke k = some s') : Placed n s' := by
  simp only [State.poke] at h
  split at h <;> cases h
  rename_i hk
  constructor <;> simp only [ne_eq, update_idle_iff]
  case slot =>
    intro i e hi he
    refine (hp.slot i e hi he).imp_right fun ⟨k', hk'⟩ => ⟨k', ?_, hk'⟩
    rintro rfl
    rw [hk] at hk'
    cases hk'
  case taken => exact fun k' i idx e h => hp.taken _ _ _ _ h.2
  case own => exact fun k₁ k₂ i idx idx' e e' h₁ h₂ => hp.own _ _ _ _ _ _ _ h₁.2 h₂.2
  case holds =>
    intro j i hj
    obtain ⟨hmod, hlt, hno⟩ := hp.holds j i hj
    exact ⟨hmod, hlt, fun k' idx e h => hno _ _ _ h.2⟩

omit [DecidableEq κ] in
theorem omxXenProcessIncomingResponse_rspProdPvt (sring : Sring δ) (back : Xenback.BackRing) :
    (omxXenProcessIncomingResponse n sring back).rspProdPvt = back.rspProdPvt := by
  unfold omxXenProcessIncomingResponse
  split <;> rfl

omit [DecidableEq κ] in
theorem Counted.balance (hc : Counted n s) : Counted n (s.balance n) := by
  have hpvt := omxXenProcessIncomingResponse_rspProdPvt (n := n) s.sring s.back
  exact { hc with rspProdPvt := hpvt.trans hc.rspProdPvt, pushed := hpvt.symm ▸ hc.pushed }

end

/-! ## The frontend -/

omit [DecidableEq κ] in
theorem Counted.interrupt (hc : Counted n s) (h : s.interrupt = some s') : Counted n s' := by
  simp only [State.interrupt] at h
  split at h
  · split at h <;> cases h
    rename_i hidle _
    obtain ⟨p, hps, hhp, hp, hat⟩ := hc.rspProd
    have howed := hc.returned
    simp only [hidle, Handler.owed] at howed
    simp only [hidle, Handler.At] at hat
    exact { hc with
      rspProd := ⟨p, hps, hhp, hp, hat, p, hhp, le_rfl, hp⟩
      returned := howed }
  all_goals cases h

omit [DecidableEq κ] in
theorem Counted.finish (hc : Counted n s) (h : s.finish = some s') : Counted n s' := by
  simp only [State.finish] at h
  split at h
  · split at h <;> cases h
    rename_i hloop heq
    obtain ⟨p, hps, hhp, hp, hat⟩ := hc.rspProd
    have howed := hc.returned
    simp only [hloop, Handler.owed] at howed
    simp only [hloop, Handler.At] at hat
    refine { hc with
      rspProd := ⟨p, hps, hhp, hp, ?_⟩
      returned := ?_ }
    · split
      · exact hat.1
      · exact ⟨hat.1, p, hhp, le_rfl, hp⟩
    · split <;> exact howed
  all_goals cases h

theorem prefix_snoc {α : Type*} {l l' : List α} {e : α} (h : l <+: l')
    (he : l'[l.length]? = some e) : l ++ [e] <+: l' := by
  obtain ⟨t, rfl⟩ := h
  rw [List.getElem?_append_right le_rfl, Nat.sub_self] at he
  cases t with
  | nil => cases he
  | cons a t =>
      cases he
      exact ⟨t, by simp⟩

omit [DecidableEq κ] in
/-- The slot that the handler reads holds the first response that is not handled, and its
endpoint is open. -/
theorem Invariant.read (hI : Invariant n s) (hok : Careful n s (.handle : Act κ δ))
    (h : s.handle n = some s') : ∃ cons prod resp, s.handler = .loop cons prod ∧
      ringGet n s.sring cons = resp ∧ s.endpoints resp.eid = true ∧
      s.sent[s.handled.length]? = some resp ∧
      s'.sent = s.sent ∧ s'.handled = s.handled ++ [resp] := by
  obtain ⟨hc, -, hp⟩ := hI
  simp only [State.handle] at h
  split at h
  · split at h <;> cases h
    rename_i cons prod hloop hne
    obtain ⟨p, hps, hhp, hpub, hat⟩ := hc.rspProd
    simp only [hloop, Handler.At] at hat
    obtain ⟨rfl, q, hhq, hqp, rfl⟩ := hat
    have hlt : s.handled.length < q := lt_of_le_of_ne hhq fun heq => hne (by rw [heq])
    obtain ⟨hunwritten, hopen⟩ := hok _ (by rw [hloop]; rfl)
    have he := List.getElem?_eq_getElem (hlt.trans_le (hqp.trans hps))
    refine ⟨_, _, _, hloop, rfl, hopen, ?_, rfl, rfl⟩
    rcases hp.slot _ _ le_rfl he with hslot | ⟨k, hk⟩
    · rw [he, ringGet, n.slot_ofNat, hslot]
    · exact absurd (by rw [hk]; rfl) (hunwritten k)
  all_goals cases h

omit [DecidableEq κ] in
theorem Invariant.handle (hI : Invariant n s) (hok : Careful n s (.handle : Act κ δ))
    (h : s.handle n = some s') : Invariant n s' := by
  obtain ⟨_, _, resp, hloop', hresp, hopen, hread, -⟩ := hI.read hok h
  obtain ⟨hc, hl, hp⟩ := hI
  simp only [State.handle] at h
  split at h
  · split at h <;> cases h
    rename_i cons prod hloop hne
    cases hloop.symm.trans hloop'
    obtain ⟨p, hps, hhp, hpub, hat⟩ := hc.rspProd
    simp only [hloop, Handler.At] at hat
    obtain ⟨rfl, q, hhq, hqp, rfl⟩ := hat
    have hlt : s.handled.length < q := lt_of_le_of_ne hhq fun heq => hne (by rw [heq])
    obtain ⟨hunwritten, -⟩ := hok _ (by rw [hloop]; rfl)
    rw [hresp]
    obtain ⟨func, hfunc⟩ := Option.isSome_iff_exists.1 (hc.known resp (List.mem_of_getElem? hread))
    have howed := hc.returned
    simp only [hloop, Handler.owed, List.append_nil] at howed
    refine ⟨{ hc with
      rspProd := ⟨p, hps, ?_, hpub, ?_⟩, returned := ?_, handled := ?_ }, { hl with },
      ⟨?_, ?_, hp.own, hp.holds⟩⟩
    · simp only [List.length_append, List.length_singleton]
      omega
    · simp only [hfunc, hopen, Handler.At, List.length_append, List.length_singleton]
      exact ⟨RingIdx.ofNat_succ _, q, by omega, hqp, rfl⟩
    · simp only [hfunc, hopen, Handler.owed, List.map_append, howed, List.map_cons, List.map_nil]
    · exact prefix_snoc hc.handled hread
    · intro i e hi he
      refine hp.slot i e ?_ he
      simp only [List.length_append, List.length_singleton] at hi
      omega
    · intro k i idx e hk
      obtain ⟨rfl, hle, he⟩ := hp.taken k i idx e hk
      refine ⟨rfl, ?_, he⟩
      have hne : i ≠ s.handled.length := by
        rintro rfl
        exact hunwritten k (by rw [hk]; rfl)
      simp only [List.length_append, List.length_singleton]
      omega
  all_goals cases h

omit [DecidableEq κ] in
/-- The acknowledgement lands in the slot of the response just handled. -/
theorem Invariant.ack (hI : Invariant n s) (h : s.ack n = some s') : Invariant n s' := by
  obtain ⟨hc, hl, hp⟩ := hI
  simp only [State.ack] at h
  split at h
  · cases h
    rename_i cons prod func hacking
    have howed := hc.returned
    have hlen := hc.length_owed
    simp only [hacking, Handler.owed, List.length_singleton] at howed hlen
    have hapart : ∀ i, s.handled.length ≤ i → i < s.sent.length →
        i % n.size ≠ s.returned.length % n.size := by
      intro i hi hlt
      have hroom := hc.room
      exact n.mod_ne (by omega) (by omega)
    obtain ⟨p, hps, hhp, hpub, hat⟩ := hc.rspProd
    refine ⟨{ hc with
      reqProdPvt := ?_, reqProd := rfl, rspProd := ⟨p, hps, hhp, hpub, ?_⟩, room := ?_, returned := ?_ },
      hl.frame rfl rfl (by simp) fun _ _ _ hk => hk, ⟨?_, hp.taken, hp.own, ?_⟩⟩
    · simp only [hc.reqProdPvt, List.length_append, List.length_singleton]
      exact RingIdx.ofNat_succ _
    · simpa only [hacking, Handler.At] using hat
    · have hroom := hc.room
      simp only [List.length_append, List.length_singleton]
      omega
    · simpa only [Handler.owed, List.append_nil] using howed
    · intro i e hi he
      have hne := hapart i hi (List.getElem?_eq_some_iff.1 he).1
      simp only [ringSet, hc.reqProdPvt, n.slot_ofNat, if_neg hne]
      exact hp.slot i e hi he
    · intro j i hj
      simp only [hc.reqProdPvt, n.slot_ofNat] at hj
      by_cases hjs : j = s.returned.length % n.size
      · subst hjs
        rw [update_self] at hj
        cases hj
      · rw [update_of_ne hjs] at hj
        exact hp.holds j i hj
  all_goals cases h

/-! ## Every step -/

/-- Steps that take no place in the ring and handle no response. -/
theorem step_keeps {a : Act κ δ} (hload : ∀ k resp, a ≠ .load k resp) (htake : ∀ k, a ≠ .take k)
    (hhandle : a ≠ .handle) (h : step n s a = some s') :
    s'.sent = s.sent ∧ s'.handled = s.handled ∧
      ∀ k idx resp, s'.reception k = .loaded idx resp → s.reception k = .loaded idx resp := by
  cases a with
  | load k resp => exact absurd rfl (hload k resp)
  | take k => exact absurd rfl (htake k)
  | handle => exact absurd rfl hhandle
  | fill k | poke k =>
      simp only [Recvring.step, State.fill, State.poke] at h
      split at h <;> cases h
      exact ⟨rfl, rfl, fun _ _ _ hk => ((update_iff_of_ne (by simp)).1 hk).2⟩
  | interrupt | ack | finish =>
      simp only [Recvring.step, State.interrupt, State.ack, State.finish] at h
      split at h
      · first
          | (split at h <;> cases h; exact ⟨rfl, rfl, fun _ _ _ hk => hk⟩)
          | (cases h; exact ⟨rfl, rfl, fun _ _ _ hk => hk⟩)
      all_goals cases h
  | balance | setEndpoint eid isOpen =>
      cases h
      exact ⟨rfl, rfl, fun _ _ _ hk => hk⟩

theorem Invariant.step {a : Act κ δ} (hI : Invariant n s) (hok : Careful n s a)
    (h : step n s a = some s') : Invariant n s' := by
  cases a with
  | load k resp =>
      exact ⟨hI.counted.load h, Loading.load hI.counted hok h, hI.placed.load h⟩
  | take k =>
      exact ⟨hI.counted.take hI.loading h, hI.loading.take h,
        hI.placed.take hI.counted hI.loading h⟩
  | fill k => exact ⟨hI.counted.fill h, hI.loading.fill h, hI.placed.fill hI.counted h⟩
  | poke k => exact ⟨hI.counted.poke h, hI.loading.poke h, hI.placed.poke h⟩
  | balance =>
      cases h
      exact ⟨hI.counted.balance, hI.loading.frame (omxXenProcessIncomingResponse_rspProdPvt _ _)
        rfl le_rfl fun _ _ _ hk => hk, { hI.placed with }⟩
  | interrupt =>
      have hc := hI.counted.interrupt h
      simp only [Recvring.step, State.interrupt] at h
      split at h
      · split at h <;> cases h
        exact ⟨hc, { hI.loading with }, { hI.placed with }⟩
      all_goals cases h
  | handle => exact hI.handle hok h
  | ack => exact hI.ack h
  | finish =>
      have hc := hI.counted.finish h
      simp only [Recvring.step, State.finish] at h
      split at h
      · split at h <;> cases h
        exact ⟨hc, { hI.loading with }, { hI.placed with }⟩
      all_goals cases h
  | setEndpoint eid isOpen =>
      cases h
      exact ⟨{ hI.counted with }, { hI.loading with }, { hI.placed with }⟩

omit [DecidableEq κ] in
theorem Invariant.not_overwrites {a : Act κ δ} (hI : Invariant n s) : ¬ Overwrites n s a := by
  obtain ⟨hc, hl, hp⟩ := hI
  cases a with
  | fill k =>
      rintro ⟨idx, hidx, i, hi, hle⟩
      cases hk : s.reception k with
      | idle | loaded | filled => rw [hk] at hidx; cases hidx
      | taken i₀ idx₀ resp =>
          rw [hk] at hidx
          cases hidx
          obtain ⟨rfl, hle₀, he₀⟩ := hp.taken _ _ _ _ hk
          rw [n.slot_ofNat] at hi
          obtain ⟨hmod, hlt, hno⟩ := hp.holds _ _ hi
          have heq := hc.slot_inj hle hle₀ hlt (List.getElem?_eq_some_iff.1 he₀).1 hmod
          exact hno _ _ _ (heq ▸ hk)
  | ack =>
      rintro ⟨howes, i, hi, hle⟩
      rw [hc.reqProdPvt, n.slot_ofNat] at hi
      obtain ⟨hmod, hlt, -⟩ := hp.holds _ _ hi
      have hlen := hc.length_owed
      have hroom := hc.room
      have hpos := List.length_pos_iff.2 howes
      exact n.mod_ne (by omega) (by omega) hmod
  | load | take | poke | balance | interrupt | handle | finish | setEndpoint => exact id

omit [DecidableEq κ] in
theorem Counted.balanced (hc : Counted n s) : Balanced s where
  handled := hc.handled
  all_handled := by
    intro hidle heq hall
    obtain ⟨p, hps, hhp, hpub, hat⟩ := hc.rspProd
    have hroom := hc.room
    have hlen := hc.length_owed
    have hsize := n.size_lt
    have hpushed := hc.pushed.resolve_right fun ⟨k, hk⟩ => hk (hall k)
    simp only [hidle, Handler.At, Handler.owed, List.length_nil] at hat hlen
    rw [heq, hat, hc.rspProdPvt] at hpushed
    have hcount := (RingIdx.ofNat_inj hc.handled.length_le (by omega)).1 hpushed.symm
    exact hc.handled.eq_of_length hcount.symm
  returned := hc.returned
  difference := by
    intro hidle
    obtain ⟨p, -, -, -, hat⟩ := hc.rspProd
    have hlen := hc.length_owed
    simp only [hidle, Handler.At, Handler.owed, List.length_nil] at hat hlen
    rw [hc.reqProd, hc.reqProdPvt, hat, hlen, Nat.add_zero, BitVec.sub_self]
    rfl

/-! ## Every run -/

/-- In every run in which receptions take their slots one at a time and only while the
ring has room for them, and responses are read only when written, and for open endpoints,
nothing is written over a response that is not consumed, and the ring is balanced in
every state. -/
theorem recvRing_balanced (n : RingSize) (zero : δ) (acts : List (Act κ δ))
    (hok : (machine n zero).Meets (Careful n) (start zero) acts) (s : State κ δ)
    (hs : (machine n zero).exec (start zero) acts = some s) :
    (machine n zero).Meets (fun s a => ¬ Overwrites n s a) (start zero) acts ∧ Balanced s := by
  have hstep : ∀ (s : State κ δ) a s', Invariant n s → Careful n s a → (machine n zero).step s a = some s' →
      Invariant n s' := fun s a s' hI hok h => hI.step hok h
  exact ⟨hok.imp hstep (fun _ _ hI _ => hI.not_overwrites) (Invariant.start zero),
    (hok.invariant hstep (Invariant.start zero) hs).counted.balanced⟩

/-- Two receptions at once in a ring of two slots, published by one poke. -/
theorem recvRing_balanced_two :
    ∃ s, (machine (κ := Fin 2) ⟨1, by decide⟩ ()).exec (start ())
        [.setEndpoint 3 true, .load 0 ⟨.recvTiny, 3, ()⟩, .take 0, .load 1 ⟨.xenRecvPullDone, 3, ()⟩,
          .take 1, .fill 1, .fill 0, .poke 1, .interrupt, .handle, .ack, .handle, .ack, .finish,
          .balance, .poke 0] =
        some s ∧ s.returned = [.recvTiny, .xenDummy] ∧ Balanced s := by
  obtain ⟨s, hs, hret⟩ := Option.map_eq_some_iff.1 (show
    ((machine (κ := Fin 2) ⟨1, by decide⟩ ()).exec (start ())
        [.setEndpoint 3 true, .load 0 ⟨.recvTiny, 3, ()⟩, .take 0, .load 1 ⟨.xenRecvPullDone, 3, ()⟩,
          .take 1, .fill 1, .fill 0, .poke 1, .interrupt, .handle, .ack, .handle, .ack, .finish,
          .balance, .poke 0]).map
        (·.returned) = some [.recvTiny, .xenDummy] by decide +kernel)
  exact ⟨s, hs, hret, (recvRing_balanced ⟨1, by decide⟩ () _ (by decide +kernel) s hs).2⟩

/-- A response for an endpoint that is not open gets no balancing request; in a ring of
sixteen slots the seventeenth response of a burst overwrites the first; and of two
receptions that read the same index one is lost. -/
theorem recvRing_not_balanced :
    (∃ s, (machine (κ := Unit) ⟨4, by decide⟩ ()).exec (start ())
        [.load () ⟨.recvTiny, 3, ()⟩, .take (), .fill (), .poke (), .interrupt, .handle, .finish] =
          some s ∧ ¬ Balanced s) ∧
    (¬ (machine (κ := Unit) ⟨4, by decide⟩ ()).Meets (fun s a => ¬ Overwrites ⟨4, by decide⟩ s a)
      (start ()) (.setEndpoint 3 true ::
        (List.replicate 17 [.load () ⟨.recvTiny, 3, ()⟩, .take (), .fill (), .poke ()]).flatten)) ∧
    ∃ s, (machine (κ := Fin 2) ⟨4, by decide⟩ ()).exec (start ())
        [.setEndpoint 3 true, .load 0 ⟨.recvTiny, 3, ()⟩, .load 1 ⟨.recvSmall, 3, ()⟩, .take 0,
          .take 1, .fill 0, .fill 1, .poke 0, .poke 1, .interrupt, .handle, .ack, .finish] =
          some s ∧ ¬ Balanced s := by
  refine ⟨?_, by decide +kernel, ?_⟩
  · obtain ⟨s, hs, hret⟩ := Option.map_eq_some_iff.1 (show
      ((machine (κ := Unit) ⟨4, by decide⟩ ()).exec (start ())
        [.load () ⟨.recvTiny, 3, ()⟩, .take (), .fill (), .poke (), .interrupt, .handle,
          .finish]).map
        (fun s => ((s.returned ++ s.handler.owed).map some, s.handled.map (·.func.ack))) =
        some ([], [some .recvTiny]) by decide +kernel)
    obtain ⟨hnone, hone⟩ := Prod.mk.inj hret
    refine ⟨s, hs, fun h => ?_⟩
    have hreturned := h.returned
    rw [hnone, hone] at hreturned
    cases hreturned
  · obtain ⟨s, hs, hidle, heq, h0, h1, hhandled, hsent⟩ : ∃ s,
        (machine (κ := Fin 2) ⟨4, by decide⟩ ()).exec (start ())
          [.setEndpoint 3 true, .load 0 ⟨.recvTiny, 3, ()⟩, .load 1 ⟨.recvSmall, 3, ()⟩, .take 0,
            .take 1, .fill 0, .fill 1, .poke 0, .poke 1, .interrupt, .handle, .ack, .finish] =
          some s ∧ s.handler = .idle ∧ s.sring.rspProd = s.front.rspCons ∧
        s.reception 0 = .idle ∧ s.reception 1 = .idle ∧ s.handled.length = 1 ∧
        s.sent.length = 2 := ⟨_, rfl, rfl, rfl, rfl, rfl, rfl, rfl⟩
    refine ⟨s, hs, fun h => ?_⟩
    rw [h.all_handled hidle heq (Fin.forall_fin_two.2 ⟨h0, h1⟩), hsent] at hhandled
    cases hhandled

end Xen2mx.Recvring
