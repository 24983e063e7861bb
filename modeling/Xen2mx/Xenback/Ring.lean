/-
# `Xen2mx.Xenback.Ring` — the command ring between the frontend and the backend

`omx_xen.h` declares one ring whose slots are a union of a request and a
response (`DEFINE_RING_TYPES(omx_xenif, …)`); both structures begin with the
same header, so one type of entries stands for either.  The indexes of the ring
are 32-bit and run freely; the slot of an index is its remainder by the size of
the ring, a power of two.

The definitions here carry the names and the documented meaning of the macros of
Xen's `ring.h`.  `RING_PUSH_RESPONSES_AND_CHECK_NOTIFY` is modelled up to the
event it may send to the frontend, which nothing in the backend reads.
-/
import Mathlib.Data.Nat.Bitwise
import Mathlib.Tactic.Common

namespace Xen2mx.Xenback

/-! ## Entries -/

/-- The values of the `func` field of an entry: 0, the commands of the two
switches of the backend, and every other value. -/
inductive Func where
  | null
  | peerFromIndex | peerFromAddr | peerFromHostname | getEndpointInfo
  | xenGetBoardCount | xenPeerTableGetState | xenPeerTableSetState | xenSetHostname
  | getBoardInfo | xenOpenEndpoint | xenCloseEndpoint
  | xenCreateUserRegion | xenDestroyUserRegion
  | pull | sendRndv | sendMediumsqFrag | sendMediumva | sendSmall | sendTiny
  | sendNotify | sendLiback | sendConnectRequest | sendConnectReply
  | unknown (code : ℕ)
  deriving DecidableEq, Repr

/-- `struct omx_xenif_request` and `struct omx_xenif_response`: `data` is all
that follows `func`. -/
structure Entry (δ : Type*) where
  func : Func
  data : δ
  deriving DecidableEq, Repr

/-! ## Indexes and slots -/

/-- `RING_IDX`. -/
abbrev RingIdx := BitVec 32

/-- The size of a ring: `__CONST_RING_SIZE` rounds down to a power of two, and
the ring has to fit a page. -/
structure RingSize where
  order : ℕ
  order_lt : order < 31

/-- `RING_SIZE`. -/
def RingSize.size (n : RingSize) : ℕ := 2 ^ n.order

/-- The slot of an index, `idx & (RING_SIZE - 1)`. -/
def RingSize.slot (n : RingSize) (idx : RingIdx) : ℕ := idx.toNat &&& (n.size - 1)

theorem RingSize.size_pos (n : RingSize) : 0 < n.size := Nat.two_pow_pos n.order

theorem RingSize.size_lt (n : RingSize) : n.size < 2 ^ 31 :=
  Nat.pow_lt_pow_right (by decide) n.order_lt

theorem RingSize.size_dvd (n : RingSize) : n.size ∣ 2 ^ 32 :=
  Nat.pow_dvd_pow 2 (n.order_lt.trans (by decide)).le

/-- The slot of the index that counts `a` entries. -/
@[simp] theorem RingSize.slot_ofNat (n : RingSize) (a : ℕ) :
    n.slot (BitVec.ofNat 32 a) = a % n.size := by
  have hmod : a % 2 ^ 32 % n.size = a % n.size := Nat.mod_mod_of_dvd a n.size_dvd
  simpa [RingSize.slot, RingSize.size, Nat.and_two_pow_sub_one_eq_mod] using hmod

/-- The distance of two indexes that count less than 2³² entries apart. -/
theorem RingIdx.toNat_sub {a b : ℕ} (hle : b ≤ a) (hlt : a - b < 2 ^ 32) :
    (BitVec.ofNat 32 a - BitVec.ofNat 32 b).toNat = a - b := by
  simp only [BitVec.toNat_sub, BitVec.toNat_ofNat]
  omega

theorem RingIdx.ofNat_inj {a b : ℕ} (hle : b ≤ a) (hlt : a - b < 2 ^ 32) :
    BitVec.ofNat 32 a = BitVec.ofNat 32 b ↔ a = b := by
  refine ⟨fun h => ?_, fun h => by rw [h]⟩
  have hsub := RingIdx.toNat_sub hle hlt
  rw [h, BitVec.sub_self] at hsub
  simp only [BitVec.toNat_zero] at hsub
  omega

theorem RingIdx.ofNat_succ (a : ℕ) : BitVec.ofNat 32 a + 1 = BitVec.ofNat 32 (a + 1) := by
  simp [BitVec.ofNat_add]

/-- Two of fewer than `size` successive indexes have different slots. -/
theorem RingSize.mod_ne (n : RingSize) {a b : ℕ} (hlt : b < a) (hd : a < b + n.size) :
    a % n.size ≠ b % n.size := by
  intro h
  have hdvd : n.size ∣ a - b := Nat.dvd_of_mod_eq_zero (Nat.sub_mod_eq_zero_of_mod_eq h)
  have hle := Nat.le_of_dvd (by omega) hdvd
  omega

/-! ## The shared ring and its two ends -/

/-- The shared page: `struct omx_xenif_sring`. -/
structure Sring (δ : Type*) where
  reqProd : RingIdx
  reqEvent : RingIdx
  rspProd : RingIdx
  ring : ℕ → Entry δ

/-- The private indexes of the backend: `struct omx_xenif_back_ring`. -/
structure BackRing where
  rspProdPvt : RingIdx
  reqCons : RingIdx
  deriving DecidableEq, Repr

variable {δ : Type*} (n : RingSize)

/-- `SHARED_RING_INIT`, over whatever the page held before. -/
def sharedRingInit (mem : ℕ → Entry δ) : Sring δ :=
  { reqProd := 0, reqEvent := 1, rspProd := 0, ring := mem }

/-- `BACK_RING_INIT`. -/
def backRingInit : BackRing := { rspProdPvt := 0, reqCons := 0 }

/-- `RING_GET_REQUEST` and `RING_GET_RESPONSE`: the entry in the slot of an index. -/
def ringGet (sring : Sring δ) (idx : RingIdx) : Entry δ := sring.ring (n.slot idx)

/-- Writing through the pointer that `RING_GET_REQUEST` or `RING_GET_RESPONSE` returned. -/
def ringSet (sring : Sring δ) (idx : RingIdx) (e : Entry δ) : Sring δ :=
  { sring with ring := fun j => if j = n.slot idx then e else sring.ring j }

/-- `RING_REQUEST_CONS_OVERFLOW`. -/
def ringRequestConsOverflow (back : BackRing) (cons : RingIdx) : Bool :=
  n.size ≤ (cons - back.rspProdPvt).toNat

/-- `RING_HAS_UNCONSUMED_REQUESTS`. -/
def ringHasUnconsumedRequests (back : BackRing) (sring : Sring δ) : ℕ :=
  min (sring.reqProd - back.reqCons).toNat
    (BitVec.ofNat 32 n.size - (back.reqCons - back.rspProdPvt)).toNat

/-- `RING_PUSH_REQUESTS_AND_CHECK_NOTIFY`: the new shared ring, and whether the
other end must be notified. -/
def ringPushRequestsAndCheckNotify (sring : Sring δ) (reqProdPvt : RingIdx) : Sring δ × Bool :=
  ({ sring with reqProd := reqProdPvt },
    (reqProdPvt - sring.reqEvent).toNat < (reqProdPvt - sring.reqProd).toNat)

/-- `RING_PUSH_RESPONSES_AND_CHECK_NOTIFY`, less its notification. -/
def ringPushResponses (sring : Sring δ) (back : BackRing) : Sring δ :=
  { sring with rspProd := back.rspProdPvt }

/-! ### What the macros compute on counters -/

@[simp] theorem ringGet_ofNat (sring : Sring δ) (a : ℕ) :
    ringGet n sring (BitVec.ofNat 32 a) = sring.ring (a % n.size) := by
  simp [ringGet]

@[simp] theorem ringSet_ring_ofNat (sring : Sring δ) (a : ℕ) (e : Entry δ) (j : ℕ) :
    (ringSet n sring (BitVec.ofNat 32 a) e).ring j =
      if j = a % n.size then e else sring.ring j := by
  simp [ringSet]

@[simp] theorem ringSet_reqProd (sring : Sring δ) (idx : RingIdx) (e : Entry δ) :
    (ringSet n sring idx e).reqProd = sring.reqProd := rfl

@[simp] theorem ringSet_reqEvent (sring : Sring δ) (idx : RingIdx) (e : Entry δ) :
    (ringSet n sring idx e).reqEvent = sring.reqEvent := rfl

@[simp] theorem ringSet_rspProd (sring : Sring δ) (idx : RingIdx) (e : Entry δ) :
    (ringSet n sring idx e).rspProd = sring.rspProd := rfl

/-- With the response counter level with the request counter, an index overflows
exactly when it is a whole ring ahead of it. -/
theorem not_ringRequestConsOverflow {back : BackRing} {c : ℕ}
    (h : back.rspProdPvt = BitVec.ofNat 32 c) :
    ringRequestConsOverflow n back (BitVec.ofNat 32 c) = false := by
  have hpos := n.size_pos
  simp only [ringRequestConsOverflow, h, BitVec.sub_self, BitVec.toNat_zero]
  exact decide_eq_false (by omega)

/-- While responses are level with requests, at most a ring of requests is waiting,
and the macro counts them. -/
theorem ringHasUnconsumedRequests_level {back : BackRing} {sring : Sring δ} {c p : ℕ}
    (hc : back.reqCons = BitVec.ofNat 32 c) (hr : back.rspProdPvt = BitVec.ofNat 32 c)
    (hp : sring.reqProd = BitVec.ofNat 32 p) (hle : c ≤ p) (hroom : p ≤ c + n.size) :
    ringHasUnconsumedRequests n back sring = p - c := by
  have hlt := n.size_lt
  simp only [ringHasUnconsumedRequests, hc, hr, hp, BitVec.sub_self, BitVec.sub_zero,
    BitVec.toNat_ofNat, RingIdx.toNat_sub hle (by omega)]
  omega

end Xen2mx.Xenback
