/-
# `Xen2mx.Matching.Order` — no match is missed, and the earliest comes first

Each search runs over one queue: the receives of the message's context, or the unexpected
messages of the receive's.  That no other queue holds a match is due to the two checks of
`omx_irecv`, which make every receive look at its context (`ctxid_eq`).  That the queue is
in the order of posting or arrival is due to every insertion being at the tail, with one
exception: a message waits for its handler while others, from the endpoint itself or
after another handler enabled progression, take their way to the unexpected queue
(`NotOvertaken`).  And that each message is matched once is due to `next_match_recv_seq`, which
is increased when its handler returns (`NotReentered`).

**Proved here.**

    no message is overtaken in its handler, or matched again  ⟹  nothing that matches is left
        over, every search finds the earliest match, and every message is handed on in its turn
                                                        (`matching_earliestFirst`)
-/
import Xen2mx.Lib.Fifo
import Xen2mx.Matching.Turns

namespace Xen2mx.Matching

open Isend (Seqnum)

variable {z : CtxidConfig}

/-! ## Contexts -/

namespace CtxidConfig

theorem two_pow_bits_lt : 2 ^ z.ctxidBits < 2 ^ 32 :=
  Nat.pow_lt_pow_right (by decide) (Nat.lt_of_le_of_lt z.bits_le (by decide))

theorem ctxidMax_toNat : z.ctxidMax.toNat = 2 ^ z.ctxidBits := by
  rw [ctxidMax, BitVec.toNat_shiftLeft, BitVec.toNat_ofNat, Nat.shiftLeft_eq,
    Nat.mod_eq_of_lt (a := 1) (by decide), Nat.one_mul, Nat.mod_eq_of_lt two_pow_bits_lt]

theorem toNat_sub_one {w : ℕ} {x : BitVec w} (hw : 1 < 2 ^ w) (hx : 0 < x.toNat) :
    (x - 1).toNat = x.toNat - 1 := by
  have hone : (1 : BitVec w).toNat = 1 := Nat.mod_eq_of_lt hw
  rw [BitVec.toNat_sub_of_le, hone]
  rw [BitVec.le_def, hone]
  exact hx

theorem getLsbD_ctxidMax_sub_one (i : ℕ) :
    (z.ctxidMax - 1).getLsbD i = decide (i < z.ctxidBits) := by
  rw [BitVec.getLsbD, toNat_sub_one (by decide) (ctxidMax_toNat ▸ Nat.two_pow_pos _),
    ctxidMax_toNat, Nat.testBit_two_pow_sub_one]

/-- The bits of a context id are those of the match information at its place. -/
theorem getLsbD_ctxidFromMatching (matching : BitVec 64) (i : ℕ) :
    (z.ctxidFromMatching matching).getLsbD i =
      (decide (i < z.ctxidBits) && matching.getLsbD (z.ctxidShift + i)) := by
  have hbits := z.bits_le
  rw [ctxidFromMatching, BitVec.getLsbD_setWidth, BitVec.getLsbD_and, BitVec.getLsbD_ushiftRight,
    BitVec.getLsbD_setWidth, getLsbD_ctxidMax_sub_one]
  by_cases hi : i < z.ctxidBits
  · have hlt : i < 32 := by omega
    have hlt' : i < 64 := by omega
    simp only [hi, hlt, hlt', decide_true, Bool.true_and, Bool.and_true]
  · simp only [hi, decide_false, Bool.and_false, Bool.false_and]

/-- And the mask covers that place. -/
theorem getLsbD_ctxidMask {i : ℕ} (hi : i < z.ctxidBits) :
    z.ctxidMask.getLsbD (z.ctxidShift + i) = true := by
  have hbits := z.bits_le
  have hadd := z.add_le
  have hmax : (z.ctxidMax.setWidth 64).toNat = 2 ^ z.ctxidBits := by
    rw [BitVec.toNat_setWidth_of_le (by decide), ctxidMax_toNat]
  rw [ctxidMask, BitVec.getLsbD_shiftLeft, Nat.add_sub_cancel_left, BitVec.getLsbD,
    toNat_sub_one (by decide) (hmax ▸ Nat.two_pow_pos _), hmax, Nat.testBit_two_pow_sub_one]
  have hlt : z.ctxidShift + i < 64 := by omega
  simp only [hi, hlt, Nat.not_lt.2 (Nat.le_add_right _ _), decide_true, decide_false, Bool.not_false,
    Bool.and_true]

end CtxidConfig

/-- The receive looks at its context: "check that there's no wildcard in the context id
range". -/
def Recv.Valid (z : CtxidConfig) (req : Recv) : Prop := z.ctxidMask &&& ~~~req.matchMask = 0

/-- So all that it matches is in its context. -/
theorem Recv.Valid.ctxid_eq {req : Recv} {msg : Msg} (hvalid : req.Valid z)
    (hmatch : req.Matches msg) :
    z.ctxidFromMatching msg.matchInfo = z.ctxidFromMatching req.matchInfo := by
  refine BitVec.eq_of_getLsbD_eq fun i _ => ?_
  rw [CtxidConfig.getLsbD_ctxidFromMatching, CtxidConfig.getLsbD_ctxidFromMatching]
  by_cases hi : i < z.ctxidBits
  · have hadd := z.add_le
    have hlt : z.ctxidShift + i < 64 := by omega
    have hmask : (z.ctxidMask &&& ~~~req.matchMask).getLsbD (z.ctxidShift + i) = false := by
      rw [hvalid]
      exact BitVec.getLsbD_zero
    rw [BitVec.getLsbD_and, CtxidConfig.getLsbD_ctxidMask hi, BitVec.getLsbD_not, Bool.true_and,
      decide_eq_true hlt, Bool.true_and, Bool.not_eq_false'] at hmask
    rw [← hmatch, BitVec.getLsbD_and, hmask, Bool.and_true]
  · rw [decide_eq_false hi, Bool.false_and, Bool.false_and]

/-! ## What holds of the queues -/

namespace Endpoint

/-- A receive that is refused leaves no trace. -/
theorem irecv_eq_self {ep : Endpoint} {matchInfo matchMask : BitVec 64} {alloc : Bool}
    (h : (ep.irecv z matchInfo matchMask alloc).1 ≠ .success) :
    (ep.irecv z matchInfo matchMask alloc).2 = ep := by
  revert h
  unfold Endpoint.irecv Endpoint.irecvSegs
  dsimp only
  split
  · exact fun _ => rfl
  · split
    · exact fun _ => rfl
    · split
      · exact fun h => absurd rfl h
      · split
        · exact fun h => absurd rfl h
        · exact fun _ => rfl

def Posted (ep : Endpoint) (req : Recv) : Prop := ∃ c, req ∈ (ep.ctxid c).recvReqQ

variable (z) in
/-- The messages of a context that are in the unexpected queue. -/
def unexpOf (ep : Endpoint) (c : BitVec 32) : List Msg :=
  ep.unexpReqQ.filter fun msg => z.ctxidFromMatching msg.matchInfo = c

variable (z) in
structure Inv (ep : Endpoint) : Prop where
  recvCtxid : ∀ c, ∀ req ∈ (ep.ctxid c).recvReqQ, z.ctxidFromMatching req.matchInfo = c
  recvValid : ∀ c, ∀ req ∈ (ep.ctxid c).recvReqQ, req.Valid z
  recvOrdered : ∀ c, Ordered Recv.number (ep.ctxid c).recvReqQ
  recvOld : ∀ c, ∀ req ∈ (ep.ctxid c).recvReqQ, req.number < ep.posted
  msgOld : ∀ msg ∈ ep.unexpReqQ ++ ep.handling, msg.number < ep.arrived
  ctxidUnexp : ∀ c, (ep.ctxid c).unexpReqQ = if z.hasCtxids then ep.unexpOf z c else []
  unexpOrdered : ∀ c, Ordered Msg.number (ep.unexpOf z c)
  noPair : ∀ c, ∀ req ∈ (ep.ctxid c).recvReqQ, ∀ msg ∈ ep.unexpReqQ, ¬ req.Matches msg

variable (z) in
/-- A message leaves its handler for the unexpected queue before those of its context that
came after it. -/
def NotOvertaken (ep : Endpoint) : Action → Prop
  | .handlerReturn msg .recvContinue true =>
      ep.matchRecv z msg.matchInfo = none →
        ∀ msg' ∈ ep.unexpOf z (z.ctxidFromMatching msg.matchInfo), msg'.number < msg.number
  | _ => True

instance (ep : Endpoint) : DecidablePred (NotOvertaken z ep) := fun a => by
  unfold NotOvertaken
  split <;> infer_instance

variable (z) in
/-- Handlers do not disturb each other's messages. -/
def Undisturbed (ep : Endpoint) (a : Action) : Prop := ep.NotOvertaken z a ∧ ep.NotReentered a

instance (ep : Endpoint) : DecidablePred (Undisturbed z ep) :=
  fun _ => inferInstanceAs (Decidable (_ ∧ _))

theorem setCtxid_self (ep : Endpoint) (c : BitVec 32) (queues : Ctxid) :
    (ep.setCtxid c queues).ctxid c = queues := if_pos rfl

theorem setCtxid_of_ne (ep : Endpoint) {c c' : BitVec 32} (h : c' ≠ c) (queues : Ctxid) :
    (ep.setCtxid c queues).ctxid c' = ep.ctxid c' := if_neg h

@[simp] theorem setCtxid_given (ep : Endpoint) (c : BitVec 32) (queues : Ctxid) :
    (ep.setCtxid c queues).given = ep.given := rfl

theorem mem_unexpOf {ep : Endpoint} {c : BitVec 32} {msg : Msg} :
    msg ∈ ep.unexpOf z c ↔ msg ∈ ep.unexpReqQ ∧ z.ctxidFromMatching msg.matchInfo = c := by
  rw [unexpOf, List.mem_filter, decide_eq_true_iff]

namespace Inv

variable {ep ep' : Endpoint}

theorem init (start : ℕ → Seqnum) : Inv z (.init start) :=
  ⟨nofun, nofun, fun _ => .nil, nofun, nofun, fun _ => (ite_self _).symm, fun _ => .nil, nofun⟩

/-! ### The two searches -/

theorem posted_iff (h : Inv z ep) (msg : Msg) (req : Recv) :
    ep.Posted req ∧ req.Matches msg ↔
      req ∈ (ep.ctxid (z.ctxidFromMatching msg.matchInfo)).recvReqQ ∧
        decide (req.matchInfo = req.matchMask &&& msg.matchInfo) = true := by
  rw [decide_eq_true_iff, BitVec.and_comm, eq_comm (a := req.matchInfo)]
  refine and_congr_left fun hmatch => ⟨?_, fun hmem => ⟨_, hmem⟩⟩
  rintro ⟨c, hmem⟩
  obtain rfl := h.recvCtxid c req hmem
  rw [(h.recvValid _ req hmem).ctxid_eq hmatch]
  exact hmem

/-- The search of a message finds the receive posted first of all that match, -/
theorem matchRecv_eq_some (h : Inv z ep) {msg : Msg} {req : Recv} :
    (∃ ep', ep.matchRecv z msg.matchInfo = some (req, ep')) ↔
      Earliest Recv.number (fun req => ep.Posted req ∧ req.Matches msg) req := by
  rw [Earliest.congr (h.posted_iff msg), ← (h.recvOrdered _).find?_eq_some]
  simp only [matchRecv, Option.map_eq_some_iff, Prod.mk.injEq]
  constructor
  · rintro ⟨ep', req', hfind, rfl, -⟩
    exact hfind
  · intro hfind
    exact ⟨_, req, hfind, rfl, rfl⟩

/-- and misses none. -/
theorem matchRecv_eq_none (h : Inv z ep) {msg : Msg} :
    ep.matchRecv z msg.matchInfo = none ↔ ∀ req, ep.Posted req → ¬ req.Matches msg := by
  simp only [matchRecv, Option.map_eq_none_iff, List.find?_eq_none]
  constructor
  · intro hnone req hposted hmatch
    obtain ⟨hmem, hfound⟩ := (h.posted_iff msg req).1 ⟨hposted, hmatch⟩
    exact hnone req hmem hfound
  · intro hnone req hmem hfound
    obtain ⟨hposted, hmatch⟩ := (h.posted_iff msg req).2 ⟨hmem, hfound⟩
    exact hnone req hposted hmatch

/-- The queue in which a receive looks. -/
theorem search_eq (h : Inv z ep) {req : Recv} (hvalid : req.Valid z) :
    ((if z.hasCtxids then (ep.ctxid (z.ctxidFromMatching req.matchInfo)).unexpReqQ
      else ep.unexpReqQ).find? fun msg => req.Matches msg) =
      (ep.unexpOf z (z.ctxidFromMatching req.matchInfo)).find? fun msg => req.Matches msg := by
  have hall : (ep.unexpReqQ.find? fun msg => req.Matches msg) =
      (ep.unexpOf z (z.ctxidFromMatching req.matchInfo)).find? fun msg => req.Matches msg := by
    rw [unexpOf, List.find?_filter]
    congr 1
    funext msg
    by_cases hmatch : req.Matches msg
    · rw [hvalid.ctxid_eq hmatch, decide_eq_true hmatch, decide_eq_true rfl]
      rfl
    · simp only [hmatch, decide_false, Bool.false_eq_true, and_false]
  split
  · rename_i hctxids
    rw [h.ctxidUnexp, if_pos hctxids]
  · exact hall

theorem unexp_iff {req : Recv} (hvalid : req.Valid z) (msg : Msg) :
    msg ∈ ep.unexpReqQ ∧ req.Matches msg ↔
      msg ∈ ep.unexpOf z (z.ctxidFromMatching req.matchInfo) ∧ decide (req.Matches msg) = true := by
  rw [decide_eq_true_iff, mem_unexpOf]
  exact and_congr_left fun hmatch => (and_iff_left (hvalid.ctxid_eq hmatch)).symm

/-- The search of a receive finds the message that came first of all that match. -/
theorem search_eq_some (h : Inv z ep) {req : Recv} (hvalid : req.Valid z) {msg : Msg} :
    ((if z.hasCtxids then (ep.ctxid (z.ctxidFromMatching req.matchInfo)).unexpReqQ
      else ep.unexpReqQ).find? fun msg => req.Matches msg) = some msg ↔
      Earliest Msg.number (fun msg => msg ∈ ep.unexpReqQ ∧ req.Matches msg) msg := by
  rw [Earliest.congr (unexp_iff hvalid), ← (h.unexpOrdered _).find?_eq_some, h.search_eq hvalid]

/-! ### The queues change -/

/-- Flags, handlers and the log have no part in the queues. -/
theorem congr (h : Inv z ep) (hctxid : ep'.ctxid = ep.ctxid) (hunexp : ep'.unexpReqQ = ep.unexpReqQ)
    (hposted : ep'.posted = ep.posted) (harrived : ep.arrived ≤ ep'.arrived)
    (hhandling : ∀ msg ∈ ep'.handling, msg.number < ep'.arrived) : Inv z ep' where
  recvCtxid := by rw [hctxid]; exact h.recvCtxid
  recvValid := by rw [hctxid]; exact h.recvValid
  recvOrdered := by rw [hctxid]; exact h.recvOrdered
  recvOld := by rw [hctxid, hposted]; exact h.recvOld
  msgOld := by
    intro msg hmsg
    rcases List.mem_append.1 hmsg with hmem | hmem
    · rw [hunexp] at hmem
      exact (h.msgOld msg (List.mem_append_left _ hmem)).trans_le harrived
    · exact hhandling msg hmem
  ctxidUnexp := by rw [hctxid]; unfold unexpOf; rw [hunexp]; exact h.ctxidUnexp
  unexpOrdered := by unfold unexpOf; rw [hunexp]; exact h.unexpOrdered
  noPair := by rw [hctxid, hunexp]; exact h.noPair

/-- The receives of a context are replaced by others. -/
theorem setRecvReqQ (h : Inv z ep) {c : BitVec 32} {queue : List Recv} {n : ℕ}
    (hctxid : ∀ req ∈ queue, z.ctxidFromMatching req.matchInfo = c)
    (hvalid : ∀ req ∈ queue, req.Valid z) (hordered : Ordered Recv.number queue)
    (hold : ∀ req ∈ queue, req.number < n) (hle : ep.posted ≤ n)
    (hpair : ∀ req ∈ queue, ∀ msg ∈ ep.unexpReqQ, ¬ req.Matches msg) :
    Inv z ({ ep with posted := n }.setCtxid c { ep.ctxid c with recvReqQ := queue }) := by
  have hqueue : ∀ c', (({ ep with posted := n }.setCtxid c
      { ep.ctxid c with recvReqQ := queue }).ctxid c').recvReqQ =
      if c' = c then queue else (ep.ctxid c').recvReqQ := by
    intro c'
    by_cases hc : c' = c
    · rw [hc, setCtxid_self, if_pos rfl]
    · rw [setCtxid_of_ne _ hc, if_neg hc]
  have hcases : ∀ {R : BitVec 32 → Recv → Prop}, (∀ req ∈ queue, R c req) →
      (∀ c', ∀ req ∈ (ep.ctxid c').recvReqQ, R c' req) →
      ∀ c', ∀ req ∈ (({ ep with posted := n }.setCtxid c
        { ep.ctxid c with recvReqQ := queue }).ctxid c').recvReqQ, R c' req := by
    intro R hnew hold' c' req hreq
    rw [hqueue] at hreq
    split at hreq
    · rename_i hc
      rw [hc]
      exact hnew req hreq
    · exact hold' c' req hreq
  refine ⟨hcases hctxid h.recvCtxid, hcases hvalid h.recvValid, fun c' => ?_,
    hcases hold fun c' req hreq => (h.recvOld c' req hreq).trans_le hle, h.msgOld, fun c' => ?_,
    h.unexpOrdered, hcases hpair h.noPair⟩
  · rw [hqueue]
    split
    · exact hordered
    · exact h.recvOrdered c'
  · refine Eq.trans ?_ (h.ctxidUnexp c')
    by_cases hc : c' = c
    · rw [hc, setCtxid_self]
    · rw [setCtxid_of_ne _ hc]

/-- A receive leaves its queue. -/
theorem dequeueRecv (h : Inv z ep) (c : BitVec 32) (req : Recv) :
    Inv z (ep.setCtxid c { ep.ctxid c with recvReqQ := (ep.ctxid c).recvReqQ.erase req }) :=
  have hsub : ∀ {req'}, req' ∈ (ep.ctxid c).recvReqQ.erase req → req' ∈ (ep.ctxid c).recvReqQ :=
    List.mem_of_mem_erase
  h.setRecvReqQ (fun req' hmem => h.recvCtxid c req' (hsub hmem))
    (fun req' hmem => h.recvValid c req' (hsub hmem))
    ((h.recvOrdered c).sublist List.erase_sublist) (fun req' hmem => h.recvOld c req' (hsub hmem))
    le_rfl fun req' hmem => h.noPair c req' (hsub hmem)

/-- A receive that matches no unexpected message is posted. -/
theorem postRecv (h : Inv z ep) {matchInfo matchMask : BitVec 64}
    (hvalid : Recv.Valid z ⟨ep.posted, matchInfo, matchMask⟩)
    (hpair : ∀ msg ∈ ep.unexpReqQ, ¬ Recv.Matches ⟨ep.posted, matchInfo, matchMask⟩ msg) :
    Inv z ({ ep with posted := ep.posted + 1 }.setCtxid (z.ctxidFromMatching matchInfo)
      { ep.ctxid (z.ctxidFromMatching matchInfo) with
        recvReqQ := (ep.ctxid (z.ctxidFromMatching matchInfo)).recvReqQ ++
          [(⟨ep.posted, matchInfo, matchMask⟩ : Recv)] }) := by
  have hcases : ∀ req ∈ (ep.ctxid (z.ctxidFromMatching matchInfo)).recvReqQ ++
      [(⟨ep.posted, matchInfo, matchMask⟩ : Recv)],
      req ∈ (ep.ctxid (z.ctxidFromMatching matchInfo)).recvReqQ ∨
        req = ⟨ep.posted, matchInfo, matchMask⟩ :=
    fun req hreq => (List.mem_append.1 hreq).imp_right List.mem_singleton.1
  refine h.setRecvReqQ ?_ ?_ ((h.recvOrdered _).push (h.recvOld _)) ?_ (Nat.le_succ _) ?_
  · intro req hreq
    rcases hcases req hreq with hmem | rfl
    · exact h.recvCtxid _ req hmem
    · rfl
  · intro req hreq
    rcases hcases req hreq with hmem | rfl
    · exact h.recvValid _ req hmem
    · exact hvalid
  · intro req hreq
    rcases hcases req hreq with hmem | rfl
    · exact Nat.lt_succ_of_lt (h.recvOld _ req hmem)
    · exact Nat.lt_succ_self _
  · intro req hreq
    rcases hcases req hreq with hmem | rfl
    · exact h.noPair _ req hmem
    · exact hpair

/-- The unexpected queues change in one context. -/
theorem setUnexpReqQ (h : Inv z ep) (ep' : Endpoint) {c : BitVec 32} {queue : List Msg}
    (hctxid : ep'.ctxid = ep.ctxid) (hposted : ep.posted ≤ ep'.posted)
    (harrived : ep'.arrived = ep.arrived) (hhandling : ep'.handling = ep.handling)
    (hold : ∀ msg ∈ ep'.unexpReqQ, msg.number < ep.arrived)
    (hother : ∀ c', c' ≠ c → ep'.unexpOf z c' = ep.unexpOf z c')
    (hqueue : z.hasCtxids → queue = ep'.unexpOf z c) (hordered : Ordered Msg.number (ep'.unexpOf z c))
    (hpair : ∀ c', ∀ req ∈ (ep.ctxid c').recvReqQ, ∀ msg ∈ ep'.unexpReqQ, ¬ req.Matches msg) :
    Inv z (if z.hasCtxids then ep'.setCtxid c { ep.ctxid c with unexpReqQ := queue } else ep') := by
  have hordered' : ∀ c', Ordered Msg.number (ep'.unexpOf z c') := by
    intro c'
    by_cases hc : c' = c
    · rw [hc]
      exact hordered
    · rw [hother c' hc]
      exact h.unexpOrdered c'
  have hold' : ∀ msg ∈ ep'.unexpReqQ ++ ep'.handling, msg.number < ep'.arrived := by
    intro msg hmsg
    rw [harrived]
    rcases List.mem_append.1 hmsg with hmem | hmem
    · exact hold msg hmem
    · rw [hhandling] at hmem
      exact h.msgOld msg (List.mem_append_right _ hmem)
  split
  · rename_i hctxids
    have hrecv : ∀ c', ((ep'.setCtxid c { ep.ctxid c with unexpReqQ := queue }).ctxid c').recvReqQ =
        (ep.ctxid c').recvReqQ := by
      intro c'
      by_cases hc : c' = c
      · rw [hc, setCtxid_self]
      · rw [setCtxid_of_ne _ hc, hctxid]
    refine ⟨fun c' => ?_, fun c' => ?_, fun c' => ?_, fun c' => ?_, hold', fun c' => ?_, hordered',
      fun c' => ?_⟩
    · rw [hrecv]
      exact h.recvCtxid c'
    · rw [hrecv]
      exact h.recvValid c'
    · rw [hrecv]
      exact h.recvOrdered c'
    · rw [hrecv]
      exact fun req hreq => (h.recvOld c' req hreq).trans_le hposted
    · rw [if_pos hctxids]
      by_cases hc : c' = c
      · rw [hc, setCtxid_self]
        exact hqueue hctxids
      · rw [setCtxid_of_ne _ hc, hctxid, h.ctxidUnexp, if_pos hctxids]
        exact (hother c' hc).symm
    · rw [hrecv]
      exact hpair c'
  · rename_i hctxids
    refine ⟨?_, ?_, ?_, ?_, hold', fun c' => ?_, hordered', ?_⟩
    · rw [hctxid]
      exact h.recvCtxid
    · rw [hctxid]
      exact h.recvValid
    · rw [hctxid]
      exact h.recvOrdered
    · rw [hctxid]
      exact fun c' req hreq => (h.recvOld c' req hreq).trans_le hposted
    · rw [hctxid, h.ctxidUnexp, if_neg hctxids, if_neg hctxids]
    · rw [hctxid]
      exact hpair

/-- A message that no receive matches is unexpected. -/
theorem enqueueUnexp (h : Inv z ep) {msg : Msg} (hold : msg.number < ep.arrived)
    (hnone : ∀ req, ep.Posted req → ¬ req.Matches msg)
    (hlast : ∀ msg' ∈ ep.unexpOf z (z.ctxidFromMatching msg.matchInfo),
      msg'.number < msg.number) : Inv z (ep.enqueueUnexp z msg) := by
  have hof : ∀ c, ({ ep with unexpReqQ := ep.unexpReqQ ++ [msg] } : Endpoint).unexpOf z c =
      ep.unexpOf z c ++ if z.ctxidFromMatching msg.matchInfo = c then [msg] else [] := by
    intro c
    show (ep.unexpReqQ ++ [msg]).filter _ = _
    rw [List.filter_append, List.filter_singleton]
    by_cases hc : z.ctxidFromMatching msg.matchInfo = c
    · rw [decide_eq_true hc, if_pos hc]
      rfl
    · rw [decide_eq_false hc, if_neg hc]
      rfl
  refine h.setUnexpReqQ { ep with unexpReqQ := ep.unexpReqQ ++ [msg] } rfl le_rfl rfl rfl
    ?_ ?_ ?_ ?_ ?_
  · intro msg' hmsg'
    rcases List.mem_append.1 hmsg' with hmem | hmem
    · exact h.msgOld msg' (List.mem_append_left _ hmem)
    · rw [List.mem_singleton.1 hmem]
      exact hold
  · intro c' hc
    rw [hof, if_neg hc.symm, List.append_nil]
  · intro hctxids
    rw [hof, if_pos rfl, h.ctxidUnexp, if_pos hctxids]
  · rw [hof, if_pos rfl]
    exact (h.unexpOrdered _).push (hlast)
  · intro c req hreq msg' hmsg'
    rcases List.mem_append.1 hmsg' with hmem | hmem
    · exact h.noPair c req hreq msg' hmem
    · rw [List.mem_singleton.1 hmem]
      exact hnone req ⟨c, hreq⟩

/-- A receive takes a message out of the unexpected queues. -/
theorem takeUnexp (h : Inv z ep) {msg : Msg} {c : BitVec 32}
    (hc : z.ctxidFromMatching msg.matchInfo = c) {given : List (Msg × Recv)} :
    Inv z (if z.hasCtxids then
      { ep with
        unexpReqQ := ep.unexpReqQ.erase msg
        posted := ep.posted + 1
        given := given }.setCtxid c { ep.ctxid c with unexpReqQ := (ep.ctxid c).unexpReqQ.erase msg }
      else
        { ep with
          unexpReqQ := ep.unexpReqQ.erase msg
          posted := ep.posted + 1
          given := given }) := by
  have hof : ∀ c', ({ ep with
      unexpReqQ := ep.unexpReqQ.erase msg
      posted := ep.posted + 1
      given := given } : Endpoint).unexpOf z c' = (ep.unexpOf z c').erase msg :=
    fun c' => List.erase_filter.symm
  refine h.setUnexpReqQ _ rfl (Nat.le_succ _) rfl rfl ?_ ?_ ?_ ?_ ?_
  · exact fun msg' hmsg' => h.msgOld msg' (List.mem_append_left _ (List.mem_of_mem_erase hmsg'))
  · intro c' hc'
    rw [hof, List.erase_of_not_mem]
    intro hmem
    exact hc' ((mem_unexpOf.1 hmem).2.symm.trans hc)
  · intro hctxids
    rw [hof, h.ctxidUnexp, if_pos hctxids]
  · rw [hof]
    exact (h.unexpOrdered c).sublist List.erase_sublist
  · exact fun c' req hreq msg' hmsg' => h.noPair c' req hreq msg' (List.mem_of_mem_erase hmsg')

/-! ### The steps -/

theorem matchOrEnqueue (h : Inv z ep) {msg : Msg} {alloc : Bool} (hold : msg.number < ep.arrived)
    (hlast : alloc = true → ep.matchRecv z msg.matchInfo = none →
      ∀ msg' ∈ ep.unexpOf z (z.ctxidFromMatching msg.matchInfo), msg'.number < msg.number) :
    Inv z (ep.matchOrEnqueue z msg alloc).2 := by
  unfold Endpoint.matchOrEnqueue
  split
  · rename_i req ep' hmatch
    obtain ⟨req', -, heq⟩ := Option.map_eq_some_iff.1 hmatch
    cases heq
    exact (h.dequeueRecv _ _).congr rfl rfl rfl le_rfl
      fun msg' hmsg' => h.msgOld msg' (List.mem_append_right _ hmsg')
  · rename_i hmatch
    split
    · rename_i halloc
      exact h.enqueueUnexp hold (h.matchRecv_eq_none.1 hmatch) (hlast halloc hmatch)
    · exact h

theorem expectNext (h : Inv z ep) (origin : Origin) : Inv z (ep.expectNext origin) :=
  h.congr rfl rfl rfl le_rfl fun msg hmsg => h.msgOld msg (List.mem_append_right _ hmsg)

theorem matched {r : Option ReturnCode × Endpoint} (h : Inv z r.2) (msg : Msg) :
    Inv z (Endpoint.matched msg r) := by
  unfold Endpoint.matched
  split
  · cases msg.origin with
    | none => exact h
    | some origin => exact h.expectNext origin
  · exact h

theorem arrive (h : Inv z ep) (origin : Option Origin) (matchInfo : BitVec 64) (alloc : Bool) :
    Inv z (ep.arrive z origin matchInfo alloc) := by
  have hhandling : ∀ msg ∈ ep.handling, msg.number < ep.arrived :=
    fun msg hmsg => h.msgOld msg (List.mem_append_right _ hmsg)
  have harrived : Inv z { ep with arrived := ep.arrived + 1 } :=
    h.congr rfl rfl rfl (Nat.le_succ _) fun msg hmsg => Nat.lt_succ_of_lt (hhandling msg hmsg)
  unfold Endpoint.arrive Endpoint.tryMatch
  split
  · refine matched (harrived.congr rfl rfl rfl le_rfl fun msg hmsg => ?_) _
    rcases List.mem_cons.1 hmsg with rfl | hmem
    · exact Nat.lt_succ_self _
    · exact Nat.lt_succ_of_lt (hhandling msg hmem)
  · refine matched (harrived.matchOrEnqueue (Nat.lt_succ_self _) fun _ _ msg hmsg => ?_) _
    exact h.msgOld msg (List.mem_append_left _ (mem_unexpOf.1 hmsg).1)

theorem returned (h : Inv z ep) (msg : Msg) :
    Inv z { ep with
      progressionDisabled := .no
      handling := ep.handling.erase msg } :=
  h.congr rfl rfl rfl le_rfl fun msg' hmsg' =>
    h.msgOld msg' (List.mem_append_right _ (List.mem_of_mem_erase hmsg'))

theorem handlerReturn (h : Inv z ep) {msg : Msg} {ret : HandlerAction} {alloc : Bool}
    (hmsg : msg ∈ ep.handling) (hok : NotOvertaken z ep (.handlerReturn msg ret alloc)) :
    Inv z (ep.handlerReturn z msg ret alloc) := by
  cases ret with
  | recvFinished =>
      have hreturned := h.returned msg
      exact matched (r := (some .success, { ep with
        progressionDisabled := .no
        handling := ep.handling.erase msg })) hreturned msg
  | recvContinue =>
      refine matched ((h.returned msg).matchOrEnqueue
        (h.msgOld msg (List.mem_append_right _ hmsg)) fun halloc hnone => ?_) msg
      subst halloc
      refine hok ?_
      exact (Option.map_eq_none_iff).2 ((Option.map_eq_none_iff).1 hnone)

theorem irecv (h : Inv z ep) (matchInfo matchMask : BitVec 64) (alloc : Bool) :
    Inv z (ep.irecv z matchInfo matchMask alloc).2 := by
  unfold Endpoint.irecv
  split
  · exact h
  · split
    · exact h
    · rename_i hmask
      have hvalid : Recv.Valid z ⟨ep.posted, matchInfo, matchMask⟩ := not_not.1 hmask
      unfold Endpoint.irecvSegs
      dsimp only
      split
      · rename_i msg hfind
        have hfirst := (h.search_eq_some hvalid).1 hfind
        exact h.takeUnexp (hvalid.ctxid_eq hfirst.1.2)
      · rename_i hfind
        split
        · refine h.postRecv hvalid fun msg hmsg hmatch => ?_
          rw [h.search_eq hvalid] at hfind
          obtain ⟨hmem, hfound⟩ := (unexp_iff hvalid msg).1 ⟨hmsg, hmatch⟩
          exact List.find?_eq_none.1 hfind msg hmem hfound
        · exact h

theorem step (h : Inv z ep) {a : Action} (hok : NotOvertaken z ep a)
    (hstep : Matching.step z ep a = some ep') : Inv z ep' := by
  have hhandling : ∀ msg ∈ ep.handling, msg.number < ep.arrived :=
    fun msg hmsg => h.msgOld msg (List.mem_append_right _ hmsg)
  cases a with
  | irecv matchInfo matchMask alloc =>
      cases hstep
      exact h.irecv matchInfo matchMask alloc
  | cancel req =>
      have hstep' : (if _ then _ else _) = _ := hstep
      split at hstep'
      · cases hstep'
        exact h.dequeueRecv _ _
      · cases hstep'
        exact h
  | recv origin matchInfo alloc =>
      obtain ⟨-, heq⟩ := Option.ite_none_right_eq_some.1 hstep
      cases heq
      unfold processPartnerOrderedRecv
      split
      · exact h.arrive (some origin) matchInfo alloc
      · exact h
  | notify origin =>
      obtain ⟨-, heq⟩ := Option.ite_none_right_eq_some.1 hstep
      cases heq
      unfold processPartnerOrderedNotify
      split
      · exact h.expectNext origin
      · exact h
  | selfSend matchInfo alloc =>
      cases hstep
      exact h.arrive none matchInfo alloc
  | handlerReturn msg ret alloc =>
      obtain ⟨hmsg, heq⟩ := Option.ite_none_right_eq_some.1 hstep
      cases heq
      exact h.handlerReturn hmsg hok
  | registerUnexpHandler handler =>
      cases hstep
      exact h.congr rfl rfl rfl le_rfl hhandling
  | disableProgression =>
      obtain ⟨-, heq⟩ := Option.ite_none_left_eq_some.1 hstep
      cases heq
      exact h.congr rfl rfl rfl le_rfl hhandling
  | reenableProgression =>
      have hstep' : (if _ then _ else _) = _ := hstep
      split at hstep'
      · cases hstep'
        exact h.congr rfl rfl rfl le_rfl hhandling
      · cases hstep'
        exact h

end Inv

/-! ## What the searches promise -/

/-- The message that an action brings to be matched. -/
def Brings (ep : Endpoint) : Action → Msg → Prop
  | .recv origin matchInfo _, msg => ep.Expects origin ∧ msg = ⟨ep.arrived, some origin, matchInfo⟩
  | .selfSend matchInfo _, msg => msg = ⟨ep.arrived, none, matchInfo⟩
  | .handlerReturn msg' .recvContinue _, msg => msg = msg'
  | _, _ => False

variable (z) in
/-- Nothing that matches is left over, and matches are made in order. -/
structure EarliestFirst (ep : Endpoint) : Prop where
  /-- A message from the network is matched, or taken by its handler, once and in its turn. -/
  inTurn : ep.InTurn
  /-- No posted receive matches a message of the unexpected queue. -/
  noPair : ∀ c, ∀ req ∈ (ep.ctxid c).recvReqQ, ∀ msg,
    msg ∈ ep.unexpReqQ ∨ msg ∈ (ep.ctxid c).unexpReqQ → ¬ req.Matches msg
  /-- A message goes to the receive posted first of those that match, if there is one. -/
  earliestPosted : ∀ a msg ep', Brings ep a msg → step z ep a = some ep' →
    ∀ req, ep'.given = (msg, req) :: ep.given ↔
      Earliest Recv.number (fun req => ep.Posted req ∧ req.Matches msg) req
  /-- A receive takes the message that came first of those that match, if there is one. -/
  earliestArrived : ∀ matchInfo matchMask alloc ep',
    matchInfo &&& ~~~matchMask = 0 → z.ctxidMask &&& ~~~matchMask = 0 →
    step z ep (.irecv matchInfo matchMask alloc) = some ep' →
    ∀ msg, ep'.given = (msg, ⟨ep.posted, matchInfo, matchMask⟩) :: ep.given ↔
      Earliest Msg.number
        (fun msg => msg ∈ ep.unexpReqQ ∧ Recv.Matches ⟨ep.posted, matchInfo, matchMask⟩ msg) msg

namespace Inv

variable {ep ep' : Endpoint}

theorem given_enqueueUnexp (msg : Msg) : (ep.enqueueUnexp z msg).given = ep.given := by
  simp only [Endpoint.enqueueUnexp]
  split
  · rfl
  · rfl

theorem given_matched (msg : Msg) (r : Option ReturnCode × Endpoint) :
    (Endpoint.matched msg r).given = r.2.given := by
  unfold Endpoint.matched
  split
  · cases msg.origin with
    | none => rfl
    | some origin => rfl
  · rfl

theorem given_matchOrEnqueue (h : Inv z ep) {msg : Msg} {alloc : Bool} (req : Recv) :
    (ep.matchOrEnqueue z msg alloc).2.given = (msg, req) :: ep.given ↔
      Earliest Recv.number (fun req => ep.Posted req ∧ req.Matches msg) req := by
  rw [← h.matchRecv_eq_some]
  unfold Endpoint.matchOrEnqueue
  split
  · rename_i req' ep'' hmatch
    obtain ⟨req'', -, heq⟩ := Option.map_eq_some_iff.1 hmatch
    rw [hmatch]
    cases heq
    simp only [setCtxid_given, List.cons.injEq, Prod.mk.injEq, true_and, and_true,
      Option.some.injEq, exists_eq_right']
  · rename_i hmatch
    rw [hmatch]
    refine iff_of_false ?_ nofun
    split
    · rw [given_enqueueUnexp]
      exact (List.cons_ne_self _ _).symm
    · exact (List.cons_ne_self _ _).symm

theorem earliestFirst (h : Inv z ep) (hturns : ep.Turns) : EarliestFirst z ep where
  inTurn := hturns.inTurn
  noPair := by
    intro c req hreq msg hmsg
    refine h.noPair c req hreq msg ?_
    rcases hmsg with hmem | hmem
    · exact hmem
    · rw [h.ctxidUnexp] at hmem
      split at hmem
      · exact (mem_unexpOf.1 hmem).1
      · cases hmem
  earliestPosted := by
    intro a msg ep' hbrings hstep req
    have harrive : ∀ origin matchInfo alloc, msg = ⟨ep.arrived, origin, matchInfo⟩ →
        ((ep.arrive z origin matchInfo alloc).given = (msg, req) :: ep.given ↔
          Earliest Recv.number (fun req => ep.Posted req ∧ req.Matches msg) req) := by
      rintro origin matchInfo alloc rfl
      have harrived : Inv z { ep with arrived := ep.arrived + 1 } :=
        h.congr rfl rfl rfl (Nat.le_succ _) fun msg hmsg =>
          Nat.lt_succ_of_lt (h.msgOld msg (List.mem_append_right _ hmsg))
      unfold Endpoint.arrive Endpoint.tryMatch
      rw [given_matched]
      split
      · rename_i hhandler
        refine iff_of_false (List.cons_ne_self _ _).symm fun hfirst => ?_
        obtain ⟨ep'', hmatch⟩ := harrived.matchRecv_eq_some.2 hfirst
        rw [hhandler.2] at hmatch
        cases hmatch
      · exact harrived.given_matchOrEnqueue req
    cases a with
    | recv origin matchInfo alloc =>
        obtain ⟨-, heq⟩ := Option.ite_none_right_eq_some.1 hstep
        cases heq
        unfold processPartnerOrderedRecv
        rw [if_pos hbrings.1]
        exact harrive (some origin) matchInfo alloc hbrings.2
    | selfSend matchInfo alloc =>
        cases hstep
        exact harrive none matchInfo alloc hbrings
    | handlerReturn msg' ret alloc =>
        obtain ⟨hmsg, heq⟩ := Option.ite_none_right_eq_some.1 hstep
        cases heq
        cases ret with
        | recvFinished => exact hbrings.elim
        | recvContinue =>
            obtain rfl : msg = msg' := hbrings
            unfold Endpoint.handlerReturn
            rw [given_matched]
            exact (h.returned msg).given_matchOrEnqueue req
    | irecv | cancel | notify | registerUnexpHandler | disableProgression | reenableProgression =>
        exact hbrings.elim
  earliestArrived := by
    intro matchInfo matchMask alloc ep' hmask hctxid hstep msg
    have hvalid : Recv.Valid z ⟨ep.posted, matchInfo, matchMask⟩ := hctxid
    rw [← h.search_eq_some hvalid]
    obtain rfl := Option.some.inj hstep
    unfold Endpoint.irecv
    rw [if_neg (not_not.2 hmask), if_neg (not_not.2 hctxid)]
    unfold Endpoint.irecvSegs
    dsimp only
    cases (if z.hasCtxids then (ep.ctxid (z.ctxidFromMatching matchInfo)).unexpReqQ
      else ep.unexpReqQ).find? fun msg => Recv.Matches ⟨ep.posted, matchInfo, matchMask⟩ msg with
    | some msg' =>
        dsimp only
        split
        · simp only [setCtxid_given, List.cons.injEq, Prod.mk.injEq, and_true, Option.some.injEq]
        · simp only [List.cons.injEq, Prod.mk.injEq, and_true, Option.some.injEq]
    | none =>
        refine iff_of_false ?_ nofun
        dsimp only
        split
        · exact (List.cons_ne_self _ _).symm
        · exact (List.cons_ne_self _ _).symm

end Inv

end Endpoint

/-! ## The result -/

/-- For every order of receives, arrivals, self-sends, cancels and handler verdicts: as long as
handlers do not disturb each other's messages, no posted receive matches an unexpected message, a
message goes to the earliest receive, once, and a receive takes the earliest message. -/
theorem matching_earliestFirst (z : CtxidConfig) (start : ℕ → Seqnum) {ep : Endpoint}
    (h : (machine z start).Reaches (Endpoint.Undisturbed z) ep) : ep.EarliestFirst z := by
  have hinv : ep.Inv z ∧ ep.Turns := by
    refine h.invariant (I := fun ep => ep.Inv z ∧ ep.Turns) ⟨.init start, .init start⟩ ?_
    intro ep a ep' hinv hok hstep
    exact ⟨hinv.1.step hok.1 hstep, hinv.2.step hok.2 hstep⟩
  exact hinv.1.earliestFirst hinv.2

/-- Four contexts, in the two low bits. -/
def fourContexts : CtxidConfig where
  ctxidBits := 2
  ctxidShift := 0
  bits_le := by decide
  add_le := by decide

/-- A message is with its handler while a receive for it is posted and another message of its
context comes. -/
def twoMessages : List Action :=
  [.registerUnexpHandler true, .recv ⟨7, 1⟩ 5 true, .irecv 1 3 true, .selfSend 2 true,
    .handlerReturn ⟨1, none, 2⟩ .recvContinue true,
    .handlerReturn ⟨0, some ⟨7, 1⟩, 5⟩ .recvContinue true]

theorem matching_earliestFirst_two :
    ∃ ep, (machine fourContexts fun _ => 1).exec (.init fun _ => 1) twoMessages = some ep ∧
      ep.given = [(⟨0, some ⟨7, 1⟩, 5⟩, ⟨0, 1, 3⟩)] ∧ ep.unexpReqQ = [⟨1, none, 2⟩] ∧
        ep.EarliestFirst fourContexts := by
  obtain ⟨ep, hep, hgiven, hunexp⟩ : ∃ ep,
      (machine fourContexts fun _ => 1).exec (.init fun _ => 1) twoMessages = some ep ∧
        ep.given = [(⟨0, some ⟨7, 1⟩, 5⟩, ⟨0, 1, 3⟩)] ∧ ep.unexpReqQ = [⟨1, none, 2⟩] :=
    ⟨_, rfl, by decide, by decide⟩
  exact ⟨ep, hep, hgiven, hunexp,
    matching_earliestFirst fourContexts _ ⟨twoMessages, by decide +kernel, hep⟩⟩

/-- Two messages are with their handlers at once, and the one that came last is the first to
leave. -/
def overtaken : List Action :=
  [.registerUnexpHandler true, .recv ⟨7, 1⟩ 5 true, .selfSend 5 true,
    .handlerReturn ⟨1, none, 5⟩ .recvContinue true,
    .handlerReturn ⟨0, some ⟨7, 1⟩, 5⟩ .recvContinue true]

/-- Under the handler of a message two receives are posted for it, and the application sends to
itself: progression goes through the events from that of the message on. -/
def reentered : List Action :=
  [.registerUnexpHandler true, .recv ⟨7, 1⟩ 5 true, .irecv 5 (-1) true, .irecv 5 (-1) true,
    .selfSend 9 true, .handlerReturn ⟨1, none, 9⟩ .recvFinished true, .recv ⟨7, 1⟩ 5 true,
    .handlerReturn ⟨0, some ⟨7, 1⟩, 5⟩ .recvContinue true]

/-- Overtaken, a message is not the first that a receive takes; matched again, it is given to two
receives, and the next one is never expected. -/
theorem matching_not_earliestFirst :
    (∃ ep, (machine fourContexts fun _ => 1).exec (.init fun _ => 1) overtaken = some ep ∧
      ¬ ep.EarliestFirst fourContexts) ∧
    (∃ ep, (machine fourContexts fun _ => 1).exec (.init fun _ => 1) reentered = some ep ∧
      ep.given = [(⟨0, some ⟨7, 1⟩, 5⟩, ⟨1, 5, -1⟩), (⟨2, some ⟨7, 1⟩, 5⟩, ⟨0, 5, -1⟩)] ∧
        ep.nextMatchRecvSeq 7 = 3 ∧ ¬ ep.EarliestFirst fourContexts) := by
  constructor
  · obtain ⟨ep, hep, hunexp, hnone, ep', hstep, hgiven⟩ : ∃ ep,
        (machine fourContexts fun _ => 1).exec (.init fun _ => 1) overtaken = some ep ∧
          ep.unexpReqQ = [⟨1, none, 5⟩, ⟨0, some ⟨7, 1⟩, 5⟩] ∧ ep.given = [] ∧
            ∃ ep', step fourContexts ep (.irecv 5 (-1) true) = some ep' ∧
              ep'.given = [(⟨1, none, 5⟩, ⟨ep.posted, 5, -1⟩)] :=
      ⟨_, rfl, by decide, by decide, _, rfl, by decide⟩
    refine ⟨ep, hep, fun hfirst => ?_⟩
    have htaken := (hfirst.earliestArrived 5 (-1) true ep' (by decide) (by decide) hstep
      ⟨1, none, 5⟩).1 (by rw [hgiven, hnone])
    have hmatches : (5 : BitVec 64) &&& -1 = 5 := by decide
    have hle : 1 ≤ 0 := htaken.2 ⟨0, some ⟨7, 1⟩, 5⟩ ⟨by rw [hunexp]; decide, hmatches⟩
    cases hle
  · refine ⟨_, rfl, by decide, by decide, fun hfirst => ?_⟩
    have hchain := hfirst.inTurn 7
    revert hchain
    decide

end Xen2mx.Matching
