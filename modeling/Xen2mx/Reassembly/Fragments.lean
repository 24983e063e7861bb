/-
# `Xen2mx.Reassembly.Fragments` — a medium message and what its request holds

The sender cuts a medium message into fragments of `OMX_MEDIUM_FRAG_LENGTH_MAX` bytes, of which
the last can be shorter.  The receive has a bit for each that came, and the sum of their lengths.

    fragment  0          1          2
              |----------|----------|-----|
    segments  |------|-------|------------------|
                                    inside ^

The bytes of the fragments that came are in their places; what is behind the message, or behind
the segments, is as it was.  Between the two, what is there before all fragments came is open: an
unexpected buffer is copied as a whole when its message is matched.

**Proved here.**

    a fragment that is new keeps that, if its copy starts in the array     (`Holds.frag`)
    so does the receive that matches an unexpected message                 (`Holds.irecv`)
    the accumulated length is that of the message
        ⟺  all fragments came                                              (`Holds.accumulated_eq_iff`)
    the segments hold the message then                                     (`Holds.flatten_eq`)
-/
import Xen2mx.Segments.Medium
import Mathlib.Algebra.Order.BigOperators.Group.Finset

namespace Xen2mx.Reassembly

open Segments

variable {β : Type*} {fragLengthMax : ℕ}

/-! ## Messages -/

/-- A medium message: it has `OMX_MEDIUM_FRAGS_MAX` fragments, at most. -/
structure Message (β : Type*) (fragLengthMax : ℕ) where
  bytes : List β
  length_le : bytes.length ≤ 32 * fragLengthMax

namespace Message

variable (m : Message β fragLengthMax) {j k : ℕ}

/-- `frags_nr`. -/
def frags : ℕ := (m.bytes.length + fragLengthMax - 1) / fragLengthMax

/-- A fragment of it. -/
def frag (j : ℕ) : Frag β := ⟨j, (m.bytes.drop (j * fragLengthMax)).take fragLengthMax⟩

variable {m}

theorem lt_frags_iff : j < m.frags ↔ j * fragLengthMax < m.bytes.length := by
  unfold frags
  rcases Nat.eq_zero_or_pos fragLengthMax with hzero | hpos
  · have hle := m.length_le
    subst hzero
    rw [Nat.div_zero, Nat.mul_zero]
    omega
  · rw [← Nat.succ_le_iff, Nat.le_div_iff_mul_le hpos, Nat.succ_mul]
    omega

theorem frags_le : m.frags ≤ 32 := by
  by_contra hlt
  have hlast := lt_frags_iff.1 (not_le.1 hlt)
  exact absurd hlast (not_lt.2 m.length_le)

theorem length_frag (j : ℕ) :
    (m.frag j).data.length = min fragLengthMax (m.bytes.length - j * fragLengthMax) := by
  rw [frag, List.length_take, List.length_drop]

theorem length_frag_pos (h : j < m.frags) : 0 < (m.frag j).data.length := by
  have hlt := lt_frags_iff.1 h
  have hle := m.length_le
  rw [length_frag]
  omega

/-- The bytes of a fragment. -/
theorem getElem?_frag {p : ℕ} (h : p < (m.frag j).data.length) :
    (m.frag j).data[p]? = m.bytes[j * fragLengthMax + p]? := by
  rw [length_frag] at h
  rw [frag, List.getElem?_take_of_lt (by omega), List.getElem?_drop]

/-- The first fragments. -/
theorem sum_length_frag (n : ℕ) :
    ∑ j ∈ Finset.range n, (m.frag j).data.length = min (n * fragLengthMax) m.bytes.length := by
  induction n with
  | zero => rw [Finset.sum_range_zero, Nat.zero_mul, Nat.zero_min]
  | succ n ih =>
      rw [Finset.sum_range_succ, ih, length_frag, Nat.succ_mul]
      omega

/-- All of them. -/
theorem sum_length_frags :
    ∑ j ∈ Finset.range m.frags, (m.frag j).data.length = m.bytes.length := by
  have hall : ¬ m.frags * fragLengthMax < m.bytes.length :=
    fun hlt => lt_irrefl _ (lt_frags_iff.2 hlt)
  rw [sum_length_frag]
  omega

/-- A byte of the message is in one of them. -/
theorem div_lt_frags {p : ℕ} (h : p < m.bytes.length) : p / fragLengthMax < m.frags :=
  lt_frags_iff.2 ((Nat.div_mul_le_self _ _).trans_lt h)

end Message

/-! ## What a request holds -/

section Received

variable {req : MediumReq β} {f : Frag β}

/-- A bit of the mask. -/
theorem received_iff (h : f.fragSeqnum < 32) :
    req.Received f ↔ req.fragsReceivedMask.getLsbD f.fragSeqnum = true := by
  unfold MediumReq.Received
  rw [← BitVec.twoPow_eq, BitVec.and_twoPow]
  split
  · rename_i hbit
    refine iff_of_true (fun hzero => ?_) hbit
    have hone := congrArg (fun x => x.getLsbD f.fragSeqnum) hzero
    simp [h] at hone
  · rename_i hbit
    exact iff_of_false (fun hne => hne rfl) hbit

/-- The bits after a fragment that is new. -/
theorem getLsbD_or_bit (mask : BitVec 32) {j : ℕ} (hj : j < 32) (k : ℕ) :
    (mask ||| 1#32 <<< j).getLsbD k = true ↔ k = j ∨ mask.getLsbD k = true := by
  rw [← BitVec.twoPow_eq, BitVec.getLsbD_or, BitVec.getLsbD_twoPow, Bool.or_eq_true,
    Bool.and_eq_true, decide_eq_true_eq, decide_eq_true_eq, eq_comm (a := k)]
  constructor
  · exact fun h => h.symm.imp_left And.right
  · exact fun h => h.symm.imp_right fun hjk => ⟨hj, hjk⟩

end Received

/-- The lengths add up to those of the segments, in 32 bits, as far as the message goes. -/
def NotWrapped (segs : ReqSegs β) (msgLength : ℕ) : Prop :=
  xferLengthFor segs msgLength = min (totalLength segs) msgLength

instance (segs : ReqSegs β) (msgLength : ℕ) : Decidable (NotWrapped segs msgLength) :=
  inferInstanceAs (Decidable (_ = _))

/-- The copy of a fragment at the offset starts in the array, or there is one segment only. -/
def StartsAt (req : MediumReq β) (offset : ℕ) : Prop := req.segs.length = 1 ∨ req.Reaches offset

/-- A request that holds the fragments which it received, and nothing else. -/
structure Holds (m : Message β fragLengthMax) (posted : ReqSegs β) (req : MediumReq β) : Prop where
  inv : req.Inv
  msgLength : req.msgLength = m.bytes.length
  cut : req.xferLength = req.inside
  lengths : lengths req.segs = lengths posted
  accumulated : req.accumulatedLength =
    ∑ j ∈ (Finset.range m.frags).filter fun j => req.Received (m.frag j), (m.frag j).data.length
  placed : ∀ p < req.inside, req.Received (m.frag (p / fragLengthMax)) →
    req.segs.flatten[p]? = m.bytes[p]?
  behind : ∀ p, req.inside ≤ p → req.segs.flatten[p]? = posted.flatten[p]?

namespace Holds

variable {m : Message β fragLengthMax} {posted : ReqSegs β} {req : MediumReq β}

theorem inside_le (h : Holds m posted req) : req.inside ≤ m.bytes.length :=
  h.msgLength ▸ Nat.min_le_right _ _

/-- Nothing came of the message. -/
theorem start (hinv : req.Inv) (hlength : req.msgLength = m.bytes.length)
    (hcut : req.xferLength = req.inside) (hmask : req.fragsReceivedMask = 0)
    (hzero : req.accumulatedLength = 0) : Holds m req.segs req := by
  have hnone : ∀ j, ¬ req.Received (m.frag j) := by
    intro j hreceived
    exact hreceived ((congrArg (· &&& _) hmask).trans BitVec.zero_and)
  refine ⟨hinv, hlength, hcut, rfl, ?_, fun p _ hreceived => absurd hreceived (hnone _),
    fun p _ => rfl⟩
  rw [Finset.filter_false_of_mem fun j _ => hnone j, Finset.sum_empty, hzero]

theorem expected (m : Message β fragLengthMax) {segs : ReqSegs β}
    (h : NotWrapped segs m.bytes.length) : Holds m segs (.expected segs m.bytes.length) :=
  start (.start (.expected segs _)) rfl h rfl rfl

theorem unexpected {buffer : List β} (h : buffer.length = m.bytes.length) :
    Holds m [buffer] (.unexpectedIn buffer) := by
  refine start (.start (.unexpected buffer)) h ?_ rfl rfl
  show buffer.length = min (totalLength [buffer]) buffer.length
  rw [totalLength_single, Nat.min_self]

/-! ## Fragments -/

/-- The accumulated length is that of the message when all fragments came. -/
theorem accumulated_eq_iff (h : Holds m posted req) :
    req.accumulatedLength = m.bytes.length ↔ ∀ j < m.frags, req.Received (m.frag j) := by
  rw [h.accumulated]
  constructor
  · intro hsum j hj
    by_contra hnot
    refine absurd (hsum.trans m.sum_length_frags.symm) (ne_of_lt ?_)
    refine Finset.sum_lt_sum_of_subset (Finset.filter_subset _ _) (Finset.mem_range.2 hj) ?_
      (Message.length_frag_pos hj) fun _ _ _ => Nat.zero_le _
    exact fun hmem => hnot (Finset.mem_filter.1 hmem).2
  · intro hall
    rw [Finset.filter_true_of_mem fun j hj => hall j (Finset.mem_range.1 hj), m.sum_length_frags]

/-- The segments hold the message, when all fragments came. -/
theorem flatten_eq (h : Holds m posted req) (hall : ∀ j < m.frags, req.Received (m.frag j)) :
    req.segs.flatten = m.bytes.take req.inside ++ posted.flatten.drop req.inside := by
  have htake : (m.bytes.take req.inside).length = req.inside := by
    rw [List.length_take, Nat.min_eq_left h.inside_le]
  refine List.ext_getElem? fun p => ?_
  by_cases hp : p < req.inside
  · rw [h.placed p hp (hall _ (Message.div_lt_frags (hp.trans_le h.inside_le))),
      List.getElem?_append_left (by omega), List.getElem?_take_of_lt hp]
  · rw [h.behind p (not_lt.1 hp), List.getElem?_append_right (by omega), htake,
      List.getElem?_drop, Nat.add_sub_cancel' (not_lt.1 hp)]

end Holds

section Fields

variable {req req' : MediumReq β} {offset : ℕ} {data : List β} {f : Frag β}

/-- A copy leaves the lengths and what was received as they are. -/
theorem copyFrag_fields (h : req.copyFrag offset data = .ok req') :
    req'.msgLength = req.msgLength ∧ req'.xferLength = req.xferLength ∧
      req'.fragsReceivedMask = req.fragsReceivedMask ∧
      req'.accumulatedLength = req.accumulatedLength ∧ req'.unexpected = req.unexpected := by
  unfold MediumReq.copyFrag at h
  dsimp only at h
  split at h
  · obtain ⟨-, h⟩ := check_eq_ok.1 h
    cases h
    exact ⟨rfl, rfl, rfl, rfl, rfl⟩
  · obtain ⟨_, -, h⟩ := bind_eq_ok.1 h
    cases h
    exact ⟨rfl, rfl, rfl, rfl, rfl⟩

end Fields

namespace Holds

variable {m : Message β fragLengthMax} {posted : ReqSegs β} {req : MediumReq β} {j : ℕ}

/-- What a write to the place of a fragment makes of the bytes. -/
theorem getElem?_written (h : Holds m posted req) {segs : ReqSegs β}
    (hwritten : Written req.segs (j * fragLengthMax)
      ((m.frag j).data.take (req.xferLength - j * fragLengthMax)) segs) (p : ℕ) :
    segs.flatten[p]? =
      if p < req.inside ∧ p / fragLengthMax = j then m.bytes[p]? else req.segs.flatten[p]? := by
  have hinside := h.inside_le
  have htotal : req.inside ≤ req.segs.flatten.length := by
    rw [length_flatten]
    exact Nat.min_le_left _ _
  have hlength : ((m.frag j).data.take (req.xferLength - j * fragLengthMax)).length =
      min (req.inside - j * fragLengthMax) fragLengthMax := by
    rw [List.length_take, Message.length_frag, h.cut]
    omega
  rw [hwritten.flatten]
  by_cases hoffset : j * fragLengthMax ≤ req.inside
  · rw [getElem?_splice (hoffset.trans htotal), hlength]
    have hdiv : p / fragLengthMax = j → j * fragLengthMax ≤ p := by
      rintro rfl
      exact Nat.div_mul_le_self _ _
    split
    · rename_i hlt
      rw [if_neg]
      rintro ⟨-, hj⟩
      exact absurd (hdiv hj) (by omega)
    · rename_i hge
      split
      · rename_i hlt
        have hj : p / fragLengthMax = j :=
          Nat.div_eq_of_lt_le (not_lt.1 hge) (by rw [Nat.succ_mul]; omega)
        rw [if_pos ⟨by omega, hj⟩, h.cut, List.getElem?_take_of_lt (by omega),
          Message.getElem?_frag (by rw [Message.length_frag]; omega),
          Nat.add_sub_cancel' (not_lt.1 hge)]
      · rename_i hbehind
        rw [if_neg]
        rintro ⟨hp, rfl⟩
        rcases Nat.eq_zero_or_pos fragLengthMax with hzero | hpos
        · have hle := m.length_le
          subst hzero
          omega
        · have hlt := Nat.lt_mul_div_succ p hpos
          rw [Nat.mul_succ, Nat.mul_comm] at hlt
          omega
  · rw [Nat.sub_eq_zero_of_le (h.cut.trans_le (not_le.1 hoffset).le), List.take_zero, splice_nil,
      if_neg]
    rintro ⟨hp, rfl⟩
    have hle := Nat.div_mul_le_self p fragLengthMax
    omega

/-- A fragment that is new, and whose copy starts in the array. -/
theorem frag (h : Holds m posted req) (hj : j < m.frags) (hnew : ¬ req.Received (m.frag j))
    (hstart : StartsAt req (j * fragLengthMax)) :
    ∃ req', req.processRecvMediumFrag fragLengthMax (m.frag j) = .ok req' ∧
      Holds m posted req' ∧ req'.unexpected = req.unexpected ∧
      ∀ k < 32, req'.Received (m.frag k) ↔ k = j ∨ req.Received (m.frag k) := by
  obtain ⟨req₁, hcopy, -, hwritten⟩ := h.inv.copyFrag (m.frag j).data hstart
  obtain ⟨hmsg, hxfer, hmask, haccumulated, hunexpected⟩ := copyFrag_fields hcopy
  have hj32 : j < 32 := hj.trans_le m.frags_le
  have hprocess : req.processRecvMediumFrag fragLengthMax (m.frag j) = .ok { req₁ with
      fragsReceivedMask := req₁.fragsReceivedMask ||| 1#32 <<< j
      accumulatedLength := req₁.accumulatedLength + (m.frag j).data.length } := by
    rw [MediumReq.processRecvMediumFrag, if_neg hnew]
    exact bind_eq_ok.2 ⟨req₁, hcopy, rfl⟩
  have hinside : req₁.inside = req.inside := by
    rw [MediumReq.inside, MediumReq.inside, hmsg, totalLength, totalLength, hwritten.lengths]
  have hbytes := h.getElem?_written hwritten
  set req' : MediumReq β := { req₁ with
    fragsReceivedMask := req₁.fragsReceivedMask ||| 1#32 <<< j
    accumulatedLength := req₁.accumulatedLength + (m.frag j).data.length } with hreq'
  have hreceived : ∀ k < 32, req'.Received (m.frag k) ↔ k = j ∨ req.Received (m.frag k) := by
    intro k hk
    rw [received_iff (f := m.frag k) hk, received_iff (f := m.frag k) hk]
    show (req₁.fragsReceivedMask ||| 1#32 <<< j).getLsbD k = true ↔ _
    rw [getLsbD_or_bit _ hj32, hmask]
    rfl
  refine ⟨req', hprocess, ⟨h.inv.processRecvMediumFrag hprocess, hmsg.trans h.msgLength, ?_, ?_, ?_,
    fun p hp hgot => ?_, fun p hp => ?_⟩, hunexpected, hreceived⟩
  · exact hxfer.trans (h.cut.trans hinside.symm)
  · exact hwritten.lengths.trans h.lengths
  · have hset : (Finset.range m.frags).filter (fun k => req'.Received (m.frag k)) =
        insert j ((Finset.range m.frags).filter fun k => req.Received (m.frag k)) := by
      ext k
      rw [Finset.mem_insert, Finset.mem_filter, Finset.mem_filter, Finset.mem_range]
      constructor
      · rintro ⟨hk, hgot⟩
        exact ((hreceived k (hk.trans_le m.frags_le)).1 hgot).imp_right fun hgot => ⟨hk, hgot⟩
      · rintro (rfl | ⟨hk, hgot⟩)
        · exact ⟨hj, (hreceived _ hj32).2 (.inl rfl)⟩
        · exact ⟨hk, (hreceived k (hk.trans_le m.frags_le)).2 (.inr hgot)⟩
    have hnotMem : j ∉ (Finset.range m.frags).filter fun k => req.Received (m.frag k) :=
      fun hmem => hnew (Finset.mem_filter.1 hmem).2
    rw [hset, Finset.sum_insert hnotMem, Nat.add_comm, ← h.accumulated, ← haccumulated]
  · change p < req₁.inside at hp
    rw [hinside] at hp
    show req₁.segs.flatten[p]? = _
    rw [hbytes p]
    split
    · rfl
    · rename_i hother
      have hdiv : p / fragLengthMax < 32 :=
        (Message.div_lt_frags (hp.trans_le h.inside_le)).trans_le m.frags_le
      exact h.placed p hp (((hreceived _ hdiv).1 hgot).resolve_left fun hpj => hother ⟨hp, hpj⟩)
  · change req₁.inside ≤ p at hp
    rw [hinside] at hp
    show req₁.segs.flatten[p]? = _
    rw [hbytes p, if_neg fun hlt => absurd hlt.1 (not_lt.2 hp)]
    exact h.behind p hp

/-! ## A receive that matches later -/

theorem irecv (h : Holds m posted req) (hunexpected : req.unexpected = true) {segs : ReqSegs β}
    (hwrap : NotWrapped segs m.bytes.length) :
    ∃ req', req.completeUnexpAsIrecv segs = .ok req' ∧ Holds m segs req' ∧
      req'.unexpected = false ∧ req'.fragsReceivedMask = req.fragsReceivedMask := by
  obtain ⟨-, buffer, hsegs, hbuffer⟩ := h.inv.single hunexpected
  obtain ⟨hle, hmsg⟩ := MediumReq.xferLengthFor_le segs req.msgLength
  obtain ⟨segs', hcopy, hwritten⟩ := copyToSegments_eq hle (hmsg.trans_eq hbuffer.symm)
  have htotal : totalLength segs' = totalLength segs := congrArg List.sum hwritten.lengths
  have hprocess : req.completeUnexpAsIrecv segs = .ok { req with
      segs := segs', xferLength := xferLengthFor segs req.msgLength, unexpected := false } := by
    unfold MediumReq.completeUnexpAsIrecv
    rw [hunexpected, hsegs]
    exact bind_eq_ok.2 ⟨segs', hcopy, rfl⟩
  set req' : MediumReq β := { req with
    segs := segs', xferLength := xferLengthFor segs req.msgLength, unexpected := false } with hreq'
  have hcut : req'.xferLength = req'.inside := by
    show xferLengthFor segs req.msgLength = min (totalLength segs') req.msgLength
    rw [htotal, h.msgLength]
    exact hwrap
  have hold : req.inside = m.bytes.length := by
    rw [MediumReq.inside, hsegs, totalLength_single, hbuffer, Nat.min_self, h.msgLength]
  have hlength : (buffer.take (xferLengthFor segs req.msgLength)).length = req'.inside := by
    rw [List.length_take, hbuffer, Nat.min_eq_left hmsg]
    exact hcut
  have hbytes : ∀ p, segs'.flatten[p]? =
      if p < req'.inside then buffer[p]? else segs.flatten[p]? := by
    intro p
    rw [hwritten.flatten, getElem?_splice (Nat.zero_le _), hlength, if_neg (Nat.not_lt_zero p),
      Nat.zero_add, Nat.sub_zero]
    split
    · rename_i hp
      rw [List.getElem?_take_of_lt (hp.trans_eq hcut.symm)]
    · rfl
  refine ⟨req', hprocess, ⟨h.inv.completeUnexpAsIrecv hprocess, h.msgLength, hcut,
    hwritten.lengths, h.accumulated, fun p hp hgot => ?_, fun p hp => ?_⟩, rfl, rfl⟩
  · have hinside : req'.inside ≤ m.bytes.length := by
      rw [← h.msgLength]
      exact Nat.min_le_right _ _
    have hplaced := h.placed p (hold.symm ▸ hp.trans_le hinside) hgot
    rw [hsegs, List.flatten_cons, List.flatten_nil, List.append_nil] at hplaced
    show segs'.flatten[p]? = _
    rw [hbytes p, if_pos hp, hplaced]
  · show segs'.flatten[p]? = _
    rw [hbytes p, if_neg (not_lt.2 hp)]

end Holds

end Xen2mx.Reassembly
