/-
# `Xen2mx.Sendq.Contents` — what is in the entries of a medium send

`omx__post_isend_mediumsq` copies each fragment of a message to its entry of the send queue and
gives it to the driver; the message is posted again from the entries, without another copy.  When
the driver does not take a fragment, the fragments after it are still to be copied.

    first post      copy and post each; after a failure copy the others
    later posts     post each

The segments of the message are one, with an offset, or more, with a scan state, which the copy
moves; the offset moves when the fragment is posted.

**Proved here.**

    the post returns with each fragment in its entry and the credits of the others back
        ⟺  it is not the first, or no fragment but the last is refused   (`postIsendMediumsq_iff`)
    a first post of three fragments, the first refused, does not return   (`postIsendMediumsq_stuck`)
-/
import Xen2mx.Segments.Scan
import Xen2mx.Sendq.Endpoint

namespace Xen2mx.Sendq.Contents

open Segments

variable {β : Type*}

/-! ## The message and its source -/

/-- A medium message, and the entries that it has. -/
structure Message (β : Type*) where
  segs : ReqSegs β
  sendqMapIndex : ℕ → ℕ
  resends : ℕ

/-- The buffer of a message and the offset in it, or its segments and the scan state. -/
inductive Source (β : Type*) where
  | single (data : List β) (offset : ℕ)
  | vector (segs : ReqSegs β) (state : Cursor)

/-- Where the post of a message stops: at a fault, or nowhere in so many rounds. -/
inductive Stop where
  | fault (f : Fault)
  | running
  deriving DecidableEq, Repr

/-- "optimize the contigous send medium", or "initialize the state to the beginning". -/
def Source.start : ReqSegs β → Source β
  | [seg] => .single seg 0
  | segs => .vector segs ⟨0, 0⟩

/-- The copy of a chunk. -/
def Source.copy (chunk : ℕ) : Source β → Except Stop (List β × Source β)
  | .single data offset =>
      check (offset + chunk ≤ data.length) (.fault .overrun)
        (.ok ((data.drop offset).take chunk, .single data offset))
  | .vector segs state =>
      match continuePartialCopyFromSegments segs chunk state with
      | .ok (bytes, state) => .ok (bytes, .vector segs state)
      | .error f => .error (.fault f)

/-- "offset += chunk", which the scan state does not need. -/
def Source.next (chunk : ℕ) : Source β → Source β
  | .single data offset => .single data (offset + chunk)
  | .vector segs state => .vector segs state

/-! ## The post -/

/-- The variables of the loops, and the send queue. -/
structure Post (β : Type*) where
  i : ℕ
  remaining : ℕ
  source : Source β
  sendq : ℕ → List β

variable (z : Sizes) (m : Message β)

def Message.length : ℕ := totalLength m.segs

def Message.fragsNr : ℕ := z.fragsNr m.length

/-- "remaining > frag_max ? frag_max : remaining". -/
def Post.chunk (s : Post β) : ℕ :=
  if z.mediumFragLengthMax < s.remaining then z.mediumFragLengthMax else s.remaining

/-- A chunk is copied to the entry of the fragment `j`. -/
def Post.copyFrag (s : Post β) (j : ℕ) : Except Stop (Post β) :=
  (s.source.copy (s.chunk z)).bind fun (bytes, source) =>
    .ok { s with
      source
      sendq := Function.update s.sendq (m.sendqMapIndex j)
        (splice 0 bytes (s.sendq (m.sendqMapIndex j))) }

/-- "remaining -= chunk". -/
def Post.next (s : Post β) : Post β :=
  { s with
    i := s.i + 1
    remaining := s.remaining - s.chunk z
    source := s.source.next (s.chunk z) }

/-- "finish copying frags if not done already": the loop tests `j` and increments `i`. -/
def copyRest (j : ℕ) : (rounds : ℕ) → Post β → Except Stop (Post β)
  | 0, _ => .error .running
  | rounds + 1, s =>
      if j < m.fragsNr z then
        (s.copyFrag z m j).bind fun s => copyRest j rounds (s.next z)
      else .ok s

/-- The loop over the fragments, with `left` to go; `accepted` are taken before one is not.  It
says if all were. -/
def postLoop (accepted rounds : ℕ) : (left : ℕ) → Post β → Except Stop (Bool × Post β)
  | 0, s => .ok (true, s)
  | left + 1, s =>
      (if m.resends = 0 then s.copyFrag z m s.i else .ok s).bind fun s =>
        if s.i < accepted then postLoop accepted rounds left (s.next z)
        else
          (if m.resends = 0 then copyRest z m (s.i + 1) rounds s else .ok s).bind fun s =>
            .ok (false, s)

/-- What is left by a post. -/
structure Posted (β : Type*) where
  fragsPendingNr : ℕ
  availExpEvents : ℕ
  resends : ℕ
  driverMediumsqSending : Bool
  sendq : ℕ → List β

/-- `omx__post_isend_mediumsq`. -/
def postIsendMediumsq (sendq : ℕ → List β) (availExpEvents accepted rounds : ℕ) :
    Except Stop (Posted β) :=
  (postLoop z m accepted rounds (m.fragsNr z) ⟨0, m.length, .start m.segs, sendq⟩).bind
    fun (all, s) =>
      .ok
        (if all then ⟨m.fragsNr z, availExpEvents, m.resends + 1, true, s.sendq⟩
        else
          let availExpEvents := availExpEvents + (m.fragsNr z - s.i)
          if s.i ≠ 0 then ⟨s.i, availExpEvents, m.resends + 1, true, s.sendq⟩
          else ⟨s.i, availExpEvents, m.resends, false, s.sendq⟩)

/-! ## What it is for -/

/-- The bytes of a fragment. -/
def Message.frag (i : ℕ) : List β :=
  (m.segs.flatten.drop (i * z.mediumFragLengthMax)).take z.mediumFragLengthMax

/-- Each fragment is in its entry. -/
def Message.InSendq (sendq : ℕ → List β) : Prop :=
  ∀ i < m.fragsNr z, (sendq (m.sendqMapIndex i)).take (m.frag z i).length = m.frag z i

/-- The post returns; each fragment is in its entry, and the credits are back of those that the
driver did not take. -/
def Posts (sendq : ℕ → List β) (availExpEvents accepted : ℕ) : Prop :=
  ∃ rounds posted, postIsendMediumsq z m sendq availExpEvents accepted rounds = .ok posted ∧
    m.InSendq z posted.sendq ∧ posted.fragsPendingNr = min accepted (m.fragsNr z) ∧
    posted.availExpEvents = availExpEvents + (m.fragsNr z - posted.fragsPendingNr)

/-! ## The copies -/

variable {z m} {data : List β} {pos : ℕ} {source : Source β} {s s' : Post β}
  {accepted rounds : ℕ}

/-- The source is at a position of the message. -/
def Source.At (data : List β) (pos : ℕ) : Source β → Prop
  | .single data' offset => data' = data ∧ offset = pos
  | .vector segs state =>
      segs.flatten = data ∧ Saved (lengths segs) state ∧ state.pos (lengths segs) = pos

theorem Source.at_start (segs : ReqSegs β) : (Source.start segs).At segs.flatten 0 := by
  unfold Source.start
  split
  · exact ⟨(List.append_nil _).symm, rfl⟩
  · refine ⟨rfl, ?_, rfl⟩
    rcases Nat.eq_zero_or_pos (lengths segs).length with hzero | hpos
    · exact .inr ⟨hzero.symm, rfl⟩
    · exact .inl ⟨_, List.getElem?_eq_getElem hpos, Nat.zero_le _⟩

/-- A chunk of the message is copied, and the source is behind it. -/
theorem Source.At.copy (h : source.At data pos) (chunk : ℕ) (hpos : 0 < chunk)
    (hle : pos + chunk ≤ data.length) :
    ∃ source', source.copy chunk = .ok ((data.drop pos).take chunk, source') ∧
      (source'.next chunk).At data (pos + chunk) := by
  cases source with
  | single data' offset =>
      obtain ⟨rfl, rfl⟩ := h
      exact ⟨.single data' offset, check_pos hle, rfl, rfl⟩
  | vector segs state =>
      obtain ⟨rfl, hsaved, rfl⟩ := h
      have htotal : segs.flatten.length = (lengths segs).sum := (sum_lengths segs).symm
      have hlt : state.pos (lengths segs) < (lengths segs).sum := by omega
      have hin : InArray (lengths segs) state := by
        obtain ⟨n, hn⟩ := exists_seg_of_pos_lt hlt
        exact hsaved.inArray (List.getElem?_eq_some_iff.1 hn).1
      obtain ⟨state', hcopy, hmoved⟩ :=
        continueCopyFrom_eq chunk state rfl hin (by rwa [← length_flatten])
      refine ⟨.vector segs state', ?_, rfl, hmoved.saved, hmoved.pos⟩
      unfold Source.copy
      dsimp only
      rw [hcopy]

/-- The loop after a failure does not return if it does anything. -/
theorem copyRest_ne_ok {j : ℕ} (h : j < m.fragsNr z) :
    ∀ (rounds : ℕ) (s s' : Post β), copyRest z m j rounds s ≠ .ok s' := by
  intro rounds
  induction rounds with
  | zero => exact fun _ _ => nofun
  | succ rounds ih =>
      intro s s' hs'
      rw [copyRest, if_pos h] at hs'
      obtain ⟨s₁, -, hs'⟩ := bind_eq_ok.1 hs'
      exact ih _ _ hs'

theorem copyRest_done {j : ℕ} (h : m.fragsNr z ≤ j) (rounds : ℕ) (s : Post β) :
    copyRest z m j (rounds + 1) s = .ok s := if_neg (not_lt.2 h)

/-! ## The loop -/

theorem Message.lt_fragsNr_iff {i : ℕ} : i < m.fragsNr z ↔ i * z.mediumFragLengthMax < m.length := by
  have hpos := z.frag_pos
  rw [Message.fragsNr, Sizes.fragsNr, Nat.lt_iff_add_one_le, Nat.le_div_iff_mul_le hpos,
    Nat.succ_mul]
  omega

theorem Message.length_frag (i : ℕ) :
    (m.frag z i).length = min z.mediumFragLengthMax (m.length - i * z.mediumFragLengthMax) := by
  rw [Message.frag, List.length_take, List.length_drop, length_flatten, Message.length]

theorem Post.chunk_eq (s : Post β) : s.chunk z = min z.mediumFragLengthMax s.remaining := by
  unfold Post.chunk
  split
  · rw [Nat.min_eq_left (Nat.le_of_lt ‹_›)]
  · rw [Nat.min_eq_right (not_lt.1 ‹_›)]

/-- What holds at the head of the loop: the fragments before are in their entries, all of them if
this is not the first post. -/
structure Going (z : Sizes) (m : Message β) (s : Post β) : Prop where
  remaining : s.remaining = m.length - s.i * z.mediumFragLengthMax
  source : m.resends = 0 → s.source.At m.segs.flatten (m.length - s.remaining)
  filled : ∀ i < m.fragsNr z, m.resends ≠ 0 ∨ i < s.i →
    (s.sendq (m.sendqMapIndex i)).take (m.frag z i).length = m.frag z i

/-- A fragment is copied to its entry, and those before stay in theirs. -/
theorem Going.copyFrag (hs : Going z m s)
    (hinj : ∀ i < m.fragsNr z, ∀ j < m.fragsNr z, m.sendqMapIndex i = m.sendqMapIndex j → i = j)
    (hlt : s.i < m.fragsNr z) (hfirst : m.resends = 0) :
    ∃ s', s.copyFrag z m s.i = .ok s' ∧ s'.i = s.i ∧ Going z m (s'.next z) ∧
      ∀ i < m.fragsNr z, i ≤ s.i →
        (s'.sendq (m.sendqMapIndex i)).take (m.frag z i).length = m.frag z i := by
  have hbefore := Message.lt_fragsNr_iff.1 hlt
  have hremaining := hs.remaining
  have hchunk := Post.chunk_eq (z := z) s
  have hfrag := Message.length_frag (z := z) (m := m) s.i
  have hmax := z.frag_pos
  have hlength : m.segs.flatten.length = m.length := length_flatten m.segs
  obtain ⟨source, hcopy, hat⟩ := (hs.source hfirst).copy (s.chunk z) (by omega) (by omega)
  have hbytes : (m.segs.flatten.drop (m.length - s.remaining)).take (s.chunk z) = m.frag z s.i := by
    rw [Message.frag, show m.length - s.remaining = s.i * z.mediumFragLengthMax by omega,
      List.take_eq_take_iff, List.length_drop]
    omega
  rw [hbytes] at hcopy
  have hfilled : ∀ i < m.fragsNr z, i ≤ s.i →
      (Function.update s.sendq (m.sendqMapIndex s.i) (splice 0 (m.frag z s.i)
        (s.sendq (m.sendqMapIndex s.i))) (m.sendqMapIndex i)).take (m.frag z i).length =
          m.frag z i := by
    intro i hi hle
    rcases hle.eq_or_lt with rfl | hlt'
    · rw [Function.update_self, splice, List.take_zero, List.nil_append, List.take_left]
    · rw [Function.update_of_ne fun heq => hlt'.ne (hinj i hi s.i hlt heq)]
      exact hs.filled i hi (.inr hlt')
  refine ⟨{ s with
    source
    sendq := Function.update s.sendq (m.sendqMapIndex s.i) (splice 0 (m.frag z s.i)
      (s.sendq (m.sendqMapIndex s.i))) }, ?_, rfl, ⟨?_, fun _ => ?_, fun i hi hle => ?_⟩, hfilled⟩
  · rw [Post.copyFrag, hcopy, ok_bind]
  · show s.remaining - s.chunk z = m.length - (s.i + 1) * z.mediumFragLengthMax
    rw [Nat.succ_mul]
    omega
  · show (source.next (s.chunk z)).At m.segs.flatten (m.length - (s.remaining - s.chunk z))
    rw [show m.length - (s.remaining - s.chunk z) = m.length - s.remaining + s.chunk z by omega]
    exact hat
  · exact hfilled i hi (Nat.le_of_lt_succ (hle.resolve_left fun h => h hfirst))

theorem Going.next (hs : Going z m s) (hlater : m.resends ≠ 0) : Going z m (s.next z) where
  remaining := by
    have hremaining := hs.remaining
    have hchunk := Post.chunk_eq (z := z) s
    show s.remaining - s.chunk z = m.length - (s.i + 1) * z.mediumFragLengthMax
    rw [Nat.succ_mul]
    omega
  source := fun hfirst => absurd hfirst hlater
  filled := fun i hi _ => hs.filled i hi (.inl hlater)

/-- A loop in which nothing is left to copy after a failure. -/
theorem Going.postLoop (hs : Going z m s)
    (hinj : ∀ i < m.fragsNr z, ∀ j < m.fragsNr z, m.sendqMapIndex i = m.sendqMapIndex j → i = j)
    (h : m.resends ≠ 0 ∨ m.fragsNr z ≤ accepted + 1) {left : ℕ} (hleft : s.i + left = m.fragsNr z)
    (hle : s.i ≤ accepted) :
    ∃ s', postLoop z m accepted 1 left s = .ok (decide (m.fragsNr z ≤ accepted), s') ∧
      m.InSendq z s'.sendq ∧ (accepted < m.fragsNr z → s'.i = accepted) := by
  induction left generalizing s with
  | zero =>
      refine ⟨s, ?_, fun i hi => hs.filled i hi (.inr (by omega)), fun hlt => by omega⟩
      rw [Contents.postLoop, decide_eq_true (by omega)]
  | succ left ih =>
      have hlt : s.i < m.fragsNr z := by omega
      -- The fragment is in its entry, now or from the first post.
      obtain ⟨s₁, hs₁, hi, hnext, hfilled⟩ : ∃ s₁, (if m.resends = 0 then s.copyFrag z m s.i
          else .ok s) = .ok s₁ ∧ s₁.i = s.i ∧ Going z m (s₁.next z) ∧
          ∀ i < m.fragsNr z, m.resends ≠ 0 ∨ i ≤ s.i →
            (s₁.sendq (m.sendqMapIndex i)).take (m.frag z i).length = m.frag z i := by
        by_cases hfirst : m.resends = 0
        · rw [if_pos hfirst]
          obtain ⟨s₁, hs₁, hi, hnext, hfilled⟩ := hs.copyFrag hinj hlt hfirst
          exact ⟨s₁, hs₁, hi, hnext, fun i hi hle => hfilled i hi
            (hle.resolve_left fun h => h hfirst)⟩
        · rw [if_neg hfirst]
          exact ⟨s, rfl, rfl, hs.next hfirst, fun i hi _ => hs.filled i hi (.inl hfirst)⟩
      rw [Contents.postLoop, hs₁, ok_bind]
      rcases hle.lt_or_eq with hlt' | heq
      · rw [if_pos (by omega)]
        exact ih hnext (by show s₁.i + 1 + left = _; omega) (by show s₁.i + 1 ≤ _; omega)
      · rw [if_neg (by omega), decide_eq_false (by omega)]
        refine ⟨s₁, ?_, fun i hi' => hfilled i hi' ?_, fun _ => hi.trans heq⟩
        · by_cases hfirst : m.resends = 0
          · rw [if_pos hfirst, copyRest_done (by have := h.resolve_left fun h => h hfirst; omega),
              ok_bind]
          · rw [if_neg hfirst, ok_bind]
        · by_cases hfirst : m.resends = 0
          · have hlast := h.resolve_left fun h => h hfirst
            exact .inr (by omega)
          · exact .inl hfirst

/-- A loop that has fragments to copy after a failure. -/
theorem postLoop_ne_ok (hfirst : m.resends = 0) (h : accepted + 1 < m.fragsNr z) {left : ℕ} :
    ∀ {s : Post β}, s.i + left = m.fragsNr z → s.i ≤ accepted →
      ∀ r, postLoop z m accepted rounds left s ≠ .ok r := by
  induction left with
  | zero =>
      intro s hleft hle
      omega
  | succ left ih =>
      intro s hleft hle r hr
      rw [Contents.postLoop, if_pos hfirst] at hr
      obtain ⟨s₁, hs₁, hr⟩ := bind_eq_ok.1 hr
      have hi : s₁.i = s.i := by
        obtain ⟨_, -, hs₁⟩ := bind_eq_ok.1 hs₁
        cases hs₁
        rfl
      split at hr
      · exact ih (by show s₁.i + 1 + left = _; omega) (by show s₁.i + 1 ≤ _; omega) r hr
      · obtain ⟨s₂, hs₂, -⟩ := bind_eq_ok.1 hr
        exact copyRest_ne_ok (by omega) rounds s₁ s₂ hs₂

/-! ## The whole post -/

variable {sendq : ℕ → List β} {availExpEvents : ℕ}

theorem Going.start (h : m.resends ≠ 0 → m.InSendq z sendq) :
    Going z m ⟨0, m.length, .start m.segs, sendq⟩ where
  remaining := by
    show m.length = m.length - 0 * _
    rw [Nat.zero_mul, Nat.sub_zero]
  source := fun _ => by
    show Source.At _ (m.length - m.length) _
    rw [Nat.sub_self]
    exact Source.at_start m.segs
  filled := fun i hi hle => h (hle.resolve_right (Nat.not_lt_zero i)) i hi

theorem posts_of (h : m.resends ≠ 0 ∨ m.fragsNr z ≤ accepted + 1)
    (hinj : ∀ i < m.fragsNr z, ∀ j < m.fragsNr z, m.sendqMapIndex i = m.sendqMapIndex j → i = j)
    (hresend : m.resends ≠ 0 → m.InSendq z sendq) : Posts z m sendq availExpEvents accepted := by
  obtain ⟨s, hs, hfilled, hi⟩ := (Going.start hresend).postLoop hinj h (Nat.zero_add _)
    (Nat.zero_le _)
  refine ⟨1, _, bind_eq_ok.2 ⟨_, hs, rfl⟩, ?_⟩
  rcases Nat.lt_or_ge accepted (m.fragsNr z) with hlt | hge
  · obtain rfl := hi hlt
    simp only [decide_eq_false (not_le.2 hlt), Nat.min_eq_left hlt.le, Bool.false_eq_true, if_false]
    split
    · exact ⟨hfilled, rfl, rfl⟩
    · exact ⟨hfilled, rfl, rfl⟩
  · simp only [decide_eq_true hge, Nat.min_eq_right hge, if_true]
    exact ⟨hfilled, trivial, by rw [Nat.sub_self, Nat.add_zero]⟩

theorem Posts.returns (h : Posts z m sendq availExpEvents accepted) :
    m.resends ≠ 0 ∨ m.fragsNr z ≤ accepted + 1 := by
  by_contra hnot
  obtain ⟨hfirst, hrest⟩ := not_or.1 hnot
  obtain ⟨rounds, posted, hpost, -⟩ := h
  obtain ⟨r, hr, -⟩ := bind_eq_ok.1 hpost
  exact postLoop_ne_ok (not_not.1 hfirst) (not_le.1 hrest) (Nat.zero_add _) (Nat.zero_le _) r hr

/-- The post of the machine of the endpoint returns with these posts. -/
theorem posts_iff_isSome {ep : Endpoint} {req : MediumsqReq} (hfrags : req.fragsNr = m.fragsNr z)
    (hresends : req.resends = m.resends)
    (hinj : ∀ i < m.fragsNr z, ∀ j < m.fragsNr z, m.sendqMapIndex i = m.sendqMapIndex j → i = j)
    (hresend : m.resends ≠ 0 → m.InSendq z sendq) :
    Posts z m sendq availExpEvents accepted ↔ (ep.postIsendMediumsq req accepted).isSome := by
  rw [Endpoint.postIsendMediumsq, hfrags, hresends]
  dsimp only
  constructor
  · intro h
    split
    · rfl
    · split
      · rename_i hfirst
        have hlast := h.returns.resolve_left fun h => h hfirst
        obtain ⟨n, hn⟩ := Nat.exists_eq_add_of_lt (not_le.1 ‹¬ m.fragsNr z ≤ accepted›)
        rw [hn, Endpoint.copyRest, if_neg (by omega)]
        rfl
      · rfl
  · intro h
    refine posts_of ?_ hinj hresend
    split at h
    · exact .inr (by omega)
    · split at h
      · obtain ⟨i, hi⟩ := Option.isSome_iff_exists.1 (Option.isSome_map.symm.trans h)
        exact .inr (Endpoint.copyRest_eq_some hi).2
      · exact .inl ‹_›

/-- A post returns with each fragment in its entry exactly when it is not the first, or when the
driver takes all fragments but the last at least. -/
theorem postIsendMediumsq_iff (z : Sizes) (m : Message β) (sendq : ℕ → List β)
    (availExpEvents accepted : ℕ)
    (hinj : ∀ i < m.fragsNr z, ∀ j < m.fragsNr z, m.sendqMapIndex i = m.sendqMapIndex j → i = j)
    (hresend : m.resends ≠ 0 → m.InSendq z sendq) :
    Posts z m sendq availExpEvents accepted ↔ m.resends ≠ 0 ∨ m.fragsNr z ≤ accepted + 1 :=
  ⟨Posts.returns, fun h => posts_of h hinj hresend⟩

/-- A message of three fragments in two segments, in the entries 4, 5 and 6. -/
def threeFrags : Message ℕ := ⟨[[1, 2, 3, 4], [5, 6]], (· + 4), 0⟩

/-- Fragments of two bytes. -/
def twoBytes : Sizes := ⟨1024, 2, Sizes.default.batch_pos, by decide⟩

/-- The last fragment is refused. -/
theorem postIsendMediumsq_last : Posts twoBytes threeFrags (fun _ => [0, 0]) 1000 2 ↔
    threeFrags.resends ≠ 0 ∨ threeFrags.fragsNr twoBytes ≤ 2 + 1 :=
  postIsendMediumsq_iff twoBytes threeFrags (fun _ => [0, 0]) 1000 2
    (fun _ _ _ _ h => Nat.add_right_cancel h) fun h => absurd rfl h

/-- The first fragment is refused. -/
theorem postIsendMediumsq_stuck : ¬ ∀ (z : Sizes) (m : Message ℕ) (sendq : ℕ → List ℕ)
    (availExpEvents accepted : ℕ),
    (∀ i < m.fragsNr z, ∀ j < m.fragsNr z, m.sendqMapIndex i = m.sendqMapIndex j → i = j) →
    (m.resends ≠ 0 → m.InSendq z sendq) → Posts z m sendq availExpEvents accepted := by
  intro h
  have hposts := h twoBytes threeFrags (fun _ => [0, 0]) 1000 0
    (fun _ _ _ _ heq => Nat.add_right_cancel heq) fun hne => absurd rfl hne
  exact absurd hposts.returns (by decide)

end Xen2mx.Sendq.Contents
