/-
# `Xen2mx.Lib.Tickets` — numbers handed out by a counter that can be turned back

A counter hands out blocks of consecutive numbers: a caller adds the length of its
block and takes what was there before.  It then looks whether there is room.  If there
is, it keeps the block; if not, it has failed, and turns the counter back by the length
of its block.  Adding, looking and turning back are separate steps, so a block may be
handed out a second time while its first holder is still there.

`Tickets kept pending failed c`: the blocks kept so far, those whose holder has not
looked yet, and the lengths that failed holders have yet to turn back, for a counter that
stands at `c`.  What it says is that the kept blocks and some of the pending ones cover
an initial segment `[0, p)` of the numbers once, and that all other blocks lie beyond
`p`.  A block beyond is out of order: a number below it is held by nobody.

**Proved here.**  Reserving and turning back are always safe.  Keeping a block is safe when
every number below it is held (`Tickets.keep`), and failing is safe when no number above
it was kept (`Tickets.fail`).  Then

    two kept blocks have no number in common          (`Tickets.disjoint`)
    no number below a kept block is held by nobody    (`Tickets.covered`)
-/
import Mathlib.Algebra.BigOperators.Group.Multiset.Basic
import Mathlib.Data.Multiset.Filter
import Mathlib.Data.Multiset.MapFold
import Xen2mx.Lib.Tiling

namespace Xen2mx

/-- A block: its first number and its length. -/
abbrev Block := ℕ × ℕ

/-- Some block of `bs` holds the number `x`. -/
def Covers (bs : Multiset Block) (x : ℕ) : Prop := ∃ b ∈ bs, b.1 ≤ x ∧ x < b.1 + b.2

theorem Covers.mono {bs bs' : Multiset Block} {x : ℕ} (h : Covers bs x) (hle : bs ⊆ bs') :
    Covers bs' x := by
  obtain ⟨b, hb, hx⟩ := h
  exact ⟨b, hle hb, hx⟩

/-- The lengths of some blocks, added up. -/
def span (bs : Multiset Block) : ℕ := (bs.map Prod.snd).sum

@[simp] theorem span_zero : span 0 = 0 := rfl

@[simp] theorem span_cons (b : Block) (bs : Multiset Block) :
    span (b ::ₘ bs) = b.2 + span bs := by
  simp [span]

@[simp] theorem span_add (bs bs' : Multiset Block) : span (bs + bs') = span bs + span bs' := by
  simp [span]

/-- Blocks with numbers in them span some. -/
theorem eq_zero_of_span {bs : Multiset Block} (hpos : ∀ b ∈ bs, 0 < b.2) (h : span bs = 0) :
    bs = 0 := by
  induction bs using Multiset.induction_on with
  | empty => rfl
  | cons b bs ih =>
      have hb := hpos b (Multiset.mem_cons_self b bs)
      rw [span_cons] at h
      omega

/-! ## Tilings and blocks -/

theorem Tiles.span_eq {a b : ℕ} {ps : List Block} (h : Tiles a b ps) : a + span ps = b := by
  induction h with
  | nil => simp
  | cons a rest ih =>
      rw [← Multiset.cons_coe, span_cons]
      omega

/-- A tiling is cut in two at any of its pieces. -/
theorem Tiles.split {a c : ℕ} {b : Block} {ps qs : List Block}
    (h : Tiles a c (ps ++ b :: qs)) : Tiles a b.1 ps ∧ Tiles (b.1 + b.2) c qs := by
  induction ps generalizing a with
  | nil =>
      cases h with
      | cons a rest => exact ⟨.nil a, rest⟩
  | cons p ps ih =>
      cases h with
      | cons a rest =>
          obtain ⟨hlo, hhi⟩ := ih rest
          exact ⟨.cons a hlo, hhi⟩

/-- The pieces of a tiling come in order. -/
theorem Tiles.pairwise {a b : ℕ} {ps : List Block} (h : Tiles a b ps) :
    ps.Pairwise fun p q => p.1 + p.2 ≤ q.1 := by
  induction h with
  | nil => exact .nil
  | cons a rest ih => exact .cons (fun q hq => (rest.bounds hq).1) ih

theorem Tiles.covers {a b x : ℕ} {ps : List Block} (h : Tiles a b ps) (hlo : a ≤ x) (hhi : x < b) :
    Covers ps x := by
  obtain ⟨i, ⟨p, hp, hx⟩, -⟩ := h.exists_unique hlo hhi
  exact ⟨p, List.mem_of_getElem? hp, hx⟩

/-! ## Tickets -/

/-- The blocks kept, the blocks of those who have not looked, and the lengths yet to be
turned back, for a counter at `c`. -/
def Tickets (kept pending : Multiset Block) (failed : Multiset ℕ) (c : ℕ) : Prop :=
  ∃ (p : ℕ) (good junk : Multiset Block) (ps : List Block), pending = good + junk ∧
    Tiles 0 p ps ∧ kept + good = ps ∧ (∀ b ∈ junk, p < b.1) ∧ (∀ b ∈ kept + pending, 0 < b.2) ∧
      c = p + span junk + failed.sum

namespace Tickets

variable {kept pending : Multiset Block} {failed : Multiset ℕ} {b : Block} {c n : ℕ}

theorem start : Tickets 0 0 0 0 :=
  ⟨0, 0, 0, [], rfl, .nil 0, rfl, nofun, nofun, rfl⟩

/-- A new block comes next in order, unless there are blocks out of order. -/
theorem reserve (h : Tickets kept pending failed c) (hn : 0 < n) :
    Tickets kept ((c, n) ::ₘ pending) failed (c + n) := by
  obtain ⟨p, good, junk, ps, rfl, htiles, hgood, hjunk, hpos, hc⟩ := h
  have hpos' : ∀ b ∈ kept + (c, n) ::ₘ (good + junk), 0 < b.2 := by
    intro b hb
    rw [Multiset.add_cons, Multiset.mem_cons] at hb
    rcases hb with rfl | hb
    · exact hn
    · exact hpos b hb
  by_cases hp : c = p
  · have hzero : junk = 0 := eq_zero_of_span (fun b hb => hpos b (by
      simp only [Multiset.mem_add]
      exact .inr (.inr hb))) (by omega)
    subst hzero
    refine ⟨p + n, (c, n) ::ₘ good, 0, ps ++ [(p, n)], by rw [Multiset.cons_add],
      htiles.append (.cons p (.nil (p + n))), ?_, nofun, hpos', ?_⟩
    · rw [Multiset.add_cons, hgood, hp, ← Multiset.coe_add, add_comm, Multiset.coe_singleton,
        Multiset.singleton_add]
    · rw [span_zero] at hc ⊢
      omega
  · refine ⟨p, good, (c, n) ::ₘ junk, ps, by rw [Multiset.add_cons], htiles, hgood, ?_, hpos', ?_⟩
    · intro b hb
      rcases Multiset.mem_cons.1 hb with rfl | hb
      · show p < c
        omega
      · exact hjunk b hb
    · rw [span_cons]
      omega

/-- A block is kept while every number below it is held. -/
theorem keep (h : Tickets kept (b ::ₘ pending) failed c)
    (hbelow : ∀ x < b.1, Covers (kept + b ::ₘ pending) x) :
    Tickets (b ::ₘ kept) pending failed c := by
  obtain ⟨p, good, junk, ps, hpending, htiles, hgood, hjunk, hpos, hc⟩ := h
  have hb : b ∈ good := by
    have hmem : b ∈ good + junk := hpending ▸ Multiset.mem_cons_self b pending
    rcases Multiset.mem_add.1 hmem with hb | hb
    · exact hb
    · -- Nobody holds the number `p` if `b` lies beyond it.
      obtain ⟨b', hb', hlo, hhi⟩ := hbelow p (hjunk b hb)
      rw [hpending, ← add_assoc, hgood, Multiset.mem_add] at hb'
      rcases hb' with hb' | hb'
      · exact absurd hhi (not_lt.2 (htiles.bounds hb').2)
      · exact absurd hlo (not_le.2 (hjunk b' hb'))
  obtain ⟨good, rfl⟩ := Multiset.exists_cons_of_mem hb
  rw [Multiset.cons_add, Multiset.cons_inj_right] at hpending
  subst hpending
  refine ⟨p, good, junk, ps, rfl, htiles, ?_, hjunk, ?_, hc⟩
  · rw [Multiset.cons_add, ← Multiset.add_cons]
    exact hgood
  · intro x hx
    rw [Multiset.cons_add, ← Multiset.add_cons] at hx
    exact hpos x hx

/-- A holder fails while no block above its own was kept: the pending blocks above are
out of order from then on. -/
theorem fail (h : Tickets kept (b ::ₘ pending) failed c) (habove : ∀ b' ∈ kept, b'.1 < b.1) :
    Tickets kept pending (b.2 ::ₘ failed) c := by
  obtain ⟨p, good, junk, ps, hpending, htiles, hgood, hjunk, hpos, hc⟩ := h
  have hpos' : ∀ x ∈ kept + pending, 0 < x.2 := by
    intro x hx
    refine hpos x ?_
    rw [Multiset.add_cons]
    exact Multiset.mem_cons_of_mem hx
  have hmem : b ∈ good + junk := hpending ▸ Multiset.mem_cons_self b pending
  rcases Multiset.mem_add.1 hmem with hb | hb
  · obtain ⟨good, rfl⟩ := Multiset.exists_cons_of_mem hb
    rw [Multiset.cons_add, Multiset.cons_inj_right] at hpending
    subst hpending
    have hbps : b ∈ ps := Multiset.mem_coe.1 (hgood ▸ Multiset.mem_add.2 (.inr hb))
    have hblen : 0 < b.2 := hpos b (Multiset.mem_add.2 (.inr (Multiset.mem_cons_self _ _)))
    obtain ⟨ps₁, ps₂, rfl⟩ := List.append_of_mem hbps
    obtain ⟨hlo, hhi⟩ := htiles.split
    have hlen : ∀ x ∈ (ps₁ ++ b :: ps₂ : List Block), 0 < x.2 := by
      intro x hx
      refine hpos x ?_
      rw [← Multiset.cons_add, ← add_assoc, hgood]
      exact Multiset.mem_add.2 (.inl (Multiset.mem_coe.2 hx))
    have hrest : kept + good = (ps₁ : Multiset Block) + ps₂ := by
      rw [Multiset.add_cons, ← Multiset.coe_add, ← Multiset.cons_coe, Multiset.add_cons,
        Multiset.cons_inj_right] at hgood
      exact hgood
    have hlow : ∀ x ∈ (ps₁ : Multiset Block), x.1 < b.1 := by
      intro x hx
      have hend := (hlo.bounds (Multiset.mem_coe.1 hx)).2
      have := hlen x (List.mem_append_left _ (Multiset.mem_coe.1 hx))
      omega
    have hhigh : ∀ x ∈ (ps₂ : Multiset Block), ¬ x.1 < b.1 := by
      intro x hx
      have := (hhi.bounds (Multiset.mem_coe.1 hx)).1
      omega
    have hsplit := congrArg (Multiset.filter fun x : Block => x.1 < b.1) hrest
    have hsplit' := congrArg (Multiset.filter fun x : Block => ¬ x.1 < b.1) hrest
    rw [Multiset.filter_add, Multiset.filter_add, Multiset.filter_eq_self.2 hlow,
      Multiset.filter_eq_nil.2 hhigh, Multiset.filter_eq_self.2 habove, add_zero] at hsplit
    rw [Multiset.filter_add, Multiset.filter_add, Multiset.filter_eq_self.2 hhigh,
      Multiset.filter_eq_nil.2 fun x hx => not_not.2 (hlow x hx),
      Multiset.filter_eq_nil.2 fun x hx => not_not.2 (habove x hx), zero_add, zero_add] at hsplit'
    refine ⟨b.1, good.filter (fun x => x.1 < b.1), good.filter (fun x => ¬ x.1 < b.1) + junk, ps₁,
      ?_, hlo, hsplit, ?_, hpos', ?_⟩
    · rw [← add_assoc, Multiset.filter_add_not]
    · intro x hx
      have hle := hhi.le
      rcases Multiset.mem_add.1 hx with hx | hx
      · rw [hsplit'] at hx
        have := (hhi.bounds (Multiset.mem_coe.1 hx)).1
        omega
      · have := hjunk x hx
        omega
    · have hspan := hhi.span_eq
      rw [span_add, hsplit', Multiset.sum_cons]
      omega
  · obtain ⟨junk, rfl⟩ := Multiset.exists_cons_of_mem hb
    rw [Multiset.add_cons, Multiset.cons_inj_right] at hpending
    subst hpending
    refine ⟨p, good, junk, ps, rfl, htiles, hgood, fun x hx => hjunk x (Multiset.mem_cons_of_mem hx),
      hpos', ?_⟩
    rw [span_cons] at hc
    rw [Multiset.sum_cons]
    omega

/-- The counter is turned back by a length that failed. -/
theorem rollback (h : Tickets kept pending (n ::ₘ failed) c) : Tickets kept pending failed (c - n) := by
  obtain ⟨p, good, junk, ps, hpending, htiles, hgood, hjunk, hpos, hc⟩ := h
  refine ⟨p, good, junk, ps, hpending, htiles, hgood, hjunk, hpos, ?_⟩
  rw [Multiset.sum_cons] at hc
  omega

/-- A block that is taken for good at once, while every number below it is held. -/
theorem take (h : Tickets kept pending failed c) (hn : 0 < n)
    (hbelow : ∀ x < c, Covers (kept + pending) x) :
    Tickets ((c, n) ::ₘ kept) pending failed (c + n) := by
  refine (h.reserve hn).keep fun x hx => (hbelow x hx).mono ?_
  rw [Multiset.add_cons]
  exact Multiset.subset_cons _ _

/-! ## What tickets are good for -/

/-- Two kept blocks have no number in common. -/
theorem disjoint (h : Tickets (b ::ₘ kept) pending failed c) :
    ∀ b' ∈ kept, b.1 + b.2 ≤ b'.1 ∨ b'.1 + b'.2 ≤ b.1 := by
  obtain ⟨p, good, junk, ps, -, htiles, hgood, -⟩ := h
  intro b' hb'
  obtain ⟨kept, rfl⟩ := Multiset.exists_cons_of_mem hb'
  induction kept using Quotient.inductionOn with
  | h kept =>
  induction good using Quotient.inductionOn with
  | h good =>
      have hperm : (b :: b' :: (kept ++ good)).Perm ps := Multiset.coe_eq_coe.1 hgood
      have hpair := (hperm.pairwise_iff (R := fun p q : Block => p.1 + p.2 ≤ q.1 ∨ q.1 + q.2 ≤ p.1)
        (fun h => h.symm)).2 (htiles.pairwise.imp .inl)
      exact List.rel_of_pairwise_cons hpair List.mem_cons_self

/-- The first numbers of the kept blocks are distinct. -/
theorem nodup (h : Tickets kept pending failed c) : (kept.map Prod.fst).Nodup := by
  obtain ⟨p, good, junk, ps, rfl, htiles, hgood, -, hpos, -⟩ := h
  have hlen : ∀ x ∈ ps, 0 < x.2 := by
    intro x hx
    refine hpos x ?_
    rw [← add_assoc, hgood]
    exact Multiset.mem_add.2 (.inl (Multiset.mem_coe.2 hx))
  have hps : (ps.map Prod.fst).Nodup := by
    refine List.pairwise_map.2 (htiles.pairwise.imp_of_mem ?_)
    intro x y hx _ hle heq
    have := hlen x hx
    omega
  refine Multiset.nodup_of_le (Multiset.map_le_map (Multiset.le_add_right kept good)) ?_
  rw [hgood, Multiset.map_coe]
  exact Multiset.coe_nodup.2 hps

/-- No number below a kept block is held by nobody. -/
theorem covered (h : Tickets kept pending failed c) (hb : b ∈ kept) {x : ℕ} (hx : x < b.1) :
    Covers (kept + pending) x := by
  obtain ⟨p, good, junk, ps, rfl, htiles, hgood, -⟩ := h
  have hps : b ∈ ps := Multiset.mem_coe.1 (hgood ▸ Multiset.mem_add.2 (.inl hb))
  have hend := (htiles.bounds hps).2
  refine (htiles.covers (Nat.zero_le x) (by omega)).mono fun y hy => ?_
  rw [← add_assoc, hgood]
  exact Multiset.mem_add.2 (.inl hy)

/-- The counter counts all that is held or has yet to be turned back. -/
theorem count (h : Tickets kept pending failed c) :
    c = span kept + span pending + failed.sum := by
  obtain ⟨p, good, junk, ps, rfl, htiles, hgood, -, -, hc⟩ := h
  have hspan := htiles.span_eq
  rw [← hgood, span_add] at hspan
  rw [span_add]
  omega

/-- The counter stands above every kept block. -/
theorem le (h : Tickets kept pending failed c) (hb : b ∈ kept) : b.1 + b.2 ≤ c := by
  obtain ⟨p, good, junk, ps, -, htiles, hgood, -, -, hc⟩ := h
  have hps : b ∈ ps := Multiset.mem_coe.1 (hgood ▸ Multiset.mem_add.2 (.inl hb))
  exact (htiles.bounds hps).2.trans (by omega)

end Tickets

end Xen2mx
