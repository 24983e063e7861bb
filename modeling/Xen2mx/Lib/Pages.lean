/-
# `Xen2mx.Lib.Pages` — buffers that lie in pages

A buffer of some length starts at an offset in its first page and goes through an array of pages.
What a byte of it is called is the page and the offset there.

    pages      | 0       | 1       | 2       |
    buffer        |---------------|              offset 3, length 17, pages of 10

A piece is a range of bytes of one page.  The code that goes through a buffer cuts it at the ends
of pages, and `take_drop_bytes` says which bytes such a piece is.

**Proved here.**

    the byte k of a buffer                                (`getElem?_bytes`)
    a piece within a page is a range of the buffer        (`take_drop_bytes`)
    where the piece after it starts                       (`next_page`, `same_page`)

An array may be too short for its buffer.  The bytes behind its end have no place then.

    a piece within a page that there is                   (`take_drop_places`)
    which byte has a page                                 (`getElem?_places_eq_none_iff`)
-/
import Mathlib.Algebra.Order.Group.Nat
import Mathlib.Data.List.ReduceOption
import Mathlib.Tactic.Common

namespace Xen2mx.Pages

variable {π : Type*}

/-! ## Bytes -/

/-- The bytes of an array of pages of `P` bytes. -/
def pageBytes (P : ℕ) (pages : List π) : List (π × ℕ) :=
  pages.flatMap fun page => (List.range P).map (Prod.mk page)

/-- The bytes of a buffer of `len` bytes that starts at `off` in the first of the pages. -/
def bytes (P off len : ℕ) (pages : List π) : List (π × ℕ) :=
  ((pageBytes P pages).drop off).take len

/-- A range of bytes of a page. -/
structure Piece (π : Type*) where
  page : π
  offset : ℕ
  length : ℕ
  deriving DecidableEq, Repr

/-- The bytes of a piece. -/
def Piece.bytes (p : Piece π) : List (π × ℕ) :=
  (List.range' p.offset p.length).map (Prod.mk p.page)

@[simp] theorem Piece.length_bytes (p : Piece π) : p.bytes.length = p.length := by
  rw [Piece.bytes, List.length_map, List.length_range']

variable {P off len k n : ℕ} {pages : List π} {page : π}

theorem length_pageBytes (P : ℕ) (pages : List π) :
    (pageBytes P pages).length = pages.length * P := by
  induction pages with
  | nil => exact (Nat.zero_mul P).symm
  | cons page pages ih =>
      have hcons : pageBytes P (page :: pages) =
          (List.range P).map (Prod.mk page) ++ pageBytes P pages := rfl
      rw [hcons, List.length_append, List.length_map, List.length_range, ih, List.length_cons,
        Nat.succ_mul, Nat.add_comm]

theorem getElem?_pageBytes (hP : 0 < P) (pages : List π) (i : ℕ) :
    (pageBytes P pages)[i]? = pages[i / P]?.map fun page => (page, i % P) := by
  induction pages generalizing i with
  | nil => rfl
  | cons page pages ih =>
      have hcons : pageBytes P (page :: pages) =
          (List.range P).map (Prod.mk page) ++ pageBytes P pages := rfl
      have hlen : ((List.range P).map (Prod.mk page)).length = P := by
        rw [List.length_map, List.length_range]
      rw [hcons]
      rcases Nat.lt_or_ge i P with hlt | hge
      · rw [List.getElem?_append_left (by rw [hlen]; exact hlt), Nat.div_eq_of_lt hlt,
          Nat.mod_eq_of_lt hlt, List.getElem?_map, List.getElem?_range hlt]
        rfl
      · rw [List.getElem?_append_right (by rw [hlen]; exact hge), hlen, ih,
          Nat.mod_eq_sub_mod hge, Nat.div_eq_sub_div hP hge, List.getElem?_cons_succ]

theorem length_bytes (h : off + len ≤ pages.length * P) : (bytes P off len pages).length = len := by
  rw [bytes, List.length_take, List.length_drop, length_pageBytes]
  omega

/-- The byte `k` of a buffer. -/
theorem getElem?_bytes (hP : 0 < P) (hk : k < len) :
    (bytes P off len pages)[k]? =
      pages[(off + k) / P]?.map fun page => (page, (off + k) % P) := by
  rw [bytes, List.getElem?_take_of_lt hk, List.getElem?_drop, getElem?_pageBytes hP]

/-- The page of a byte is in the array. -/
theorem exists_page (h : off + len ≤ pages.length * P) (hk : k < len) :
    ∃ page, pages[(off + k) / P]? = some page :=
  ⟨_, List.getElem?_eq_getElem (Nat.div_lt_of_lt_mul (by rw [Nat.mul_comm]; omega))⟩

/-- A buffer, cut. -/
theorem bytes_add (P off m n : ℕ) (pages : List π) :
    bytes P off (m + n) pages = bytes P off m pages ++ bytes P (off + m) n pages := by
  rw [bytes, bytes, bytes, List.take_add, List.drop_drop]

/-! ## Pieces of a buffer -/

theorem add_div_of_lt {x j : ℕ} (h : x % P + j < P) : (x + j) / P = x / P := by
  have hP : 0 < P := by omega
  have hx := Nat.div_add_mod x P
  calc (x + j) / P = (P * (x / P) + (x % P + j)) / P := by rw [← Nat.add_assoc, hx]
    _ = x / P + (x % P + j) / P := Nat.mul_add_div hP _ _
    _ = x / P := by rw [Nat.div_eq_of_lt h, Nat.add_zero]

theorem add_mod_of_lt {x j : ℕ} (h : x % P + j < P) : (x + j) % P = x % P + j := by
  have hx := Nat.div_add_mod x P
  calc (x + j) % P = (P * (x / P) + (x % P + j)) % P := by rw [← Nat.add_assoc, hx]
    _ = (x % P + j) % P := Nat.mul_add_mod ..
    _ = x % P + j := Nat.mod_eq_of_lt h

/-- A piece that ends with its page is followed by the next page. -/
theorem next_page {x : ℕ} (hP : 0 < P) (h : x % P + n = P) :
    (x + n) / P = x / P + 1 ∧ (x + n) % P = 0 := by
  have hx := Nat.div_add_mod x P
  have hsum : x + n = P * (x / P + 1) := by
    rw [Nat.mul_add, Nat.mul_one]
    omega
  rw [hsum]
  exact ⟨Nat.mul_div_cancel_left _ hP, Nat.mul_mod_right ..⟩

/-- A piece that ends before is followed by the rest of the page. -/
theorem same_page {x : ℕ} (h : x % P + n < P) :
    (x + n) / P = x / P ∧ (x + n) % P = x % P + n := ⟨add_div_of_lt h, add_mod_of_lt h⟩

/-- A range of a buffer that does not go over the end of the page that it starts in. -/
theorem take_drop_bytes (hP : 0 < P) (hpage : pages[(off + k) / P]? = some page)
    (hn : (off + k) % P + n ≤ P) (hk : k + n ≤ len) :
    ((bytes P off len pages).drop k).take n = Piece.bytes ⟨page, (off + k) % P, n⟩ := by
  refine List.ext_getElem? fun j => ?_
  rw [Piece.bytes, List.getElem?_map]
  rcases Nat.lt_or_ge j n with hj | hj
  · have hlt : (off + k) % P + j < P := by omega
    rw [List.getElem?_take_of_lt hj, List.getElem?_drop, getElem?_bytes hP (by omega),
      ← Nat.add_assoc, add_div_of_lt hlt, add_mod_of_lt hlt, hpage, List.getElem?_range' hj,
      Nat.one_mul]
    rfl
  · rw [List.getElem?_eq_none (by rw [List.length_take]; omega),
      List.getElem?_eq_none (by rw [List.length_range']; exact hj)]
    rfl

/-! ## Buffers that end behind their pages -/

variable {pos : ℕ → ℕ}

/-- Where the bytes of a buffer are, if they are in a page of the array; `pos k` is the offset of the
byte `k` in the pages. -/
def places (P : ℕ) (pos : ℕ → ℕ) (len : ℕ) (pages : List π) : List (Option (π × ℕ)) :=
  (List.range len).map fun k => pages[pos k / P]?.map fun page => (page, pos k % P)

@[simp] theorem length_places (P : ℕ) (pos : ℕ → ℕ) (len : ℕ) (pages : List π) :
    (places P pos len pages).length = len := by
  rw [places, List.length_map, List.length_range]

theorem getElem?_places (hk : k < len) :
    (places P pos len pages)[k]? =
      some (pages[pos k / P]?.map fun page => (page, pos k % P)) := by
  rw [places, List.getElem?_map, List.getElem?_range hk, Option.map_some]

/-- A byte has no place if its page is behind the end of the array. -/
theorem getElem?_places_eq_none_iff (hk : k < len) :
    (places P pos len pages)[k]? = some none ↔ pages.length ≤ pos k / P := by
  rw [getElem?_places hk, Option.some.injEq, Option.map_eq_none_iff, List.getElem?_eq_none_iff]

/-- Where each of some bytes has its place, these are the places. -/
theorem map_some_reduceOption {α : Type*} {l : List (Option α)} (h : none ∉ l) :
    l.reduceOption.map some = l := by
  induction l with
  | nil => rfl
  | cons x l ih =>
      obtain ⟨hx, hl⟩ := not_or.1 (mt List.mem_cons.2 h)
      obtain ⟨a, rfl⟩ := Option.ne_none_iff_exists'.1 (Ne.symm hx)
      rw [List.reduceOption_cons_of_some, List.map_cons, ih hl]

theorem length_reduceOption {α : Type*} {l : List (Option α)} (h : none ∉ l) :
    l.reduceOption.length = l.length := by
  rw [← List.length_map some, map_some_reduceOption h]

/-- If there is a page for each byte, each has its place. -/
theorem none_notMem_places (h : ∀ k < len, pos k < pages.length * P) :
    none ∉ places P pos len pages := by
  intro hnone
  obtain ⟨k, hk⟩ := List.mem_iff_getElem?.1 hnone
  have hlt : k < len := by
    have hlt := (List.getElem?_eq_some_iff.1 hk).1
    rwa [length_places] at hlt
  have hbehind := (getElem?_places_eq_none_iff hlt).1 hk
  exact absurd (Nat.div_lt_of_lt_mul (by rw [Nat.mul_comm]; exact h k hlt)) (Nat.not_lt.2 hbehind)

/-- A range of a buffer that does not go over the end of the page that it starts in. -/
theorem take_drop_places (hpage : pages[pos k / P]? = some page) (hn : pos k % P + n ≤ P)
    (hpos : ∀ j < n, pos (k + j) = pos k + j) (hk : k + n ≤ len) :
    ((places P pos len pages).drop k).take n = (Piece.bytes ⟨page, pos k % P, n⟩).map some := by
  refine List.ext_getElem? fun j => ?_
  rw [List.getElem?_map, Piece.bytes, List.getElem?_map]
  rcases Nat.lt_or_ge j n with hj | hj
  · have hlt : pos k % P + j < P := by omega
    rw [List.getElem?_take_of_lt hj, List.getElem?_drop, getElem?_places (by omega), hpos j hj,
      add_div_of_lt hlt, add_mod_of_lt hlt, hpage, List.getElem?_range' hj, Nat.one_mul]
    rfl
  · rw [List.getElem?_eq_none (by rw [List.length_take]; omega),
      List.getElem?_eq_none (by rw [List.length_range']; exact hj)]
    rfl

end Xen2mx.Pages
