/-
# `Xen2mx.Grants.Mediumva` — a message whose pages the backend reads

The frontend pins the pages of a medium message, grants each of them to the backend and sends the
references along.  When the backend has answered it ends the grants and gives back what it took.

    buffers      usegs, pages, grefs
    references   allocated all at once; claimed one by one for the pages
    grants       one for each page, with a reference that was claimed

All errors jump to the end of the function, behind everything that gives something back.

The number of pages is that of the length, rounded up, and one more if the message goes over the
end of its first page.  This is one too many if the bytes behind the last full page fit in what the
offset leaves of a page.  Before it is used, the address is put in a word of 32 bits.  So is the
length of the segment before it is compared with that of the message.

**Proved here.**

    the pages asked for are those of the message and fit in the request
        ⟺  the address and the length are so                          (`exact_iff`)
    and everything taken is given back
        ⟺  nothing was taken, or the message is empty and gets through (`xenSendMediumva_iff`)
-/
import Xen2mx.Lib.Ledger
import Xen2mx.Medium.Vector
import Xen2mx.Xenreg.Segment

namespace Xen2mx.Grants

open Word Medium
open Region (UserSegment)
open Xenreg (pageSize)

/-! ## Effects -/

/-- The buffers of `omx_ioctl_xen_send_mediumva`. -/
inductive Buffer where
  | usegs | pages | grefs
  deriving DecidableEq, Repr

/-- What it can hold.  A page is given by its number in the memory of the process. -/
inductive Lease where
  | buffer (b : Buffer)
  | pin (page : ℕ)
  | reference (gref : ℕ)
  | grant (gref page : ℕ)
  deriving DecidableEq, Repr

inductive Effect where
  | kmalloc (b : Buffer)
  | kfree (b : Buffer)
  /-- `get_user_pages_fast`, for so many pages from this one on -/
  | getUserPages (page n : ℕ)
  | pin (page : ℕ)
  | putPage (page : ℕ)
  /-- a reference leaves the pool with `gnttab_alloc_grant_references` -/
  | allocReference (gref : ℕ)
  /-- and comes back with `gnttab_free_grant_references` -/
  | freeReference (gref : ℕ)
  | grantForeignAccess (gref page : ℕ)
  | endForeignAccess (gref page : ℕ)
  /-- `omx_poke_dom0`, with the references in the request and the pages behind them -/
  | poke (grefs pages : List ℕ)
  /-- a null pointer, or one behind an array: nothing happens after it -/
  | fault
  deriving DecidableEq, Repr

abbrev Trace := List Effect

def Effect.entry : Effect → Ledger.Entry Lease
  | .kmalloc b => .take (.buffer b)
  | .kfree b => .give (.buffer b)
  | .pin page => .take (.pin page)
  | .putPage page => .give (.pin page)
  | .allocReference gref => .take (.reference gref)
  | .freeReference gref => .give (.reference gref)
  | .grantForeignAccess gref page => .take (.grant gref page)
  | .endForeignAccess gref page => .give (.grant gref page)
  | .fault => .stop
  | .getUserPages _ _ | .poke _ _ => .plain

/-- What a function does, and what it returns. -/
abbrev Outcome := Trace × ℤ

/-- Effects before those of the rest. -/
def after (es : Trace) (rest : Outcome) : Outcome := (es ++ rest.1, rest.2)

def efault : ℤ := 14
def einval : ℤ := 22
def enomem : ℤ := 12
def enospc : ℤ := 28

/-! ## The ioctl -/

/-- What the allocators, the process and the backend do for a command. -/
structure MediumvaEnv where
  cmdRead : Bool
  usegsMemory : Bool
  usegsRead : Bool
  pagesMemory : Bool
  /-- how many pages are pinned, of those asked for -/
  pinned : Option ℕ
  /-- the references allocated, in the order in which they are claimed -/
  references : Option (ℕ → ℕ)
  grefsMemory : Bool
  /-- the wait for the response comes to an end -/
  answered : Bool
  /-- the response says that it is done -/
  done : Bool
  /-- the grant of the page `i` can be ended -/
  ended : ℕ → Bool

/-- `nr_pages`, a `uint8_t`, of a message of this length. -/
def nrPages (length : ℕ) (useg : UserSegment) : ℕ :=
  let offset := useg.vaddr % pageSize
  let nrPages := wrap 8 ((length + pageSize - 1) / pageSize)
  if pageSize < wrap 64 (offset + useg.len) then wrap 8 (nrPages + 1) else nrPages

/-- The page at `aligned_vaddr`, a `uint32_t`. -/
def firstPage (useg : UserSegment) : ℕ :=
  wrap 32 (useg.vaddr / pageSize * pageSize) / pageSize

/-- `kmalloc` of an array of `n` entries, of which there is nothing to free if there are none. -/
def kmallocArray (b : Buffer) (n : ℕ) : Trace := if n = 0 then [] else [.kmalloc b]

def kfreeArray (b : Buffer) (n : ℕ) : Trace := if n = 0 then [] else [.kfree b]

section
variable (e : MediumvaEnv) (grefs : ℕ → ℕ) (page nr : ℕ)

/-- The loop that ends the grants, from the page `i` on, and what comes after it. -/
def ungrantPages : (n i : ℕ) → (ret : ℤ) → Outcome
  | 0, _, ret =>
      ((List.range nr).map (fun i => .freeReference (grefs i)) ++ kfreeArray .pages nr ++
        [.kfree .usegs], ret)
  | n + 1, i, _ =>
      if e.ended i then
        after [.endForeignAccess (grefs i) (page + i), .putPage (page + i)]
          (ungrantPages n (i + 1) 1)
      else ([], -einval)

/-- The request is sent, and the response waited for. -/
def pokeDom0 : Outcome :=
  after [.poke ((List.range nr).map grefs) ((List.range nr).map fun i => page + i)]
    (if e.answered then ungrantPages e grefs page nr nr 0 (if e.done then 0 else -efault)
    else ([], -einval))

/-- The loop that grants the pages, from the page `i` on.  Of the memory for `grefs` nobody looks
whether it is there. -/
def grantPages : (n i : ℕ) → Outcome
  | 0, _ => pokeDom0 e grefs page nr
  | n + 1, i =>
      if grefs i = 0 then ([], -einval)
      else
        after [.grantForeignAccess (grefs i) (page + i)]
          (if e.grefsMemory then grantPages n (i + 1) else ([.fault], 0))

/-- The references are allocated. -/
def allocReferences : Outcome :=
  match e.references with
  | none => ([], -enospc)
  | some grefs =>
      after ((List.range nr).map fun i => .allocReference (grefs i))
        (after (if e.grefsMemory then kmallocArray .grefs nr else [])
          (grantPages e grefs page nr nr 0))

/-- The pages are pinned. -/
def pinPages : Outcome :=
  if nr = 0 ∨ e.pagesMemory then
    after (kmallocArray .pages nr ++ [.getUserPages page nr])
      (match e.pinned with
      | none => ([], -enomem)
      | some m =>
          after ((List.range (min m nr)).map fun i => .pin (page + i))
            (if nr ≤ m then allocReferences e page nr else ([], -enomem)))
  else ([], -enomem)

end

/-- `omx_ioctl_xen_send_mediumva`; `compat` says whether the packets are those of MX. -/
def xenSendMediumva (compat : Bool) (e : MediumvaEnv) (cmd : CmdSendMediumva) : Outcome :=
  if e.cmdRead then
    if compat = true ∧ mxMediumMsgLengthMax < cmd.length then ([], -einval)
    else
      match cmd.segments with
      -- the first of no segments is read
      | [] => ([.fault], 0)
      | [useg] =>
          if e.usegsMemory then
            after [.kmalloc .usegs]
              (if e.usegsRead then
                if wrap 32 useg.len ≠ cmd.length then ([], -einval)
                else pinPages e (firstPage useg) (nrPages cmd.length useg)
              else ([], -efault))
          else ([], -enomem)
      | _ => ([], -einval)
  else ([], -efault)

/-! ## The pages of a message -/

/-- These are the pages that the bytes of a segment lie in, each of them once. -/
def Spans (useg : UserSegment) (pages : List ℕ) : Prop :=
  pages.Nodup ∧ ∀ p, p ∈ pages ↔ ∃ a, useg.vaddr ≤ a ∧ a < useg.vaddr + useg.len ∧ a / pageSize = p

/-- `grefs` of `struct omx_cmd_xen_send_mediumva`. -/
def mediumvaGrefs : ℕ := 9

/-- The pages asked for, and those granted in the request, are those of the segment, and there is
room for their references. -/
def Effect.ExactFor (useg : UserSegment) : Effect → Prop
  | .getUserPages page n => Spans useg (List.range' page n) ∧ n ≤ mediumvaGrefs
  | .poke _ pages => Spans useg pages ∧ pages.length ≤ mediumvaGrefs
  | _ => True

/-- The address fits in 32 bits, the message in nine pages, and the bytes behind its last full page
go over the end of a page, if the message does. -/
def Fits (useg : UserSegment) : Prop :=
  useg.len = 0 ∨ useg.vaddr < 2 ^ 32 ∧ useg.vaddr % pageSize + useg.len ≤ mediumvaGrefs * pageSize ∧
    (useg.vaddr % pageSize + useg.len ≤ pageSize ∨
      pageSize ≤ useg.vaddr % pageSize + (useg.len - 1) % pageSize)

variable {useg : UserSegment}

theorem spans_range'_iff {p n : ℕ} : Spans useg (List.range' p n) ↔
    if useg.len = 0 then n = 0
    else p = useg.vaddr / pageSize ∧ p + n = (useg.vaddr + useg.len - 1) / pageSize + 1 := by
  have hnodup : (List.range' p n).Nodup := List.nodup_range' ..
  rw [Spans, and_iff_right hnodup]
  simp only [List.mem_range'_1]
  split
  · rename_i hzero
    constructor
    · intro h
      by_contra hn
      obtain ⟨a, hlo, hhi, -⟩ := (h p).1 ⟨le_rfl, by omega⟩
      omega
    · rintro rfl q
      exact iff_of_false (fun h => by omega) fun ⟨a, hlo, hhi, _⟩ => by omega
  · rename_i hlen
    have hmono : ∀ {a b : ℕ}, a ≤ b → a / pageSize ≤ b / pageSize := fun h => Nat.div_le_div_right h
    constructor
    · intro h
      have hfirst := (h (useg.vaddr / pageSize)).2 ⟨useg.vaddr, le_rfl, by omega, rfl⟩
      have hlast := (h ((useg.vaddr + useg.len - 1) / pageSize)).2
        ⟨useg.vaddr + useg.len - 1, by omega, by omega, rfl⟩
      obtain ⟨a, hlo, hhi, ha⟩ := (h p).1 ⟨le_rfl, by omega⟩
      obtain ⟨b, hlo', hhi', hb⟩ := (h (p + n - 1)).1 ⟨by omega, by omega⟩
      have h₁ := hmono hlo
      have h₂ : b / pageSize ≤ (useg.vaddr + useg.len - 1) / pageSize := hmono (by omega)
      omega
    · rintro ⟨rfl, hn⟩ q
      rw [hn, Nat.lt_succ_iff]
      constructor
      · rintro ⟨hlo, hhi⟩
        -- the start of the page, or that of the segment
        refine ⟨max useg.vaddr (q * pageSize), le_max_left _ _, ?_, ?_⟩
        · have hq : q * pageSize ≤ useg.vaddr + useg.len - 1 :=
            (Nat.mul_le_mul_right _ hhi).trans (Nat.div_mul_le_self _ _)
          omega
        · rcases Nat.le_total useg.vaddr (q * pageSize) with hle | hle
          · rw [max_eq_right hle, Nat.mul_div_cancel _ (by decide)]
          · rw [max_eq_left hle]
            refine Nat.le_antisymm hlo ?_
            rw [← Nat.mul_div_cancel q (show 0 < pageSize by decide)]
            exact hmono hle
      · rintro ⟨a, hlo, hhi, rfl⟩
        exact ⟨hmono hlo, hmono (by omega)⟩

theorem nrPages_lt (length : ℕ) (useg : UserSegment) : nrPages length useg < 2 ^ 8 := by
  unfold nrPages
  dsimp only
  split
  · exact wrap_lt _ _
  · exact wrap_lt _ _

/-- The pages asked for are those of the message, and not too many. -/
theorem pages_iff {length : ℕ} (hlen : wrap 32 useg.len = length) :
    Spans useg (List.range' (firstPage useg) (nrPages length useg)) ∧
      nrPages length useg ≤ mediumvaGrefs ↔ Fits useg := by
  rw [spans_range'_iff, Fits]
  rcases Nat.lt_or_ge useg.len (2 ^ 32) with hlt | hge
  · rw [wrap_of_lt hlt] at hlen
    subst hlen
    unfold nrPages firstPage mediumvaGrefs wrap pageSize
    dsimp only
    split
    · split <;> omega
    · split <;> omega
  · -- a byte cannot count that many pages
    have hpages := nrPages_lt length useg
    unfold mediumvaGrefs pageSize
    rw [if_neg (by omega)]
    refine iff_of_false (fun h => ?_) (by omega)
    obtain ⟨⟨hfirst, hlast⟩, -⟩ := h
    omega

/-! ## What is in the traces -/

variable {e : MediumvaEnv} {grefs : ℕ → ℕ} {page nr : ℕ} {eff : Effect}

theorem mem_after {es : Trace} {rest : Outcome} :
    eff ∈ (after es rest).1 ↔ eff ∈ es ∨ eff ∈ rest.1 := List.mem_append

theorem map_add_range (page nr : ℕ) : (List.range nr).map (fun i => page + i) = List.range' page nr := by
  rw [List.range_eq_range', List.map_add_range', Nat.add_zero]

theorem of_mem_ungrantPages (useg : UserSegment) {n i : ℕ} {ret : ℤ}
    (h : eff ∈ (ungrantPages e grefs page nr n i ret).1) :
    eff ≠ .kfree .grefs ∧ eff.ExactFor useg := by
  induction n generalizing i ret with
  | zero =>
      simp only [ungrantPages, kfreeArray, List.mem_append, List.mem_map, List.mem_singleton] at h
      rcases h with (⟨j, -, rfl⟩ | h) | rfl
      · exact ⟨nofun, trivial⟩
      · split at h
        · cases h
        · obtain rfl := List.mem_singleton.1 h
          exact ⟨nofun, trivial⟩
      · exact ⟨nofun, trivial⟩
  | succ n ih =>
      rw [ungrantPages] at h
      split at h
      · rcases mem_after.1 h with h | h
        · simp only [List.mem_cons, List.not_mem_nil, or_false] at h
          rcases h with rfl | rfl
          · exact ⟨nofun, trivial⟩
          · exact ⟨nofun, trivial⟩
        · exact ih h
      · cases h

theorem of_mem_grantPages (useg : UserSegment) {n i : ℕ}
    (h : eff ∈ (grantPages e grefs page nr n i).1) :
    eff ≠ .kfree .grefs ∧
      (eff = .kfree .usegs → e.answered = true ∧ (n = 0 ∨ e.grefsMemory = true)) ∧
      (Spans useg (List.range' page nr) ∧ nr ≤ mediumvaGrefs → eff.ExactFor useg) := by
  induction n generalizing i with
  | zero =>
      rcases mem_after.1 h with h | h
      · obtain rfl := List.mem_singleton.1 h
        refine ⟨nofun, nofun, fun hspans => ?_⟩
        rw [Effect.ExactFor, map_add_range, List.length_range']
        exact hspans
      · split at h
        · rename_i hanswered
          obtain ⟨hne, hexact⟩ := of_mem_ungrantPages useg h
          exact ⟨hne, fun _ => ⟨hanswered, .inl rfl⟩, fun _ => hexact⟩
        · cases h
  | succ n ih =>
      rw [grantPages] at h
      split at h
      · cases h
      · rcases mem_after.1 h with h | h
        · obtain rfl := List.mem_singleton.1 h
          exact ⟨nofun, nofun, fun _ => trivial⟩
        · split at h
          · rename_i hmemory
            obtain ⟨hne, husegs, hexact⟩ := ih h
            exact ⟨hne, fun heq => ⟨(husegs heq).1, .inr hmemory⟩, hexact⟩
          · obtain rfl := List.mem_singleton.1 h
            exact ⟨nofun, nofun, fun _ => trivial⟩

theorem of_mem_allocReferences (useg : UserSegment) (h : eff ∈ (allocReferences e page nr).1) :
    eff ≠ .kfree .grefs ∧
      (eff = .kfree .usegs → e.references.isSome ∧ e.answered = true ∧
        (nr = 0 ∨ .kmalloc .grefs ∈ (allocReferences e page nr).1)) ∧
      (Spans useg (List.range' page nr) ∧ nr ≤ mediumvaGrefs → eff.ExactFor useg) := by
  unfold allocReferences at h ⊢
  cases hgrefs : e.references with
  | none =>
      rw [hgrefs] at h
      cases h
  | some grefs =>
      simp only [hgrefs, mem_after] at h ⊢
      rcases h with h | h | h
      · obtain ⟨j, -, rfl⟩ := List.mem_map.1 h
        exact ⟨nofun, nofun, fun _ => trivial⟩
      · split at h
        · unfold kmallocArray at h
          split at h
          · cases h
          · obtain rfl := List.mem_singleton.1 h
            exact ⟨nofun, nofun, fun _ => trivial⟩
        · cases h
      · obtain ⟨hne, husegs, hexact⟩ := of_mem_grantPages useg h
        refine ⟨hne, fun heq => ⟨rfl, (husegs heq).1, ?_⟩, hexact⟩
        rcases Nat.eq_zero_or_pos nr with hzero | hpos
        · exact .inl hzero
        · have hmemory := (husegs heq).2.resolve_left hpos.ne'
          rw [if_pos hmemory, kmallocArray, if_neg hpos.ne']
          exact .inr (.inr (.inl (List.mem_singleton_self _)))

theorem of_mem_pinPages (useg : UserSegment) (h : eff ∈ (pinPages e page nr).1) :
    eff ≠ .kfree .grefs ∧
      (eff = .kfree .usegs → e.pinned.isSome ∧ e.references.isSome ∧ e.answered = true ∧
        (nr = 0 ∨ .kmalloc .grefs ∈ (pinPages e page nr).1)) ∧
      (Spans useg (List.range' page nr) ∧ nr ≤ mediumvaGrefs → eff.ExactFor useg) := by
  unfold pinPages at h ⊢
  split at h
  · rename_i hmemory
    simp only [if_pos hmemory, mem_after] at h ⊢
    rcases h with h | h
    · rcases List.mem_append.1 h with h | h
      · unfold kmallocArray at h
        split at h
        · cases h
        · obtain rfl := List.mem_singleton.1 h
          exact ⟨by rintro ⟨⟩, by rintro ⟨⟩, fun _ => trivial⟩
      · obtain rfl := List.mem_singleton.1 h
        exact ⟨by rintro ⟨⟩, by rintro ⟨⟩, fun hspans => hspans⟩
    · cases hpinned : e.pinned with
      | none =>
          rw [hpinned] at h
          cases h
      | some m =>
          simp only [hpinned, mem_after] at h ⊢
          rcases h with h | h
          · obtain ⟨j, -, rfl⟩ := List.mem_map.1 h
            exact ⟨by rintro ⟨⟩, by rintro ⟨⟩, fun _ => trivial⟩
          · split at h
            · rename_i hle
              obtain ⟨hne, husegs, hexact⟩ := of_mem_allocReferences useg h
              refine ⟨hne, fun heq => ?_, hexact⟩
              obtain ⟨hreferences, hanswered, hgrefs⟩ := husegs heq
              rw [if_pos hle]
              exact ⟨rfl, hreferences, hanswered, hgrefs.imp_right fun h => .inr (.inr h)⟩
            · cases h
  · cases h

/-! ## Commands -/

/-- The checks are passed, and memory for the segment is there. -/
def Accepted (compat : Bool) (e : MediumvaEnv) (cmd : CmdSendMediumva) : Prop :=
  e.cmdRead = true ∧ ¬ (compat = true ∧ mxMediumMsgLengthMax < cmd.length) ∧ e.usegsMemory = true

/-- The pages are asked for. -/
def Asks (e : MediumvaEnv) (cmd : CmdSendMediumva) (useg : UserSegment) : Prop :=
  e.usegsRead = true ∧ wrap 32 useg.len = cmd.length ∧
    (nrPages cmd.length useg = 0 ∨ e.pagesMemory = true)

/-- The pages that the function asks for and grants are those of the message. -/
def Exact (useg : UserSegment) (es : Trace) : Prop := ∀ eff ∈ es, eff.ExactFor useg

/-- The message is empty, and nothing fails until there is a response. -/
def EmptyThrough (e : MediumvaEnv) (cmd : CmdSendMediumva) (useg : UserSegment) : Prop :=
  e.usegsRead = true ∧ useg.len = 0 ∧ cmd.length = 0 ∧ e.pinned.isSome ∧ e.references.isSome ∧
    e.answered = true

variable {compat : Bool} {cmd : CmdSendMediumva}

/-- A command with one segment, from when its segment is read. -/
theorem xenSendMediumva_of_accepted (h : Accepted compat e cmd) (hseg : cmd.segments = [useg]) :
    xenSendMediumva compat e cmd = after [.kmalloc .usegs]
      (if e.usegsRead then
        if wrap 32 useg.len ≠ cmd.length then ([], -einval)
        else pinPages e (firstPage useg) (nrPages cmd.length useg)
      else ([], -efault)) := by
  obtain ⟨hread, hshort, hmemory⟩ := h
  rw [xenSendMediumva, if_pos hread, if_neg hshort, hseg]
  dsimp only
  rw [if_pos hmemory]

theorem xenSendMediumva_of_not_accepted (h : ¬ Accepted compat e cmd)
    (hseg : cmd.segments = [useg]) : (xenSendMediumva compat e cmd).1 = [] := by
  unfold xenSendMediumva
  rw [hseg]
  split
  · rename_i hread
    split
    · rfl
    · rename_i hshort
      dsimp only
      split
      · rename_i hmemory
        exact absurd ⟨hread, hshort, hmemory⟩ h
      · rfl
  · rfl

theorem exact_iff (hseg : cmd.segments = [useg]) :
    Exact useg (xenSendMediumva compat e cmd).1 ↔
      (Accepted compat e cmd → Asks e cmd useg → Fits useg) := by
  by_cases haccepted : Accepted compat e cmd
  · rw [xenSendMediumva_of_accepted haccepted hseg, imp_iff_right haccepted]
    have hkmalloc : Effect.ExactFor useg (.kmalloc .usegs) := trivial
    constructor
    · rintro h ⟨hread, heq, hmemory⟩
      rw [if_pos hread, if_neg (not_not.2 heq)] at h
      refine (pages_iff heq).1 (h (.getUserPages (firstPage useg) (nrPages cmd.length useg)) ?_)
      rw [mem_after, pinPages, if_pos hmemory]
      exact .inr (mem_after.2 (.inl (List.mem_append_right _ (List.mem_singleton_self _))))
    · intro hfits eff heff
      rcases mem_after.1 heff with heff | heff
      · obtain rfl := List.mem_singleton.1 heff
        trivial
      · split at heff
        · rename_i hread
          split at heff
          · cases heff
          · rename_i heq
            rw [not_not] at heq
            refine (of_mem_pinPages useg heff).2.2 ((pages_iff heq).2 (hfits ⟨hread, heq, ?_⟩))
            by_contra hmemory
            rw [pinPages, if_neg hmemory] at heff
            cases heff
        · cases heff
  · rw [xenSendMediumva_of_not_accepted haccepted hseg]
    exact iff_of_true nofun fun h => absurd h haccepted

/-- An empty message that gets through. -/
theorem pinPages_zero (hpinned : e.pinned.isSome) (hreferences : e.references.isSome)
    (hanswered : e.answered = true) :
    (pinPages e page 0).1 = [.getUserPages page 0, .poke [] [], .kfree .usegs] := by
  obtain ⟨m, hm⟩ := Option.isSome_iff_exists.1 hpinned
  obtain ⟨grefs, hgrefs⟩ := Option.isSome_iff_exists.1 hreferences
  simp [pinPages, allocReferences, grantPages, pokeDom0, ungrantPages, kmallocArray, kfreeArray,
    after, hm, hgrefs, hanswered]

theorem nrPages_of_len_eq_zero (h : useg.len = 0) : nrPages 0 useg = 0 := by
  have hlt : useg.vaddr % pageSize < pageSize := Nat.mod_lt _ (by decide)
  rw [nrPages, h, if_neg]
  · rfl
  · rw [Nat.add_zero, wrap_of_lt (hlt.trans (by decide))]
    exact hlt.not_gt

/-- The pages that a command with one segment asks for and grants are those of the message exactly
when this fits, if it gets so far; and besides everything is given back exactly when nothing was
taken, or the message is empty and gets through. -/
theorem xenSendMediumva_iff (compat : Bool) (e : MediumvaEnv) (cmd : CmdSendMediumva)
    (useg : UserSegment) (hseg : cmd.segments = [useg]) :
    (Exact useg (xenSendMediumva compat e cmd).1 ↔
      (Accepted compat e cmd → Asks e cmd useg → Fits useg)) ∧
    (Exact useg (xenSendMediumva compat e cmd).1 ∧
        Ledger.Settles Effect.entry [] (xenSendMediumva compat e cmd).1 ↔
      ¬ Accepted compat e cmd ∨ EmptyThrough e cmd useg) := by
  refine ⟨exact_iff hseg, ?_⟩
  rw [exact_iff hseg]
  by_cases haccepted : Accepted compat e cmd
  · rw [imp_iff_right haccepted, or_iff_right (not_not.2 haccepted),
      xenSendMediumva_of_accepted haccepted hseg]
    constructor
    · rintro ⟨hfits, hsettles⟩
      -- what is allocated for the segment is freed at the end only
      obtain ⟨eff, heff, hgive⟩ := hsettles.exists_give (e := .kmalloc .usegs)
        (mem_after.2 (.inl (List.mem_singleton_self _))) rfl
      obtain rfl : eff = .kfree .usegs := by
        cases eff <;> cases hgive
        rfl
      rcases mem_after.1 heff with heff | heff
      · cases List.mem_singleton.1 heff
      split at heff
      · rename_i hread
        split at heff
        · cases heff
        · rename_i heq
          rw [not_not] at heq
          obtain ⟨-, husegs, -⟩ := of_mem_pinPages useg heff
          obtain ⟨hpinned, hreferences, hanswered, hgrefs⟩ := husegs rfl
          -- and `grefs` is never freed
          have hzero : nrPages cmd.length useg = 0 := by
            refine hgrefs.resolve_right fun hmem => ?_
            rw [if_pos hread, if_neg (not_not.2 heq)] at hsettles
            obtain ⟨eff', heff', hgive'⟩ := hsettles.exists_give
              (mem_after.2 (.inr hmem)) rfl
            obtain rfl : eff' = .kfree .grefs := by
              cases eff' <;> cases hgive'
              rfl
            rcases mem_after.1 heff' with heff' | heff'
            · cases List.mem_singleton.1 heff'
            · exact (of_mem_pinPages useg heff').1 rfl
          obtain ⟨hspans, -⟩ := (pages_iff heq).2 (hfits ⟨hread, heq, .inl hzero⟩)
          rw [hzero, spans_range'_iff] at hspans
          have hempty : useg.len = 0 := by
            by_contra hne
            rw [if_neg hne] at hspans
            have hle : useg.vaddr / pageSize ≤ (useg.vaddr + useg.len - 1) / pageSize :=
              Nat.div_le_div_right (by omega)
            omega
          rw [hempty] at heq
          exact ⟨hread, hempty, heq.symm, hpinned, hreferences, hanswered⟩
      · cases heff
    · rintro ⟨hread, hempty, hlength, hpinned, hreferences, hanswered⟩
      refine ⟨fun _ => .inl hempty, ?_⟩
      rw [if_pos hread, hempty, hlength, if_neg (not_not.2 (wrap_of_lt (by decide))),
        nrPages_of_len_eq_zero hempty]
      show Ledger.Settles Effect.entry [] (.kmalloc .usegs :: (pinPages e _ 0).1)
      rw [pinPages_zero hpinned hreferences hanswered]
      rfl
  · rw [xenSendMediumva_of_not_accepted haccepted hseg]
    exact iff_of_true ⟨fun h => absurd h haccepted, rfl⟩ (.inl haccepted)

/-- A command with this segment. -/
def oneSegment (useg : UserSegment) : CmdSendMediumva where
  peerIndex := 1
  destEndpoint := 2
  shared := false
  sessionId := 17
  seqnum := 16385
  piggyack := 16386
  length := useg.len
  checksum := 0
  segments := [useg]
  matchInfo := 5

/-- Nothing fails. -/
def nothingFails : MediumvaEnv where
  cmdRead := true
  usegsMemory := true
  usegsRead := true
  pagesMemory := true
  pinned := some 256
  references := some fun i => i + 8
  grefsMemory := true
  answered := true
  done := true
  ended := fun _ => true

/-- An empty message, in the middle of a page. -/
theorem xenSendMediumva_iff_empty :
    Exact ⟨5000, 0⟩ (xenSendMediumva false nothingFails (oneSegment ⟨5000, 0⟩)).1 ∧
      Ledger.Settles Effect.entry [] (xenSendMediumva false nothingFails (oneSegment ⟨5000, 0⟩)).1 :=
  (xenSendMediumva_iff false nothingFails (oneSegment ⟨5000, 0⟩) ⟨5000, 0⟩ rfl).2.2
    (.inr ⟨rfl, rfl, rfl, rfl, rfl, rfl⟩)

/-- Two whole pages: a third is asked for, and the references stay where they were put. -/
theorem xenSendMediumva_twoPages :
    .getUserPages 1 3 ∈ (xenSendMediumva false nothingFails (oneSegment ⟨4096, 8192⟩)).1 ∧
      ¬ Exact ⟨4096, 8192⟩ (xenSendMediumva false nothingFails (oneSegment ⟨4096, 8192⟩)).1 ∧
      ¬ Ledger.Settles Effect.entry []
        (xenSendMediumva false nothingFails (oneSegment ⟨4096, 8192⟩)).1 := by
  refine ⟨by decide, fun hexact => ?_, by decide⟩
  have hfits := (exact_iff rfl).1 hexact ⟨rfl, nofun, rfl⟩ ⟨rfl, rfl, .inr rfl⟩
  rcases hfits with hzero | ⟨-, -, hwithin | hover⟩
  · exact absurd hzero (by decide)
  · exact absurd hwithin (by decide)
  · exact absurd hover (by decide)

end Xen2mx.Grants
