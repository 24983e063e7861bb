/-
# `Xen2mx.Xenfront.Pairing` — each call gets the response to its own request

The status of a request is found under its id; the data of an answer is found in
a field that all calls of the same kind share.  So beside taking turns at the
ring and writing over no slot in use, calls need the handler to leave a field alone
while the answer in it has not been copied (`AnswersAlone`).

**Proved here.**

    calls take turns, keep to their slots and copy answers in time
        ⟹  every call has its own slot and id, and returns the status and the data of the
            response to its request               (`calls_paired`)
    two lookups that overlap do not               (`calls_not_paired`)
-/
import Xen2mx.Xenfront.Contents

namespace Xen2mx.Xenfront

open Xenback (Func RingSize)

variable {ι D : Type*} [DecidableEq ι] (n : RingSize) (calls : ι → Call D)

/-! ## The condition -/

/-- The call has asked, or is about to, and has not copied its answer. -/
def Pc.awaits : Pc D → Bool
  | .load | .store _ | .mark _ | .identify _ | .header _ _ | .fill _ _ _ | .poke _ _ | .wait _ _
  | .read _ _ _ none => true
  | _ => false

/-- The field of the call may not change: its answer is there, or, for a query about an
endpoint, writing the field also ends its polling. -/
def Exposed (sh : Shared D) (call : Call D) (pc : Pc D) : Prop :=
  pc.awaits = true ∧ (call.ioctl = .getEndpointInfo ∨ ∃ i ∈ pc.live, i < sh.rspCons)

/-- The handler writes no field that another call still has to copy its answer from. -/
def AnswersAlone (s : State ι D) : Act ι D → Prop
  | .interrupt => ∀ f ∈ answeredField s.fe (s.slot n s.rspCons),
      ∀ c, s.rspCons ∉ (s.pc c).idx → f ∈ (calls c).field →
        ¬ Exposed s.toShared (calls c) (s.pc c)
  | _ => True

def PairingOk (s : State ι D) (a : Act ι D) : Prop :=
  TakesTurns n s a ∧ KeepsToSlots n calls s a ∧ AnswersAlone n calls s a

section
variable [Fintype ι]

instance (sh : Shared D) (call : Call D) (pc : Pc D) : Decidable (Exposed sh call pc) :=
  inferInstanceAs (Decidable (_ ∧ (_ ∨ ∃ i ∈ pc.live, i < sh.rspCons)))

instance AnswersAlone.decidable (s : State ι D) : ∀ a : Act ι D, Decidable (AnswersAlone n calls s a)
  | .interrupt => inferInstanceAs (Decidable (∀ f ∈ answeredField s.fe (s.slot n s.rspCons),
      ∀ c, s.rspCons ∉ (s.pc c).idx → f ∈ (calls c).field →
        ¬ Exposed s.toShared (calls c) (s.pc c)))
  | .call _ _ | .fail _ _ | .timeout _ | .readData _ | .answer _ _ | .pushResponses
  | .setEndpoint _ _ | .setUserRegion _ _ _ => isTrue trivial

instance PairingOk.decidable (s : State ι D) (a : Act ι D) : Decidable (PairingOk n calls s a) :=
  inferInstanceAs (Decidable (_ ∧ _ ∧ AnswersAlone n calls s a))

end

/-! ## The statement -/

/-- The response to the request of index `i`, once handled; with the request. -/
def HandledAt (sh : Shared D) (i : ℕ) (e : Response D × Response D) : Prop :=
  i < sh.rspCons ∧ sh.log[i]? = some e

/-- What holds of the calls at any moment. -/
structure Paired (s : State ι D) : Prop where
  /-- No two calls have the same index. -/
  own_index : ∀ c c' i, i ∈ (s.pc c).idx → i ∈ (s.pc c').idx → c = c'
  /-- No two requests without their response handled have the same slot. -/
  own_slot : ∀ c c' i i', i ∈ (s.pc c).idx → i' ∈ (s.pc c').idx → s.rspCons ≤ i → s.rspCons ≤ i' →
    i % n.size = i' % n.size → c = c'
  /-- No two calls in progress have the same request id. -/
  own_id : ∀ c c' id, id ∈ (s.pc c).requestId → id ∈ (s.pc c').requestId → c = c'
  /-- A call that returned after it was woken had its request executed, was woken by
  the response to it, and returns the status and, unless it failed, the data of
  that response. -/
  own_response : ∀ c i st data, s.pc c = .returned i st data →
    ∃ e, HandledAt s.toShared i e ∧ IsRequest (calls c) i e.1 ∧ e.2.func = (calls c).ioctl.func ∧
      ((calls c).ioctl ≠ .getEndpointInfo → Leaves e.2 st) ∧
      (accepts e.2.func st = true → data = (calls c).field.map fun _ => e.2.data)

/-! ## What a call can rely on -/

variable {n calls}

section
variable (sh : Shared D) (call : Call D)

/-- A query about an endpoint has marked it. -/
def Starting : Prop := call.ioctl = .getEndpointInfo → sh.fe.infoDoing call.endpoint = true

/-- A call whose request is complete: it is not woken before its response is handled. -/
structure Waiting (i : ℕ) : Prop where
  info : call.ioctl = .getEndpointInfo → sh.fe.infoDoing call.endpoint = true ∨
    ∃ e, HandledAt sh i e ∧ sh.fe.results (.endpointInfo call.endpoint) = e.2.data
  status : call.ioctl ≠ .getEndpointInfo →
    sh.fe.requests (i % omxMaxInflightRequests) = busy call.ioctl.func ∨
    ∃ e, HandledAt sh i e ∧ Leaves e.2 (sh.fe.requests (i % omxMaxInflightRequests)) ∧
      ∀ f ∈ call.field, e.2.wrote = true → sh.fe.results f = e.2.data

/-- A call that was woken, and has read `st` and `data` so far. -/
structure Reading (i : ℕ) (st : Option Status) (data : Option D) (e : Response D × Response D) :
    Prop where
  handled : HandledAt sh i e
  status : call.ioctl ≠ .getEndpointInfo →
    Leaves e.2 (st.getD (sh.fe.requests (i % omxMaxInflightRequests)))
  answer : ∀ f ∈ call.field, call.ioctl = .getEndpointInfo ∨ e.2.wrote = true →
    data.getD (sh.fe.results f) = e.2.data
  no_data : call.field = none → data = none

/-- A call that has returned. -/
structure Returned (i : ℕ) (st : Status) (data : Option D) (e : Response D × Response D) :
    Prop where
  handled : HandledAt sh i e
  status : call.ioctl ≠ .getEndpointInfo → Leaves e.2 st
  answer : call.ioctl = .getEndpointInfo ∨ e.2.wrote = true →
    data = call.field.map fun _ => e.2.data

/-- What holds of a call, by where it is. -/
def CallInv : Pc D → Prop
  | .load | .store _ | .mark _ => Starting sh call
  | .identify i | .header i _ =>
      Starting sh call ∧ sh.fe.requests (i % omxMaxInflightRequests) = .doing
  | .fill i _ _ =>
      Starting sh call ∧ sh.fe.requests (i % omxMaxInflightRequests) = busy call.ioctl.func
  | .poke i _ | .wait i _ => Waiting sh call i
  | .read i _ st data => ∃ e, Reading sh call i st data e
  | .returned i st data => ∃ e, Returned sh call i st data e
  | .check _ | .failed _ | .timedOut _ => True

end

theorem HandledAt.mono {sh sh' : Shared D} {i : ℕ} {e : Response D × Response D}
    (h : HandledAt sh i e) (hcons : sh.rspCons ≤ sh'.rspCons)
    (hlog : ∀ e, sh.log[i]? = some e → sh'.log[i]? = some e) : HandledAt sh' i e :=
  ⟨Nat.lt_of_lt_of_le h.1 hcons, hlog e h.2⟩

/-- What a call relies on is kept by steps that leave its status, its mark and, where it is
exposed, its field alone. -/
theorem CallInv.frame {sh sh' : Shared D} {call : Call D} {pc : Pc D} (h : CallInv sh call pc)
    (hcons : sh.rspCons ≤ sh'.rspCons) (hlog : ∀ (i : ℕ) e, sh.log[i]? = some e → sh'.log[i]? = some e)
    (hreq : ∀ i ∈ pc.live, sh'.fe.requests (i % omxMaxInflightRequests) =
      sh.fe.requests (i % omxMaxInflightRequests))
    (hinfo : call.ioctl = .getEndpointInfo → pc.awaits = true →
      sh.fe.infoDoing call.endpoint = true → sh'.fe.infoDoing call.endpoint = true)
    (hres : Exposed sh call pc → ∀ f ∈ call.field, sh'.fe.results f = sh.fe.results f) :
    CallInv sh' call pc := by
  cases pc with
  | load | store i | mark i => exact fun hc => hinfo hc rfl (h hc)
  | identify i | header i id | fill i id k =>
      exact ⟨fun hc => hinfo hc rfl (h.1 hc), (hreq i rfl).trans h.2⟩
  | poke i id | wait i id =>
      refine ⟨fun hc => ?_, fun hc => ?_⟩
      · rcases h.info hc with hdoing | ⟨e, he, hd⟩
        · exact .inl (hinfo hc rfl hdoing)
        · refine .inr ⟨e, he.mono hcons (hlog i), ?_⟩
          rw [hres ⟨rfl, .inl hc⟩ _ (by rw [Call.field, hc]; rfl)]
          exact hd
      · rw [hreq i rfl]
        rcases h.status hc with hbusy | ⟨e, he, hst, hd⟩
        · exact .inl hbusy
        · refine .inr ⟨e, he.mono hcons (hlog i), hst, fun f hf hw => ?_⟩
          rw [hres ⟨rfl, .inr ⟨i, rfl, he.1⟩⟩ f hf]
          exact hd f hf hw
  | read i id st data =>
      obtain ⟨e, he⟩ := h
      refine ⟨e, he.handled.mono hcons (hlog i), fun hc => ?_, fun f hf hw => ?_, he.no_data⟩
      · rw [hreq i rfl]
        exact he.status hc
      · have hold := he.answer f hf hw
        cases data with
        | none =>
            rw [hres ⟨rfl, .inr ⟨i, rfl, he.handled.1⟩⟩ f hf]
            exact hold
        | some d => exact hold
  | returned i st data =>
      obtain ⟨e, he⟩ := h
      exact ⟨e, he.handled.mono hcons (hlog i), he.status, he.answer⟩
  | check k | failed i | timedOut i => trivial

variable (calls) in
/-- Every call can rely on what its place promises. -/
def CallsInv (s : State ι D) : Prop := ∀ c, CallInv s.toShared (calls c) (s.pc c)

/-! ## Steps of a call -/

/-- The frontend is the same. -/
theorem CallsInv.keep {s : State ι D} {c : ι} {sh : Shared D} {pc : Pc D} (h : CallsInv calls s)
    (hfe : sh.fe = s.fe) (hcons : sh.rspCons = s.rspCons) (hlog : sh.log = s.log)
    (hpc : CallInv sh (calls c) pc) : CallsInv calls (s.moved c sh pc) := by
  refine State.moved_forall (P := fun c' pc => CallInv sh (calls c') pc) hpc fun c' _ => ?_
  refine (h c').frame (le_of_eq hcons.symm) (fun i e he => by rw [hlog]; exact he) ?_ ?_ ?_
  · intro i _
    rw [hfe]
  · rw [hfe]
    exact fun _ _ hd => hd
  · rw [hfe]
    exact fun _ _ _ => rfl

/-- The call sets the status of its own request. -/
theorem CallsInv.setRequest {s : State ι D} {c : ι} {sh : Shared D} {pc : Pc D} {i : ℕ}
    {st : Status} (hI : Indexed n s) (h : CallsInv calls s) (hi : i ∈ (s.pc c).live)
    (hfe : sh.fe = s.fe.setRequest (i % omxMaxInflightRequests) st)
    (hcons : sh.rspCons = s.rspCons) (hlog : sh.log = s.log)
    (hpc : CallInv sh (calls c) pc) : CallsInv calls (s.moved c sh pc) := by
  refine State.moved_forall (P := fun c' pc => CallInv sh (calls c') pc) hpc fun c' hc' => ?_
  refine (h c').frame (le_of_eq hcons.symm) (fun i e he => by rw [hlog]; exact he) ?_ ?_ ?_
  · intro j hj
    rw [hfe]
    refine s.fe.setRequest_of_ne st fun hij => hc' ?_
    have hji := hI.ids j i (.inr ⟨c', hj⟩) (.inr ⟨c, hi⟩) hij
    exact hI.idx_inj c' c i (hji ▸ Pc.idx_of_live hj) (Pc.idx_of_live hi)
  · rw [hfe]
    exact fun _ _ hd => hd
  · rw [hfe]
    exact fun _ _ _ => rfl

theorem busy_eq_doing {ioctl : Ioctl} (h : ioctl.setsStatus = false) :
    busy ioctl.func = .doing := by
  cases ioctl with
  | peerLookup cmd => cases cmd <;> rfl
  | openEndpoint | closeEndpoint | createUserRegion | destroyUserRegion => cases h
  | _ => rfl

/-- The call marks the endpoint it asks about. -/
theorem CallsInv.setInfoDoing {s : State ι D} {c : ι} {pc : Pc D} {endpoint : ℕ}
    (h : CallsInv calls s)
    (hpc : CallInv { s.toShared with fe := s.fe.setInfoDoing endpoint true } (calls c) pc) :
    CallsInv calls (s.moved c { s.toShared with fe := s.fe.setInfoDoing endpoint true } pc) := by
  refine State.moved_forall (P := fun c' pc =>
    CallInv { s.toShared with fe := s.fe.setInfoDoing endpoint true } (calls c') pc) hpc
    fun c' _ => (h c').frame le_rfl (fun _ _ he => he) (fun _ _ => rfl) ?_ fun _ _ _ => rfl
  intro _ _ hd
  by_cases he : (calls c').endpoint = endpoint
  · rw [he]
    exact s.fe.setInfoDoing_self endpoint true
  · exact (s.fe.setInfoDoing_of_ne true he).trans hd

/-- A call that is woken finds the response to its request handled. -/
theorem Waiting.woken {sh : Shared D} {call : Call D} {i id : ℕ} (h : Waiting sh call i)
    (hid : id = i % omxMaxInflightRequests) (hp : call.polled sh.fe id = true) :
    ∃ e, Reading sh call i none none e := by
  unfold Call.polled at hp
  by_cases hc : call.ioctl = .getEndpointInfo
  · rw [if_pos hc] at hp
    rcases h.info hc with hdoing | ⟨e, he, hd⟩
    · rw [hdoing] at hp
      cases hp
    · refine ⟨e, he, fun hne => absurd hc hne, fun f hf _ => ?_, fun _ => rfl⟩
      rw [Call.field, hc] at hf
      rw [← Option.mem_some_iff.1 hf]
      exact hd
  · rw [if_neg hc, hid, decide_eq_true_eq] at hp
    rcases h.status hc with hbusy | ⟨e, he, hst, hd⟩
    · exact absurd hbusy hp
    · exact ⟨e, he, fun _ => hst, fun f hf hw => hd f hf (hw.resolve_left hc), fun _ => rfl⟩

theorem Reading.returned {sh : Shared D} {call : Call D} {i : ℕ} {st : Status} {data : Option D}
    {e : Response D × Response D} (h : Reading sh call i (some st) data e)
    (hdata : call.field.isSome → data.isSome) : Returned sh call i st data e := by
  refine ⟨h.handled, h.status, fun hw => ?_⟩
  cases hf : call.field with
  | none => exact h.no_data hf
  | some f =>
      obtain ⟨d, rfl⟩ := Option.isSome_iff_exists.1 (hdata (by rw [hf]; rfl))
      exact congrArg some (h.answer f hf hw)

theorem CallsInv.callCode {s : State ι D} {c : ι} {junk : D} {r : Shared D × Pc D}
    (hI : Indexed n s) (h : CallsInv calls s)
    (hr : Xenfront.callCode n (calls c) junk s.toShared (s.pc c) = some r) :
    CallsInv calls (s.moved c r.1 r.2) := by
  have hc := h c
  have hids := hI.requestId c
  cases hpc : s.pc c with
  | check k =>
      rw [hpc] at hr
      simp only [Xenfront.callCode] at hr
      split at hr
      · cases hr
        exact h.keep rfl rfl rfl trivial
      · split at hr <;> cases hr
        · exact h.setInfoDoing fun _ => s.fe.setInfoDoing_self _ true
        · rename_i hne
          exact h.keep rfl rfl rfl fun hinfo => absurd hinfo hne
  | load =>
      rw [hpc] at hr hc
      cases hr
      exact h.keep rfl rfl rfl hc
  | store i =>
      rw [hpc] at hr hc
      cases hr
      exact h.keep rfl rfl rfl hc
  | mark i =>
      rw [hpc] at hr hc
      cases hr
      have hlast : s.reqProdPvt - 1 = i := by
        rw [← hI.numbering c i (by rw [hpc]; rfl), Nat.add_sub_cancel]
      rw [hlast]
      exact h.setRequest hI (by rw [hpc]; rfl) rfl rfl rfl ⟨hc, s.fe.setRequest_self _ _⟩
  | identify i =>
      rw [hpc] at hr hc
      cases hr
      exact h.keep rfl rfl rfl hc
  | header i id =>
      rw [hpc] at hr hc hids
      obtain ⟨j, hj, rfl⟩ := hids id rfl
      obtain rfl := Option.mem_some_iff.1 hj
      cases hr
      cases hset : (calls c).ioctl.setsStatus with
      | true =>
          simp only [if_true]
          exact h.setRequest hI (by rw [hpc]; rfl) rfl rfl rfl ⟨hc.1, s.fe.setRequest_self _ _⟩
      | false =>
          simp only [Bool.false_eq_true, if_false]
          exact h.keep rfl rfl rfl ⟨hc.1, hc.2.trans (busy_eq_doing hset).symm⟩
  | fill i id k =>
      rw [hpc] at hr hc
      simp only [Xenfront.callCode] at hr
      split at hr <;> cases hr
      · exact h.keep rfl rfl rfl hc
      · exact h.keep rfl rfl rfl ⟨fun hinfo => .inl (hc.1 hinfo), fun _ => .inl hc.2⟩
  | poke i id =>
      rw [hpc] at hr hc
      cases hr
      exact h.keep rfl rfl rfl ⟨hc.info, hc.status⟩
  | wait i id =>
      rw [hpc] at hr hc hids
      obtain ⟨j, hj, hid⟩ := hids id rfl
      obtain rfl := Option.mem_some_iff.1 hj
      simp only [Xenfront.callCode] at hr
      split at hr <;> cases hr
      rename_i hp
      exact h.keep rfl rfl rfl (Waiting.woken hc hid hp)
  | read i id st data =>
      rw [hpc] at hr hc hids
      obtain ⟨j, hj, hid⟩ := hids id rfl
      obtain rfl := Option.mem_some_iff.1 hj
      obtain ⟨e, he⟩ := hc
      cases st with
      | none =>
          cases hr
          exact h.keep rfl rfl rfl
            ⟨e, he.handled, fun hne => by rw [hid]; exact he.status hne, he.answer, he.no_data⟩
      | some st =>
          simp only [Xenfront.callCode] at hr
          split at hr <;> cases hr
          rename_i hdata
          exact h.keep rfl rfl rfl ⟨e, he.returned hdata⟩
  | failed | timedOut | returned =>
      rw [hpc] at hr
      cases hr

/-! ## The response handler -/

omit [DecidableEq ι] in
/-- The call whose response is handled has its answer now, or is not woken at all. -/
theorem Waiting.interrupt {s : State ι D} {call : Call D} {e : Response D × Response D}
    (h : Waiting s.toShared call s.rspCons) (he : s.log[s.rspCons]? = some e)
    (hfunc : e.2.func = call.ioctl.func)
    (hid : e.2.requestId = s.rspCons % omxMaxInflightRequests) :
    Waiting { s.toShared with fe := omxXenifInterrupt s.fe e.2, rspCons := s.rspCons + 1 } call
      s.rspCons where
  info := by
    intro hc
    have hdoing : s.fe.infoDoing call.endpoint = true := by
      rcases h.info hc with hdoing | ⟨e', he', -⟩
      · exact hdoing
      · exact absurd he'.1 (Nat.lt_irrefl _)
    by_cases hf : answeredField s.fe e.2 = some (.endpointInfo call.endpoint)
    · exact .inr ⟨e, ⟨Nat.lt_succ_self _, he⟩, omxXenifInterrupt_results s.fe e.2 hf⟩
    · exact .inl ((omxXenifInterrupt_infoDoing_of_ne s.fe e.2 hf).trans hdoing)
  status := by
    intro hc
    have hbusy : s.fe.requests (s.rspCons % omxMaxInflightRequests) = busy call.ioctl.func := by
      rcases h.status hc with hbusy | ⟨e', he', -⟩
      · exact hbusy
      · exact absurd he'.1 (Nat.lt_irrefl _)
    have hinfo : e.2.func ≠ .getEndpointInfo := by
      rw [hfunc]
      intro hf
      exact hc (Ioctl.func_eq_getEndpointInfo hf)
    by_cases hst : (omxXenifInterrupt s.fe e.2).requests (s.rspCons % omxMaxInflightRequests) =
        busy call.ioctl.func
    · exact .inl hst
    · refine .inr ⟨e, ⟨Nat.lt_succ_self _, he⟩, ⟨?_, s.fe, ?_, ?_⟩, fun f hf hw => ?_⟩
      · rw [hfunc]
        exact hst
      · rw [hid, hfunc]
        exact hbusy
      · rw [hid]
      · have hfield : field e.2.func call.endpoint = some f := by
          rw [hfunc]
          exact hf
        exact omxXenifInterrupt_results s.fe e.2 (answeredField_eq s.fe hinfo hfield hw)

omit [DecidableEq ι] in
theorem CallsInv.interrupt {s : State ι D} {sh : Shared D} (hI : Indexed n s)
    (hC : Contents n calls s) (h : CallsInv calls s)
    (hok : AnswersAlone n calls s .interrupt) (hsh : s.interrupt n = some sh) :
    CallsInv calls { s with toShared := sh } := by
  obtain ⟨hlt, rfl⟩ := Shared.interrupt_eq_some hsh
  have hans : s.rspCons < s.answered := Nat.lt_of_lt_of_le hlt hI.rspProd_le
  have hprod : s.rspCons < s.reqProd := Nat.lt_of_lt_of_le hans hI.answered_le
  obtain ⟨owner, howner⟩ := hI.owned s.rspCons (Nat.lt_of_lt_of_le hprod hI.reqProd_le)
  obtain ⟨e, he⟩ : ∃ e, s.log[s.rspCons]? = some e :=
    ⟨_, List.getElem?_eq_getElem (hC.log_length ▸ hans)⟩
  obtain ⟨hfunc, hid, hslot⟩ :=
    (hC.headed owner s.rspCons (hI.headed_of_lt howner hprod)).answered e he
  rw [hslot le_rfl]
  intro c
  by_cases hc : s.rspCons ∈ (s.pc c).idx
  · obtain rfl := hI.idx_inj c owner s.rspCons hc howner
    have hold := h c
    have hhead := hI.headed_of_lt howner hprod
    have hinc := hI.incomplete c
    show CallInv _ _ (s.pc c)
    cases hpc : s.pc c with
    | poke i id | wait i id =>
        rw [hpc] at hold hhead
        obtain rfl := Option.mem_some_iff.1 hhead
        exact Waiting.interrupt hold he hfunc hid
    | read i id st data =>
        rw [hpc] at hold hhead
        obtain rfl := Option.mem_some_iff.1 hhead
        obtain ⟨e', he'⟩ := hold
        exact absurd he'.handled.1 (Nat.lt_irrefl _)
    | returned i st data =>
        rw [hpc] at hold hhead
        obtain rfl := Option.mem_some_iff.1 hhead
        obtain ⟨e', he'⟩ := hold
        exact absurd he'.handled.1 (Nat.lt_irrefl _)
    | fill i id k =>
        rw [hpc] at hhead hinc
        obtain rfl := Option.mem_some_iff.1 hhead
        exact absurd (hinc s.rspCons rfl) (Nat.not_le_of_lt hprod)
    | failed i | timedOut i | check k => trivial
    | load | store | mark | identify | header =>
        rw [hpc] at hhead
        cases hhead
  · have hother : ∀ f ∈ (calls c).field, Exposed s.toShared (calls c) (s.pc c) →
        answeredField s.fe e.2 ≠ some f := by
      intro f hf hexp hans
      exact hok f (by rw [hslot le_rfl]; exact hans) c hc hf hexp
    refine (h c).frame (Nat.le_succ _) (fun _ _ he => he) ?_ ?_ ?_
    · intro i hi
      refine omxXenifInterrupt_requests s.fe e.2 fun hij => hc ?_
      rw [hid] at hij
      have hcons : Current s s.rspCons :=
        .inl ⟨le_rfl, Nat.lt_of_lt_of_le hprod hI.reqProd_le⟩
      rw [← hI.ids i s.rspCons (.inr ⟨c, hi⟩) hcons hij]
      exact Pc.idx_of_live hi
    · intro hinfo hawait hdoing
      refine (omxXenifInterrupt_infoDoing_of_ne s.fe e.2 ?_).trans hdoing
      exact hother _ (by rw [Call.field, hinfo]; rfl) ⟨hawait, .inl hinfo⟩
    · intro hexp f hf
      exact omxXenifInterrupt_results_of_ne s.fe e.2 (hother f hf hexp)

/-! ## Every step -/

theorem CallsInv.step {s t : State ι D} {a : Act ι D} (hI : Indexed n s) (hC : Contents n calls s)
    (h : CallsInv calls s) (hok : AnswersAlone n calls s a) (ht : step n calls s a = some t) :
    CallsInv calls t := by
  cases a with
  | call c junk =>
      obtain ⟨r, hr, rfl⟩ := State.run_eq ht
      exact h.callCode hI hr
  | fail c junk =>
      obtain ⟨r, hr, rfl⟩ := State.run_eq ht
      unfold failCode at hr
      split at hr
      · split at hr <;> cases hr
        exact h.keep rfl rfl rfl trivial
      · split at hr <;> cases hr
        exact h.keep rfl rfl rfl trivial
      · cases hr
  | timeout c =>
      obtain ⟨r, hr, rfl⟩ := State.run_eq ht
      unfold timeoutCode at hr
      split at hr <;> cases hr
      exact h.keep rfl rfl rfl trivial
  | readData c =>
      obtain ⟨r, hr, rfl⟩ := State.run_eq ht
      have hc := h c
      unfold readDataCode at hr
      split at hr
      · rename_i i id st hpc
        rw [hpc] at hc
        obtain ⟨e, he⟩ := hc
        obtain ⟨f, hf, rfl⟩ := Option.map_eq_some_iff.1 hr
        refine h.keep rfl rfl rfl ⟨e, he.handled, he.status, fun g hg hw => ?_, fun hnone => ?_⟩
        · obtain rfl := Option.some.inj (hf.symm.trans hg)
          exact he.answer f hf hw
        · rw [hf] at hnone
          cases hnone
      · cases hr
  | answer x d =>
      obtain ⟨sh, hsh, rfl⟩ := Option.map_eq_some_iff.1 ht
      obtain ⟨-, rfl⟩ := Shared.answer_eq_some hsh
      exact fun c => (h c).frame le_rfl
        (fun i e he => (List.getElem?_append_left (List.getElem?_eq_some_iff.1 he).1).trans he)
        (fun _ _ => rfl) (fun _ _ hd => hd) fun _ _ _ => rfl
  | interrupt =>
      obtain ⟨sh, hsh, rfl⟩ := Option.map_eq_some_iff.1 ht
      exact h.interrupt hI hC hok hsh
  | pushResponses | setEndpoint eid endpoint | setUserRegion endpoint id present =>
      cases ht
      exact fun c => (h c).frame le_rfl (fun _ _ he => he) (fun _ _ => rfl) (fun _ _ hd => hd)
        fun _ _ _ => rfl

/-! ## Every run -/

omit [DecidableEq ι] in
theorem paired_of_inv {s : State ι D} (hI : Indexed n s) (hC : Contents n calls s)
    (h : CallsInv calls s) : Paired n calls s where
  own_index := hI.idx_inj
  own_slot := by
    intro c c' i i' hi hi' hcons hcons' hslot
    by_contra hne
    refine hI.slot_ne hcons (hI.idx_lt c i hi) hcons' (hI.idx_lt c' i' hi') ?_ hslot
    rintro rfl
    exact hne (hI.idx_inj c c' i hi hi')
  own_id := by
    intro c c' id hid hid'
    obtain ⟨i, hi, rfl⟩ := hI.requestId c id hid
    obtain ⟨i', hi', hmod⟩ := hI.requestId c' _ hid'
    obtain rfl := hI.ids i i' (.inr ⟨c, hi⟩) (.inr ⟨c', hi'⟩) hmod
    exact hI.idx_inj c c' i (Pc.idx_of_live hi) (Pc.idx_of_live hi')
  own_response := by
    intro c i st data hpc
    have hc := h c
    rw [hpc] at hc
    obtain ⟨e, he⟩ := hc
    have hfill := hC.filled c i (by rw [hpc]; rfl)
    have hhead := hC.headed c i (by rw [hpc]; rfl)
    obtain ⟨hfunc, -, -⟩ := hhead.answered e he.handled.2
    refine ⟨e, he.handled, hfill.executed e he.handled.2, hfunc, he.status, fun hacc => ?_⟩
    refine he.answer ?_
    by_cases hinfo : (calls c).ioctl = .getEndpointInfo
    · exact .inl hinfo
    · exact .inr ((he.status hinfo).wrote hacc)

variable (n calls) in
/-- In every run that meets `PairingOk`, in every state reached, every call has an index,
a slot and a request id of its own, and a call that has returned was woken by the
response to its own request and returns what that response says. -/
theorem calls_paired (fe : XenfrontInfo D) (mem : ℕ → Response D) {s : State ι D}
    (h : (machine n calls fe mem).Reaches (PairingOk n calls) s) : Paired n calls s := by
  obtain ⟨hI, hC, hcalls⟩ : Indexed n s ∧ Contents n calls s ∧ CallsInv calls s := by
    have hinit : CallsInv calls (init fe mem) := fun _ => trivial
    refine h.invariant (I := fun s => Indexed n s ∧ Contents n calls s ∧ CallsInv calls s)
      ⟨Indexed.init fe mem, Contents.init fe mem, hinit⟩ ?_
    rintro s a t ⟨hI, hC, hcalls⟩ ⟨hturns, hkeeps, halone⟩ ht
    exact ⟨hI.step hturns ht, hC.step hI hkeeps ht, hcalls.step hI hC halone ht⟩
  exact paired_of_inv hI hC hcalls

/-! ## Two lookups -/

/-- Two processes look a peer up. -/
def twoLookups (c : Fin 2) : Call ℕ :=
  { ioctl := .peerLookup .byIndex, eid := none, endpoint := 0, id := 0, args := c
    beyond := fun _ _ e => e }

def idleFrontend : XenfrontInfo ℕ :=
  { requests := fun _ => .done
    endpoints := fun _ => none
    userRegions := fun _ _ => false
    infoDoing := fun _ => false
    results := fun _ => 0 }

def twoLookupsMachine : Machine (State (Fin 2) ℕ) (Act (Fin 2) ℕ) :=
  machine ⟨3, Nat.le_add_left 4 27⟩ twoLookups idleFrontend fun _ => ⟨.null, 0, 0, 0, 0, 0, 0⟩

/-- The backend finds a peer. -/
def found : Execution := .peerLookup .byIndex ⟨0, by decide, by decide⟩

/-- The calls take their slots in turn; the first copies its answer before the second
answer is handled. -/
def inTurn : List (Act (Fin 2) ℕ) :=
  List.replicate 8 (.call 0 0) ++ List.replicate 9 (.call 1 0) ++
    [.call 0 0, .answer found 41, .answer found 42, .pushResponses, .interrupt] ++
    [.call 0 0, .readData 0, .call 0 0, .call 0 0, .interrupt] ++
    [.call 1 0, .readData 1, .call 1 0, .call 1 0]

theorem calls_paired_inTurn :
    ∃ s, twoLookupsMachine.exec twoLookupsMachine.init inTurn = some s ∧
      s.pc 0 = .returned 0 .done (some 41) ∧ s.pc 1 = .returned 1 .done (some 42) ∧
      Paired ⟨3, by decide⟩ twoLookups s := by
  obtain ⟨s, hs, h0, h1⟩ : ∃ s, twoLookupsMachine.exec twoLookupsMachine.init inTurn = some s ∧
      s.pc 0 = .returned 0 .done (some 41) ∧ s.pc 1 = .returned 1 .done (some 42) :=
    ⟨_, rfl, rfl, rfl⟩
  exact ⟨s, hs, h0, h1, calls_paired ⟨3, by decide⟩ twoLookups idleFrontend _
    ⟨inTurn, by decide +kernel, hs⟩⟩

/-- Both calls take a slot before either computes its request id: both find that of the
second. -/
def overlapping : List (Act (Fin 2) ℕ) :=
  List.replicate 4 (.call 0 0) ++ List.replicate 8 (.call 1 0) ++ List.replicate 5 (.call 0 0) ++
    [.call 1 0, .answer found 41, .pushResponses, .interrupt] ++
    [.call 1 0, .readData 1, .call 1 0, .call 1 0]

/-- The second call returns with the answer to the first, its own request not yet executed. -/
theorem calls_not_paired :
    ∃ s, twoLookupsMachine.exec twoLookupsMachine.init overlapping = some s ∧
      s.pc 0 = .wait 0 1 ∧ s.pc 1 = .returned 1 .done (some 41) ∧ s.log.length = 1 ∧
      ¬ Paired ⟨3, by decide⟩ twoLookups s := by
  obtain ⟨s, hs, h0, h1, hlog⟩ : ∃ s,
      twoLookupsMachine.exec twoLookupsMachine.init overlapping = some s ∧
      s.pc 0 = .wait 0 1 ∧ s.pc 1 = .returned 1 .done (some 41) ∧ s.log.length = 1 :=
    ⟨_, rfl, rfl, rfl, rfl⟩
  refine ⟨s, hs, h0, h1, hlog, fun hpaired => ?_⟩
  obtain ⟨e, he, -⟩ := hpaired.own_response 1 1 _ _ h1
  have hlt := (List.getElem?_eq_some_iff.1 he.2).1
  rw [hlog] at hlt
  exact absurd hlt (Nat.lt_irrefl 1)

end Xen2mx.Xenfront
