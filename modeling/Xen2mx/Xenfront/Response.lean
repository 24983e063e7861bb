/-
# `Xen2mx.Xenfront.Response` — what the frontend makes of a response

An ioctl that forwards a command leaves a status in `fe->requests` under its
request id and polls it until `omx_xenif_interrupt` has handled the response.
The data of an answer is not kept with the request: it goes through one field of
the frontend (or of the endpoint) for each kind of query.

    command                 answered when             the ioctl then accepts
    send, pull              the endpoint is known     DONE
    peer, board, table      always                    anything but FAILED
    endpoint info           the endpoint is known     anything (it polls info_status)
    open                    always                    DONE
    close                   always                    anything
    region create           endpoint, region known    REGISTERED
    region destroy          the endpoint is known     DEREGISTERED
-/
import Xen2mx.Xenback.Ring

namespace Xen2mx.Xenfront

open Xenback (Func)

/-! ## The frontend -/

/-- What `fe->requests` holds: `enum frontend_status`, and the values of
`enum omx_user_region_status` that the region commands put there.  `FAILED` is 2
in both. -/
inductive Status where
  | done | doing | failed
  | registering | registered | deregistering | deregistered
  deriving DecidableEq, Repr

/-- The fields an answer's data goes through.  All but the last are fields of
`struct omx_xenfront_info`, one for the whole guest. -/
inductive Field where
  | peerInfo | boardCount | state | boardInfo
  | endpointInfo (endpoint : ℕ)
  deriving DecidableEq, Repr

/-- `struct omx_xenif_response`: the header, the fields of `cur` and `dur` that
are read back, and the rest of the union as `data`. -/
structure Response (D : Type*) where
  func : Func
  eid : ℕ
  requestId : ℕ
  ret : ℤ
  id : ℕ
  status : ℕ
  data : D
  deriving DecidableEq, Repr

/-- `struct omx_xenfront_info`, with what a response can touch of its endpoints.
An endpoint is named by a number that stands for its address. -/
structure XenfrontInfo (D : Type*) where
  requests : ℕ → Status
  endpoints : ℕ → Option ℕ
  userRegions : ℕ → ℕ → Bool
  /-- `endpoint->info_status` is `OMX_ENDPOINT_STATUS_DOING`. -/
  infoDoing : ℕ → Bool
  results : Field → D

variable {D : Type*}

namespace XenfrontInfo

def setRequest (fe : XenfrontInfo D) (id : ℕ) (st : Status) : XenfrontInfo D :=
  { fe with requests := fun i => if i = id then st else fe.requests i }

def setResult (fe : XenfrontInfo D) (f : Field) (d : D) : XenfrontInfo D :=
  { fe with results := fun g => if g = f then d else fe.results g }

def setInfoDoing (fe : XenfrontInfo D) (endpoint : ℕ) (b : Bool) : XenfrontInfo D :=
  { fe with infoDoing := fun e => if e = endpoint then b else fe.infoDoing e }

def setEndpoint (fe : XenfrontInfo D) (eid : ℕ) (endpoint : Option ℕ) : XenfrontInfo D :=
  { fe with endpoints := fun i => if i = eid then endpoint else fe.endpoints i }

def setUserRegion (fe : XenfrontInfo D) (endpoint id : ℕ) (b : Bool) : XenfrontInfo D :=
  { fe with userRegions := fun e i => if e = endpoint ∧ i = id then b else fe.userRegions e i }

variable (fe : XenfrontInfo D)

@[simp] theorem setRequest_self (id : ℕ) (st : Status) :
    (fe.setRequest id st).requests id = st := if_pos rfl

theorem setRequest_of_ne {id i : ℕ} (st : Status) (h : i ≠ id) :
    (fe.setRequest id st).requests i = fe.requests i := if_neg h

@[simp] theorem setRequest_endpoints (id : ℕ) (st : Status) :
    (fe.setRequest id st).endpoints = fe.endpoints := rfl

@[simp] theorem setRequest_userRegions (id : ℕ) (st : Status) :
    (fe.setRequest id st).userRegions = fe.userRegions := rfl

@[simp] theorem setRequest_infoDoing (id : ℕ) (st : Status) :
    (fe.setRequest id st).infoDoing = fe.infoDoing := rfl

@[simp] theorem setRequest_results (id : ℕ) (st : Status) :
    (fe.setRequest id st).results = fe.results := rfl

@[simp] theorem setResult_self (f : Field) (d : D) : (fe.setResult f d).results f = d := if_pos rfl

theorem setResult_of_ne {f g : Field} (d : D) (h : g ≠ f) :
    (fe.setResult f d).results g = fe.results g := if_neg h

@[simp] theorem setResult_requests (f : Field) (d : D) :
    (fe.setResult f d).requests = fe.requests := rfl

@[simp] theorem setResult_infoDoing (f : Field) (d : D) :
    (fe.setResult f d).infoDoing = fe.infoDoing := rfl

@[simp] theorem setInfoDoing_self (e : ℕ) (b : Bool) : (fe.setInfoDoing e b).infoDoing e = b :=
  if_pos rfl

theorem setInfoDoing_of_ne {e e' : ℕ} (b : Bool) (h : e' ≠ e) :
    (fe.setInfoDoing e b).infoDoing e' = fe.infoDoing e' := if_neg h

@[simp] theorem setInfoDoing_requests (e : ℕ) (b : Bool) :
    (fe.setInfoDoing e b).requests = fe.requests := rfl

@[simp] theorem setInfoDoing_results (e : ℕ) (b : Bool) :
    (fe.setInfoDoing e b).results = fe.results := rfl

end XenfrontInfo

/-! ## The response handler -/

/-- `int16_t ret = resp->ret`. -/
def int16 (ret : ℤ) : ℤ := Int.bmod ret (2 ^ 16)

theorem int16_eq {ret : ℤ} (hlo : -2 ^ 15 ≤ ret) (hhi : ret < 2 ^ 15) : int16 ret = ret := by
  unfold int16
  rw [Int.bmod_eq_of_le] <;> omega

/-- `DONE` or `FAILED`, by the code of the response. -/
def XenfrontInfo.answer (fe : XenfrontInfo D) (resp : Response D) : XenfrontInfo D :=
  fe.setRequest resp.requestId (if int16 resp.ret = 0 then .done else .failed)

/-- The body of the loop of `omx_xenif_interrupt`. -/
def omxXenifInterrupt (fe : XenfrontInfo D) (resp : Response D) : XenfrontInfo D :=
  match resp.func with
  | .sendMediumsqFrag | .sendMediumva | .sendSmall | .sendTiny | .pull | .sendNotify
  | .sendRndv | .sendLiback | .sendConnectRequest | .sendConnectReply =>
      match fe.endpoints resp.eid with
      | none => fe
      | some _ => fe.answer resp
  | .peerFromIndex | .peerFromAddr | .peerFromHostname =>
      if int16 resp.ret = 0 then
        (fe.setResult .peerInfo resp.data).setRequest resp.requestId .done
      else fe.setRequest resp.requestId .failed
  | .getEndpointInfo =>
      match fe.endpoints resp.eid with
      | none => fe
      | some endpoint =>
          (fe.setResult (.endpointInfo endpoint) resp.data).setInfoDoing endpoint false
  | .xenGetBoardCount => (fe.setResult .boardCount resp.data).answer resp
  | .xenPeerTableSetState | .xenSetHostname => fe.answer resp
  | .xenPeerTableGetState => (fe.setResult .state resp.data).answer resp
  | .getBoardInfo => (fe.setResult .boardInfo resp.data).answer resp
  | .xenOpenEndpoint =>
      match fe.endpoints resp.eid with
      | none => fe.setRequest resp.requestId .failed
      | some _ => fe.setRequest resp.requestId .done
  | .xenCloseEndpoint =>
      if int16 resp.ret ≠ 0 ∨ fe.endpoints resp.eid = none then
        fe.setRequest resp.requestId .failed
      else fe.setRequest resp.requestId .done
  | .xenCreateUserRegion =>
      match fe.endpoints resp.eid with
      | none => fe
      | some endpoint =>
          if fe.userRegions endpoint resp.id then
            fe.setRequest resp.requestId (if resp.status = 0 then .registered else .failed)
          else fe
  | .xenDestroyUserRegion =>
      match fe.endpoints resp.eid with
      | none => fe
      | some _ =>
          fe.setRequest resp.requestId (if resp.status = 0 then .deregistered else .failed)
  | .null | .unknown _ => fe

/-! ## What one response changes -/

/-- The field that the handler writes the data of a response to. -/
def answeredField (fe : XenfrontInfo D) (resp : Response D) : Option Field :=
  match resp.func with
  | .peerFromIndex | .peerFromAddr | .peerFromHostname =>
      if int16 resp.ret = 0 then some .peerInfo else none
  | .getEndpointInfo => (fe.endpoints resp.eid).map .endpointInfo
  | .xenGetBoardCount => some .boardCount
  | .xenPeerTableGetState => some .state
  | .getBoardInfo => some .boardInfo
  | _ => none

section
variable (fe : XenfrontInfo D) (resp : Response D)

/-- No status but that of its request. -/
theorem omxXenifInterrupt_requests {id : ℕ} (h : id ≠ resp.requestId) :
    (omxXenifInterrupt fe resp).requests id = fe.requests id := by
  unfold omxXenifInterrupt
  split
  all_goals try split
  all_goals try split
  all_goals simp only [XenfrontInfo.answer, XenfrontInfo.setRequest_of_ne _ _ h,
    XenfrontInfo.setResult_requests, XenfrontInfo.setInfoDoing_requests]

theorem omxXenifInterrupt_results_of_ne {g : Field} (h : answeredField fe resp ≠ some g) :
    (omxXenifInterrupt fe resp).results g = fe.results g := by
  unfold answeredField at h
  unfold omxXenifInterrupt
  cases hf : resp.func <;> simp only [hf] at h ⊢
  case peerFromIndex | peerFromAddr | peerFromHostname =>
    split
    · rename_i hret
      rw [if_pos hret] at h
      exact fe.setResult_of_ne resp.data (fun hg => h (congrArg some hg.symm))
    · rfl
  case getEndpointInfo =>
    split
    · rfl
    · rename_i endpoint hep
      rw [hep] at h
      exact fe.setResult_of_ne resp.data (fun hg => h (congrArg some hg.symm))
  case xenGetBoardCount | xenPeerTableGetState | getBoardInfo =>
    exact fe.setResult_of_ne resp.data (fun hg => h (congrArg some hg.symm))
  case xenCreateUserRegion =>
    split
    · rfl
    · split <;> rfl
  case xenPeerTableSetState | xenSetHostname => rfl
  all_goals split <;> rfl

theorem omxXenifInterrupt_results {f : Field} (h : answeredField fe resp = some f) :
    (omxXenifInterrupt fe resp).results f = resp.data := by
  unfold answeredField at h
  unfold omxXenifInterrupt
  cases hf : resp.func <;> simp only [hf] at h ⊢
  case peerFromIndex | peerFromAddr | peerFromHostname =>
    split at h <;> cases h
    rename_i hret
    rw [if_pos hret, XenfrontInfo.setRequest_results, XenfrontInfo.setResult_self]
  case getEndpointInfo =>
    obtain ⟨endpoint, hep, rfl⟩ := Option.map_eq_some_iff.1 h
    simp only [hep, XenfrontInfo.setInfoDoing_results, XenfrontInfo.setResult_self]
  case xenGetBoardCount | xenPeerTableGetState | getBoardInfo =>
    cases h
    rw [XenfrontInfo.answer, XenfrontInfo.setRequest_results, XenfrontInfo.setResult_self]
  all_goals cases h

theorem omxXenifInterrupt_infoDoing_of_ne {endpoint : ℕ}
    (h : answeredField fe resp ≠ some (.endpointInfo endpoint)) :
    (omxXenifInterrupt fe resp).infoDoing endpoint = fe.infoDoing endpoint := by
  unfold answeredField at h
  unfold omxXenifInterrupt
  cases hf : resp.func <;> simp only [hf] at h ⊢
  case getEndpointInfo =>
    split
    · rfl
    · rename_i ep hep
      rw [hep] at h
      exact (fe.setResult _ _).setInfoDoing_of_ne false (fun hg => h (by rw [hg]; rfl))
  case xenPeerTableSetState | xenSetHostname => rfl
  case xenCreateUserRegion =>
    split
    · rfl
    · split <;> rfl
  all_goals first | rfl | (split <;> rfl)

/-- The data of an answer to a query is in the field of the query, unless a peer lookup failed. -/
def Response.wrote (resp : Response D) : Bool :=
  match resp.func with
  | .peerFromIndex | .peerFromAddr | .peerFromHostname => int16 resp.ret = 0
  | _ => true

end

/-! ## The end of an ioctl -/

/-- The status an ioctl polls until it changes. -/
def busy : Func → Status
  | .xenCreateUserRegion => .registering
  | .xenDestroyUserRegion => .deregistering
  | _ => .doing

/-- What an ioctl accepts once it is woken. -/
def accepts (func : Func) (st : Status) : Bool :=
  match func with
  | .peerFromIndex | .peerFromAddr | .peerFromHostname | .xenGetBoardCount
  | .xenPeerTableGetState | .xenPeerTableSetState | .xenSetHostname | .getBoardInfo => st ≠ .failed
  | .getEndpointInfo | .xenCloseEndpoint => true
  | .xenCreateUserRegion => st = .registered
  | .xenDestroyUserRegion => st = .deregistered
  | _ => st = .done

/-- The field a query takes its answer from. -/
def field (func : Func) (endpoint : ℕ) : Option Field :=
  match func with
  | .peerFromIndex | .peerFromAddr | .peerFromHostname => some .peerInfo
  | .getEndpointInfo => some (.endpointInfo endpoint)
  | .xenGetBoardCount => some .boardCount
  | .xenPeerTableGetState => some .state
  | .getBoardInfo => some .boardInfo
  | _ => none

theorem answeredField_eq (fe : XenfrontInfo D) {resp : Response D} {endpoint : ℕ} {f : Field}
    (hinfo : resp.func ≠ .getEndpointInfo) (hf : field resp.func endpoint = some f)
    (hw : resp.wrote = true) : answeredField fe resp = some f := by
  unfold Response.wrote at hw
  unfold answeredField
  cases hfunc : resp.func <;> simp only [hfunc, field, decide_eq_true_eq] at hf hw hinfo ⊢
  case peerFromIndex | peerFromAddr | peerFromHostname => rw [if_pos hw, hf]
  case getEndpointInfo => exact absurd rfl hinfo
  case xenGetBoardCount | xenPeerTableGetState | getBoardInfo => exact hf
  all_goals cases hf

/-! ## What a status says of its response -/

/-- `st` is a status that handling `resp` can leave under its request, and one that
wakes the ioctl. -/
def Leaves (resp : Response D) (st : Status) : Prop :=
  st ≠ busy resp.func ∧ ∃ fe : XenfrontInfo D, fe.requests resp.requestId = busy resp.func ∧
    (omxXenifInterrupt fe resp).requests resp.requestId = st

/-- A peer lookup that is accepted found its data written. -/
theorem Leaves.wrote {resp : Response D} {st : Status} (h : Leaves resp st)
    (hacc : accepts resp.func st = true) : resp.wrote = true := by
  obtain ⟨hbusy, fe, hfe, hst⟩ := h
  unfold Response.wrote
  unfold omxXenifInterrupt at hst
  cases hfunc : resp.func <;> simp only [hfunc, decide_eq_true_eq] at hst hacc ⊢
  case peerFromIndex | peerFromAddr | peerFromHostname =>
    by_contra hret
    rw [if_neg hret, XenfrontInfo.setRequest_self] at hst
    subst hst
    cases hacc

end Xen2mx.Xenfront
