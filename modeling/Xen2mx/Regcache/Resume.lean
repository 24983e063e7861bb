/-
# `Xen2mx.Regcache.Resume` — a pull that waits for its resources

A pull takes three resources one after the other.  Where one is missing the request is queued, and
what is still missing is stored in it, so that the next attempt begins there.

    stage            takes                                     the next stage has from it
    need_exp_event   a place in the event queue
    need_region      a region, by `omx__get_region`            `region`, a local variable
    need_pull        a handle of the driver, by the ioctl

An attempt that begins at `need_pull` has no region in `region`: the request gets it only after the
ioctl.  What is found where the variable points is part of the attempt, and so is what the
endpoint has at that time and what the driver answers.

**Proved here.**

    a submission that nothing stops                            (`submitPull_undisturbed`)
    what an attempt leaves, from each stage                    (`Waits.needExpEvent`, `.needRegion`, `.needPull`)
    with what is missing the pull is issued                    (`Waits.resumes`)
    every pull of a run is that of an undisturbed submission  ⟺  `need_pull` finds the region
                                                               (`pull_resumed_iff`)
    it does not where the driver had no handle at first        (`pull_not_resumed`)
-/
import Xen2mx.Lib.Runs
import Xen2mx.Regcache.Cache

namespace Xen2mx.Regcache.Resume

/-! ## Requests -/

/-- `missing_resources` of a pull. -/
structure PullResources where
  expEvent : Bool
  largeRegion : Bool
  pullHandle : Bool
  deriving DecidableEq, Repr

/-- `OMX_REQUEST_PULL_RESOURCES`. -/
def requestPullResources : PullResources := ⟨true, true, true⟩

/-- What the request of a large receive says of the message. -/
structure LargeRecv where
  segs : ReqSegs
  xferLength : ℕ
  pulledRdmaId : ℕ
  pulledRdmaSeqnum : ℕ
  pulledRdmaOffset : ℕ
  libCookie : ℕ
  deriving DecidableEq

/-- A request of type `OMX_REQUEST_TYPE_RECV_LARGE`, in `OMX_REQUEST_STATE_RECV_PARTIAL`. -/
structure PullReq where
  large : LargeRecv
  missingResources : PullResources
  needResources : Bool
  driverPulling : Bool
  localRegion : Option ℕ
  deriving DecidableEq

/-- What a pull is told of its partner. -/
structure PullPartner where
  peerIndex : ℕ
  endpointIndex : ℕ
  localizationShared : Bool
  backSessionId : ℕ
  deriving DecidableEq, Repr

/-- `struct omx_cmd_pull`. -/
structure CmdPull where
  peerIndex : ℕ
  destEndpoint : ℕ
  localizationShared : Bool
  length : ℕ
  sessionId : ℕ
  libCookie : ℕ
  pullerRdmaId : ℕ
  pulledRdmaId : ℕ
  pulledRdmaSeqnum : ℕ
  pulledRdmaOffset : ℕ
  resendTimeoutJiffies : ℕ
  deriving DecidableEq, Repr

/-- What an attempt finds, and what the driver answers it. -/
structure Env where
  ep : Endpoint
  availExpEvents : ℕ
  partner : PullPartner
  pullResendTimeoutJiffies : ℕ
  registers : Bool
  accepts : Bool
  /-- The `id` that is found where `region` points before it is set. -/
  garbage : ℕ

/-- What an attempt leaves; `got` is the region that it got, `ioctl` the pull that it issued. -/
structure Attempt where
  success : Bool
  req : PullReq
  ep : Endpoint
  availExpEvents : ℕ
  got : Option ℕ
  ioctl : Option CmdPull

/-! ## The stages -/

def pullParam (env : Env) (large : LargeRecv) (region : ℕ) : CmdPull where
  peerIndex := env.partner.peerIndex
  destEndpoint := env.partner.endpointIndex
  localizationShared := env.partner.localizationShared
  length := large.xferLength
  sessionId := env.partner.backSessionId
  libCookie := large.libCookie
  pullerRdmaId := region
  pulledRdmaId := large.pulledRdmaId
  pulledRdmaSeqnum := large.pulledRdmaSeqnum
  pulledRdmaOffset := large.pulledRdmaOffset
  resendTimeoutJiffies := env.pullResendTimeoutJiffies

/-- From `need_pull` on. -/
def needPull (env : Env) (ep : Endpoint) (availExpEvents : ℕ) (got : Option ℕ) (region : ℕ)
    (req : PullReq) : Attempt :=
  let pull := some (pullParam env req.large region)
  if env.accepts then
    { success := true
      req :=
        { req with
          missingResources := { req.missingResources with pullHandle := false }
          localRegion := some region
          driverPulling := true }
      ep, availExpEvents, got, ioctl := pull }
  else { success := false, req, ep, availExpEvents, got, ioctl := pull }

/-- From `need_region` on. -/
def needRegion (g : Globals) (env : Env) (availExpEvents : ℕ) (req : PullReq) : Attempt :=
  match env.ep.getRegion g req.large.segs none env.registers with
  | (none, ep) =>
      { success := false, req, ep, availExpEvents, got := none, ioctl := none }
  | (some region, ep) =>
      needPull env ep availExpEvents (some region) region
        { req with missingResources := { req.missingResources with largeRegion := false } }

/-- From `need_exp_event` on. -/
def needExpEvent (g : Globals) (env : Env) (req : PullReq) : Attempt :=
  if env.availExpEvents < 1 then
    { success := false, req, ep := env.ep, availExpEvents := env.availExpEvents
      got := none, ioctl := none }
  else
    needRegion g env (env.availExpEvents - 1)
      { req with missingResources := { req.missingResources with expEvent := false } }

/-- `omx__alloc_setup_pull`, which aborts if nothing is missing. -/
def allocSetupPull (g : Globals) (env : Env) (req : PullReq) : Option Attempt :=
  if req.missingResources.expEvent then some (needExpEvent g env req)
  else if req.missingResources.largeRegion then some (needRegion g env env.availExpEvents req)
  else if req.missingResources.pullHandle then
    some (needPull env env.ep env.availExpEvents none env.garbage req)
  else none

/-- The request waits in `need_resources_send_req_q` if the attempt failed. -/
def Attempt.enqueue (attempt : Attempt) : Attempt :=
  { attempt with req := { attempt.req with needResources := !attempt.success } }

/-- The request is in no queue. -/
def PullReq.dequeue (req : PullReq) : PullReq := { req with needResources := false }

/-- `omx__submit_pull`, if there is something to pull. -/
def submitPull (g : Globals) (env : Env) (req : PullReq) : Option Attempt :=
  if req.large.xferLength = 0 then none
  else
    (allocSetupPull g env { req.dequeue with missingResources := requestPullResources }).map
      Attempt.enqueue

/-- The round of `omx__process_delayed_requests` for the request. -/
def processDelayed (g : Globals) (env : Env) (req : PullReq) : Option Attempt :=
  if req.needResources then
    (allocSetupPull g env req.dequeue).map Attempt.enqueue
  else none

/-! ## Runs -/

/-- A request, and what was done for it: the pulls that were issued, the places in the event queue,
the regions and the handles that it took. -/
structure State where
  req : PullReq
  submitted : Bool
  pulls : List CmdPull
  credits : ℕ
  regions : List ℕ
  handles : ℕ

namespace State

def init (req : PullReq) : State where
  req := req
  submitted := false
  pulls := []
  credits := 0
  regions := []
  handles := 0

variable (g : Globals) (s : State) (env : Env)

/-- The state after an attempt. -/
def after (attempt : Attempt) : State where
  req := attempt.req
  submitted := true
  pulls := s.pulls ++ attempt.ioctl.toList
  credits := s.credits + (env.availExpEvents - attempt.availExpEvents)
  regions := s.regions ++ attempt.got.toList
  handles := s.handles + if attempt.success then 1 else 0

/-- The first attempt submits the pull, and every other is made from the delayed queue. -/
def step : Option State :=
  (if s.submitted then processDelayed g env s.req else submitPull g env s.req).map (s.after env)

end State

def machine (g : Globals) (req : PullReq) : Machine State Env where
  init := .init req
  step := State.step g

/-- A submission that nothing stops gets the region, and issues the pull. -/
def Undisturbed (g : Globals) (large : LargeRecv) (region : ℕ) (pull : CmdPull) : Prop :=
  ∃ env req attempt, req.large = large ∧ submitPull g env req = some attempt ∧
    attempt.success = true ∧ attempt.got = some region ∧ attempt.ioctl = some pull

/-- The pulls are those of an undisturbed submission with the region that the request took, and each
resource was taken once, if it is not missing. -/
structure Resumed (g : Globals) (s : State) : Prop where
  pulls : ∀ pull ∈ s.pulls, ∃ region,
    s.regions = [region] ∧ Undisturbed g s.req.large region pull
  credits : s.submitted = true →
    s.credits = if s.req.missingResources.expEvent then 0 else 1
  regions : s.submitted = true →
    s.regions.length = if s.req.missingResources.largeRegion then 0 else 1
  handles : s.submitted = true →
    s.handles = if s.req.missingResources.pullHandle then 0 else 1
  /-- A request that does not wait has them all, and its pull was issued. -/
  pulled : s.submitted = true → s.req.needResources = false →
    s.req.missingResources = ⟨false, false, false⟩ ∧ s.pulls ≠ []
  /-- A request that waits has its pull issued by the attempt that finds what it misses. -/
  resumes : s.submitted = true → s.req.needResources = true → ∀ env,
    (s.req.missingResources.expEvent = true → 0 < env.availExpEvents) →
    (s.req.missingResources.largeRegion = true →
      ((env.ep.getRegion g s.req.large.segs none env.registers).1).isSome) →
    env.accepts = true → ∃ s', s.step g env = some s' ∧ s'.req.needResources = false

/-! ## Attempts -/

section
variable {g : Globals} {env : Env} {ep : Endpoint} {req : PullReq} {large : LargeRecv}
  {attempt : Attempt} {pull : CmdPull} {region availExpEvents : ℕ} {got : Option ℕ}

theorem needPull_ioctl : (needPull env ep availExpEvents got region req).ioctl =
    some (pullParam env req.large region) := by
  rw [needPull]
  split <;> rfl

theorem needPull_got : (needPull env ep availExpEvents got region req).got = got := by
  rw [needPull]
  split <;> rfl

theorem needPull_availExpEvents :
    (needPull env ep availExpEvents got region req).availExpEvents = availExpEvents := by
  rw [needPull]
  split <;> rfl

theorem needPull_success : (needPull env ep availExpEvents got region req).success =
    env.accepts := by
  rw [needPull]
  split
  · rename_i haccepts
    exact haccepts.symm
  · rename_i haccepts
    exact (Bool.eq_false_iff.2 haccepts).symm

theorem needPull_large : (needPull env ep availExpEvents got region req).req.large =
    req.large := by
  rw [needPull]
  split <;> rfl

theorem needPull_missing :
    (needPull env ep availExpEvents got region req).req.missingResources =
      { req.missingResources with
        pullHandle := req.missingResources.pullHandle && !env.accepts } := by
  rw [needPull]
  split
  · rename_i haccepts
    rw [haccepts, Bool.not_true, Bool.and_false]
  · rename_i haccepts
    rw [Bool.eq_false_iff.2 haccepts, Bool.not_false, Bool.and_true]

/-- Only the handle is missing: the attempt begins at `need_pull`. -/
theorem allocSetupPull_needPull (h : req.missingResources = ⟨false, false, true⟩) :
    allocSetupPull g env req =
      some (needPull env env.ep env.availExpEvents none env.garbage req) := by
  rw [allocSetupPull, if_neg (by rw [h]; exact Bool.false_ne_true),
    if_neg (by rw [h]; exact Bool.false_ne_true), if_pos (by rw [h])]

/-- The region is missing, and the handle. -/
theorem allocSetupPull_needRegion (h : req.missingResources = ⟨false, true, true⟩) :
    allocSetupPull g env req = some (needRegion g env env.availExpEvents req) := by
  rw [allocSetupPull, if_neg (by rw [h]; exact Bool.false_ne_true), if_pos (by rw [h])]

/-- All is missing. -/
theorem allocSetupPull_needExpEvent (h : req.missingResources = ⟨true, true, true⟩) :
    allocSetupPull g env req = some (needExpEvent g env req) := by
  rw [allocSetupPull, if_pos (by rw [h])]

/-- What `omx__get_region` may give for the request. -/
def Gets (g : Globals) (large : LargeRecv) (region : ℕ) : Prop :=
  ∃ ep registers ep', Endpoint.getRegion g ep large.segs none registers = (some region, ep')

/-- A submission that finds all it takes. -/
theorem submitPull_undisturbed (hlength : large.xferLength ≠ 0) (hgets : Gets g large region)
    (env : Env) : Undisturbed g large region (pullParam env large region) := by
  obtain ⟨ep, registers, ep', hget⟩ := hgets
  let env' : Env :=
    { env with ep := ep, registers := registers, availExpEvents := 1, accepts := true }
  let req : PullReq := ⟨large, requestPullResources, false, false, none⟩
  have hregion : needRegion g env' 0
      { req with missingResources := ⟨false, true, true⟩ } =
      needPull env' ep' 0 (some region) region
        { req with missingResources := ⟨false, false, true⟩ } := by
    unfold needRegion
    have hget' : env'.ep.getRegion g req.large.segs none env'.registers = (some region, ep') :=
      hget
    rw [hget']
  have hsubmit : submitPull g env' req = some (needRegion g env' 0
      { req with missingResources := ⟨false, true, true⟩ }).enqueue := by
    rw [submitPull, if_neg hlength]
    rfl
  rw [hregion] at hsubmit
  exact ⟨env', req, _, rfl, hsubmit, needPull_success, needPull_got, needPull_ioctl⟩

/-- The region of an undisturbed submission is the one that it issues the pull with. -/
theorem Undisturbed.region_eq (h : Undisturbed g large region pull) :
    pull.pullerRdmaId = region := by
  obtain ⟨env, req, attempt, -, hsubmit, hsuccess, hgot, hioctl⟩ := h
  unfold submitPull at hsubmit
  split at hsubmit
  · exact nomatch hsubmit
  · obtain ⟨attempt', halloc, rfl⟩ := Option.map_eq_some_iff.1 hsubmit
    cases halloc
    change (needExpEvent g env _).got = _ at hgot
    change (needExpEvent g env _).ioctl = _ at hioctl
    rw [needExpEvent] at hgot hioctl
    split at hgot
    · exact nomatch hgot
    · rename_i hcredit
      rw [if_neg hcredit] at hioctl
      unfold needRegion at hgot hioctl
      split at hgot
      · exact nomatch hgot
      · rename_i region' ep' hget
        rw [hget] at hioctl
        rw [needPull_got] at hgot
        rw [needPull_ioctl] at hioctl
        cases hgot
        cases hioctl
        rfl

end

/-! ## The stages of a run -/

/-- What a request that was submitted has, by what it misses. -/
structure Waits (g : Globals) (s : State) : Prop where
  xferLength : s.req.large.xferLength ≠ 0
  stage :
    s.req.missingResources = ⟨true, true, true⟩ ∧
        s.credits = 0 ∧ s.regions = [] ∧ s.pulls = [] ∨
      s.req.missingResources = ⟨false, true, true⟩ ∧
        s.credits = 1 ∧ s.regions = [] ∧ s.pulls = [] ∨
      ∃ region handle, s.req.missingResources = ⟨false, false, handle⟩ ∧
        s.credits = 1 ∧ s.regions = [region] ∧ s.pulls ≠ [] ∧ Gets g s.req.large region ∧
        ∀ pull ∈ s.pulls, Undisturbed g s.req.large region pull
  handles : s.handles = if s.req.missingResources.pullHandle then 0 else 1
  needResources : s.req.needResources = s.req.missingResources.pullHandle

namespace Waits

variable {g : Globals} {s : State} {env : Env} {ep : Endpoint} {req : PullReq}
  {region availExpEvents : ℕ} {got : Option ℕ}

/-- An attempt that comes to `need_pull` with the region that the request has. -/
theorem needPull (hlength : req.large.xferLength ≠ 0)
    (hmissing : req.missingResources = ⟨false, false, true⟩)
    (hcredits : s.credits + (env.availExpEvents - availExpEvents) = 1)
    (hregions : s.regions ++ got.toList = [region]) (hhandles : s.handles = 0)
    (hgets : Gets g req.large region)
    (hpulls : ∀ pull ∈ s.pulls, Undisturbed g req.large region pull) :
    Waits g (s.after env (Resume.needPull env ep availExpEvents got region req).enqueue) := by
  have hlarge : (Resume.needPull env ep availExpEvents got region req).req.large = req.large :=
    needPull_large
  have hmissing' : (Resume.needPull env ep availExpEvents got region req).req.missingResources =
      ⟨false, false, !env.accepts⟩ := by
    rw [needPull_missing, hmissing, Bool.true_and]
  have hnew : s.pulls ++ (Resume.needPull env ep availExpEvents got region req).ioctl.toList =
      s.pulls ++ [pullParam env req.large region] := by
    rw [needPull_ioctl]
    rfl
  refine
    { xferLength := hlarge.symm ▸ hlength
      stage := .inr (.inr ⟨region, !env.accepts, hmissing', ?_, ?_, ?_, ?_, fun pull hpull => ?_⟩)
      handles := ?_
      needResources := ?_ }
  · change s.credits + (env.availExpEvents - (Resume.needPull ..).availExpEvents) = 1
    rw [needPull_availExpEvents]
    exact hcredits
  · change s.regions ++ (Resume.needPull ..).got.toList = [region]
    rw [needPull_got]
    exact hregions
  · change s.pulls ++ (Resume.needPull ..).ioctl.toList ≠ []
    rw [hnew]
    exact List.append_ne_nil_of_right_ne_nil _ (List.cons_ne_nil _ _)
  · exact hlarge.symm ▸ hgets
  · have hmem : pull ∈ s.pulls ++ [pullParam env req.large region] := hnew ▸ hpull
    change Undisturbed g (Resume.needPull env ep availExpEvents got region req).req.large _ _
    rw [hlarge]
    rcases List.mem_append.1 hmem with hpull | hpull
    · exact hpulls pull hpull
    · rw [List.mem_singleton.1 hpull]
      exact submitPull_undisturbed hlength hgets env
  · change s.handles + (if (Resume.needPull ..).success then 1 else 0) =
      if (Resume.needPull ..).req.missingResources.pullHandle then 0 else 1
    rw [hmissing', needPull_success, hhandles]
    cases env.accepts <;> rfl
  · change (!(Resume.needPull ..).success) = (Resume.needPull ..).req.missingResources.pullHandle
    rw [hmissing', needPull_success]

/-- An attempt that comes to `need_region`. -/
theorem needRegion (hlength : req.large.xferLength ≠ 0)
    (hmissing : req.missingResources = ⟨false, true, true⟩)
    (hcredits : s.credits + (env.availExpEvents - availExpEvents) = 1) (hregions : s.regions = [])
    (hhandles : s.handles = 0) (hpulls : s.pulls = []) :
    Waits g (s.after env (Resume.needRegion g env availExpEvents req).enqueue) := by
  unfold Resume.needRegion
  split
  · refine ⟨hlength, .inr (.inl ⟨hmissing, hcredits, ?_, ?_⟩), ?_, ?_⟩
    · exact (List.append_nil s.regions).trans hregions
    · exact (List.append_nil s.pulls).trans hpulls
    · change s.handles + 0 = if req.missingResources.pullHandle then 0 else 1
      rw [hmissing, hhandles]
      rfl
    · change true = req.missingResources.pullHandle
      rw [hmissing]
  · rename_i region ep hget
    refine needPull hlength ?_ hcredits ?_ hhandles ⟨env.ep, env.registers, ep, hget⟩ ?_
    · rw [hmissing]
    · rw [hregions]
      rfl
    · rw [hpulls]
      exact fun _ hpull => absurd hpull List.not_mem_nil

/-- An attempt that begins at `need_exp_event`. -/
theorem needExpEvent (hlength : req.large.xferLength ≠ 0)
    (hmissing : req.missingResources = ⟨true, true, true⟩) (hcredits : s.credits = 0)
    (hregions : s.regions = []) (hhandles : s.handles = 0) (hpulls : s.pulls = []) :
    Waits g (s.after env (Resume.needExpEvent g env req).enqueue) := by
  rw [Resume.needExpEvent]
  split
  · refine ⟨hlength, .inl ⟨hmissing, ?_, ?_, ?_⟩, ?_, ?_⟩
    · change s.credits + (env.availExpEvents - env.availExpEvents) = 0
      rw [hcredits, Nat.sub_self]
    · exact (List.append_nil s.regions).trans hregions
    · exact (List.append_nil s.pulls).trans hpulls
    · change s.handles + 0 = if req.missingResources.pullHandle then 0 else 1
      rw [hmissing, hhandles]
      rfl
    · change true = req.missingResources.pullHandle
      rw [hmissing]
  · refine needRegion hlength ?_ ?_ hregions hhandles hpulls
    · rw [hmissing]
    · rw [hcredits]
      omega

end Waits

/-- A request is not submitted yet, or has what it does not miss. -/
structure Stage (g : Globals) (s : State) : Prop where
  start : s.submitted = false → s = .init s.req
  waits : s.submitted = true → Waits g s

/-- An attempt that begins at `need_pull` finds the region of the request where `region` points. -/
def FindsRegion (s : State) (env : Env) : Prop :=
  s.submitted = true → s.req.missingResources = ⟨false, false, true⟩ → s.regions = [env.garbage]

variable {g : Globals} {s s' : State} {env : Env}

theorem Stage.init (req : PullReq) : Stage g (.init req) := ⟨fun _ => rfl, nofun⟩

theorem Stage.step (h : Stage g s) (hfinds : FindsRegion s env) (hstep : s.step g env = some s') :
    Stage g s' := by
  obtain ⟨attempt, hattempt, rfl⟩ := Option.map_eq_some_iff.1 hstep
  refine ⟨nofun, fun _ => ?_⟩
  cases hsubmitted : s.submitted with
  | false =>
      rw [hsubmitted, if_neg Bool.false_ne_true, submitPull] at hattempt
      split at hattempt
      · exact nomatch hattempt
      · rename_i hlength
        cases hattempt
        have hstart := h.start hsubmitted
        rw [hstart]
        exact Waits.needExpEvent hlength rfl rfl rfl rfl rfl
  | true =>
      have hwaits := h.waits hsubmitted
      rw [hsubmitted, if_pos rfl, processDelayed] at hattempt
      split at hattempt
      · rename_i hneed
        have hhandle : s.req.missingResources.pullHandle = true :=
          hwaits.needResources.symm.trans hneed
        have hhandles := hwaits.handles
        rw [hhandle, if_pos rfl] at hhandles
        obtain ⟨attempt', halloc, rfl⟩ := Option.map_eq_some_iff.1 hattempt
        rcases hwaits.stage with ⟨hmissing, hcredits, hregions, hpulls⟩ |
          ⟨hmissing, hcredits, hregions, hpulls⟩ |
          ⟨region, handle, hmissing, hcredits, hregions, -, hgets, hpulls⟩
        · have hmissing : s.req.dequeue.missingResources = ⟨true, true, true⟩ := hmissing
          rw [allocSetupPull_needExpEvent hmissing] at halloc
          cases halloc
          exact Waits.needExpEvent hwaits.xferLength hmissing hcredits hregions hhandles hpulls
        · have hmissing : s.req.dequeue.missingResources = ⟨false, true, true⟩ := hmissing
          rw [allocSetupPull_needRegion hmissing] at halloc
          cases halloc
          refine Waits.needRegion hwaits.xferLength hmissing ?_ hregions hhandles hpulls
          rw [Nat.sub_self]
          exact hcredits
        · rw [hmissing] at hhandle
          cases hhandle
          have hmissing' : s.req.dequeue.missingResources = ⟨false, false, true⟩ := hmissing
          rw [allocSetupPull_needPull hmissing'] at halloc
          cases halloc
          have hfound := hfinds hsubmitted hmissing
          have hregion : region = env.garbage := by
            rw [hregions] at hfound
            exact List.singleton_inj.1 hfound
          rw [← hregion]
          refine Waits.needPull hwaits.xferLength hmissing' ?_ ?_ hhandles hgets hpulls
          · rw [Nat.sub_self]
            exact hcredits
          · rw [hregions]
            rfl
      · exact nomatch hattempt

/-- An attempt that finds all that the request misses. -/
theorem Waits.resumes (h : Waits g s) (hsubmitted : s.submitted = true)
    (hneed : s.req.needResources = true)
    (hcredit : s.req.missingResources.expEvent = true → 0 < env.availExpEvents)
    (hregion : s.req.missingResources.largeRegion = true →
      ((env.ep.getRegion g s.req.large.segs none env.registers).1).isSome)
    (haccepts : env.accepts = true) :
    ∃ s', s.step g env = some s' ∧ s'.req.needResources = false := by
  have hhandle : s.req.missingResources.pullHandle = true := h.needResources.symm.trans hneed
  -- an attempt that succeeds takes the request out of the queue
  have hdone : ∀ attempt, allocSetupPull g env s.req.dequeue =
      some attempt → attempt.success = true →
      ∃ s', s.step g env = some s' ∧ s'.req.needResources = false := by
    intro attempt halloc hsuccess
    refine ⟨s.after env attempt.enqueue, ?_, congrArg not hsuccess⟩
    rw [State.step, if_pos hsubmitted, processDelayed, if_pos hneed, halloc]
    rfl
  have hneedRegion : ∀ (availExpEvents : ℕ) (req : PullReq), req.large = s.req.large →
      s.req.missingResources.largeRegion = true →
      (Resume.needRegion g env availExpEvents req).success = true := by
    intro availExpEvents req hlarge hmissing
    unfold Resume.needRegion
    rw [hlarge]
    have hsome := hregion hmissing
    split
    · rename_i ep hget
      rw [hget] at hsome
      exact nomatch hsome
    · rw [needPull_success]
      exact haccepts
  rcases h.stage with ⟨hmissing, -⟩ | ⟨hmissing, -⟩ | ⟨region, handle, hmissing, -⟩
  · have hpos := hcredit (by rw [hmissing])
    refine hdone _ (allocSetupPull_needExpEvent hmissing) ?_
    rw [Resume.needExpEvent, if_neg (by omega)]
    exact hneedRegion _ _ rfl (by rw [hmissing])
  · exact hdone _ (allocSetupPull_needRegion hmissing) (hneedRegion _ _ rfl (by rw [hmissing]))
  · rw [hmissing] at hhandle
    cases hhandle
    exact hdone _ (allocSetupPull_needPull hmissing) (needPull_success.trans haccepts)

theorem Stage.resumed (h : Stage g s) : Resumed g s := by
  cases hsubmitted : s.submitted with
  | false =>
      have hno : ∀ {p : Prop}, s.submitted = true → p := fun htrue =>
        by cases hsubmitted.symm.trans htrue
      refine ⟨fun pull hpull => ?_, hno, hno, hno, hno, hno⟩
      rw [h.start hsubmitted] at hpull
      exact absurd hpull List.not_mem_nil
  | true =>
      have hwaits := h.waits hsubmitted
      refine ⟨fun pull hpull => ?_, fun _ => ?_, fun _ => ?_, fun _ => hwaits.handles,
        fun _ hneed => ?_, fun hs hneed env => hwaits.resumes hs hneed⟩
      · rcases hwaits.stage with ⟨-, -, -, hpulls⟩ | ⟨-, -, -, hpulls⟩ |
          ⟨region, handle, -, -, hregions, -, -, hpulls⟩
        · rw [hpulls] at hpull
          exact absurd hpull List.not_mem_nil
        · rw [hpulls] at hpull
          exact absurd hpull List.not_mem_nil
        · exact ⟨region, hregions, hpulls pull hpull⟩
      · rcases hwaits.stage with ⟨hmissing, hcredits, -⟩ | ⟨hmissing, hcredits, -⟩ |
          ⟨region, handle, hmissing, hcredits, -⟩
        all_goals rw [hmissing, hcredits]; rfl
      · rcases hwaits.stage with ⟨hmissing, -, hregions, -⟩ | ⟨hmissing, -, hregions, -⟩ |
          ⟨region, handle, hmissing, -, hregions, -⟩
        all_goals rw [hmissing, hregions]; rfl
      · have hhandle := hwaits.needResources.symm.trans hneed
        rcases hwaits.stage with ⟨hmissing, -⟩ | ⟨hmissing, -⟩ |
          ⟨region, handle, hmissing, -, -, hpulls, -⟩
        · rw [hmissing] at hhandle
          cases hhandle
        · rw [hmissing] at hhandle
          cases hhandle
        · rw [hmissing] at hhandle
          cases hhandle
          exact ⟨hmissing, hpulls⟩

/-- In every state of a run the pulls are those of an undisturbed submission with the region that
the request took, and each resource was taken once, exactly when no attempt begins at `need_pull`
but with the region of the request where `region` happens to point. -/
theorem pull_resumed_iff (g : Globals) (req : PullReq) (as : List Env) :
    (∀ bs, bs <+: as → ∀ s, (machine g req).exec (machine g req).init bs = some s →
      Resumed g s) ↔ (machine g req).Meets FindsRegion (machine g req).init as := by
  refine (Machine.meets_iff_forall_prefix (fun s env s' hs hok hstep => hs.step hok hstep)
    (fun s hs => hs.resumed) (fun s env hs => ⟨fun hok s' hstep => (hs.step hok hstep).resumed,
      fun hresumed hsubmitted hmissing => ?_⟩) (Stage.init req)).symm
  have hwaits := hs.waits hsubmitted
  have hneed : s.req.needResources = true := by
    rw [hwaits.needResources, hmissing]
  have hmissing' : s.req.dequeue.missingResources = ⟨false, false, true⟩ := hmissing
  -- the attempt issues a pull with what it finds
  have hstep : s.step g env = some (s.after env (needPull env env.ep env.availExpEvents none
      env.garbage s.req.dequeue).enqueue) := by
    rw [State.step, if_pos hsubmitted, processDelayed, if_pos hneed,
      allocSetupPull_needPull hmissing']
    rfl
  obtain ⟨region, hregions, hundisturbed⟩ :=
    (hresumed _ hstep).pulls (pullParam env s.req.large env.garbage) <| by
      change _ ∈ s.pulls ++ (needPull ..).ioctl.toList
      rw [needPull_ioctl]
      exact List.mem_append_right _ (List.mem_singleton_self _)
  have hregions' : s.regions ++ [] = [region] := by
    have hgot : (needPull env env.ep env.availExpEvents none env.garbage
      s.req.dequeue).got = none := needPull_got
    change s.regions ++ (needPull ..).got.toList = [region] at hregions
    rw [hgot] at hregions
    exact hregions
  rw [← List.append_nil s.regions, hregions', ← hundisturbed.region_eq]
  rfl

/-- A pull of one buffer, to which a partner answers. -/
def bufferPull : PullReq where
  large := ⟨.ofSingle 0 65536, 65536, 3, 1, 0, 4096⟩
  missingResources := ⟨false, false, false⟩
  needResources := false
  driverPulling := false
  localRegion := none

/-- An attempt of an endpoint that has all it needs; the variable is left with a 7. -/
def plenty (accepts : Bool) : Env where
  ep := .init fun _ => ⟨0, .ofSingle 0 0, none⟩
  availExpEvents := 1
  partner := ⟨1, 0, false, 42⟩
  pullResendTimeoutJiffies := 1000
  registers := true
  accepts := accepts
  garbage := 7

/-- The driver has no handle at first, and the next attempt issues the pull with region 7. -/
theorem pull_not_resumed :
    ¬ ∀ (g : Globals) (req : PullReq) (as : List Env) (s : State),
      (machine g req).exec (machine g req).init as = some s → Resumed g s := by
  intro hresumed
  obtain ⟨s, hexec, hregions, hpull⟩ : ∃ s,
      (machine ⟨true, false⟩ bufferPull).exec (machine ⟨true, false⟩ bufferPull).init
        [plenty false, plenty true] = some s ∧ s.regions = [0] ∧
      pullParam (plenty true) bufferPull.large 7 ∈ s.pulls :=
    ⟨_, rfl, rfl, List.mem_cons_of_mem _ (List.mem_cons_self ..)⟩
  obtain ⟨region, hregion, hundisturbed⟩ := (hresumed _ _ _ _ hexec).pulls _ hpull
  have hseven : (7 : ℕ) = region := hundisturbed.region_eq
  rw [hregions, ← hseven] at hregion
  exact nomatch hregion

end Xen2mx.Regcache.Resume
