/-
# `Xen2mx.Resend.Order` — the queues that are scanned are in the order of the last sends

A scan stops at the first request that was sent recently enough.  It misses no other if the queue is
in the order of the stamps, and the first request then has the date to wake up for.

    who comes to the tail                       its stamp
    a request that is posted                    now
    a medium of which no fragment was taken     older, or none
    a medium that the driver has done with      older, from when it was posted
    a send that was acked, to the need-reply    older

**Proved here.**

    what a post does to the stamp                                     (`post_spec`)
    the scans keep the order, and what they leave was sent recently   (`resendLoop_rest`, `reconnectLoop_base`)
    what the need-reply queue holds was acked, in the order of the acks   (`machine_needReply`)
    the connect queue is in order in every run; the non-acked queue is if each medium is posted in part
    at least, and comes back from the driver before any later send    (`machine_inOrder`)
    it is not otherwise, and a scan then misses a request; and acks that cross leave the need-reply
    queue out of the order of the stamps                              (`machine_not_inOrder`)
-/
import Xen2mx.Lib.Fifo
import Xen2mx.Resend.Queues

namespace Xen2mx.Resend

variable {c : Config} {ep ep' : Endpoint} {now : ℕ} {req req' : Req}

/-! ## A post -/

/-- A post leaves the queues alone.  It stamps the request, if it is not a medium of which no
fragment is taken; what is in the driver is stamped. -/
theorem post_spec {accepted : ℕ} (h : ep.post accepted req = some (ep', req')) :
    (∃ n, ep' = { ep with availExpEvents := n }) ∧ req'.partner = req.partner ∧
      (req.driverMediumsqSending = false → req'.driverMediumsqSending = true →
        req'.lastSendJiffies = ep.jiffies) ∧
      ((req.type = .sendMediumsq → req.fragsNr ≠ 0 → accepted ≠ 0) →
        req'.lastSendJiffies = ep.jiffies) := by
  rw [Endpoint.post] at h
  split at h
  · rename_i htype
    unfold Endpoint.postIsendMediumsq at h
    dsimp only at h
    split at h
    · rename_i hlt
      split at h
      · exact nomatch h
      · split at h
        · rename_i hzero
          cases h
          refine ⟨⟨_, rfl⟩, rfl, fun hdriver hsending => ?_, fun hstamped => ?_⟩
          · exact absurd (hdriver.symm.trans hsending) Bool.false_ne_true
          · have haccepted := hstamped htype (by omega)
            omega
        · cases h
          exact ⟨⟨_, rfl⟩, rfl, fun _ _ => rfl, fun _ => rfl⟩
    · cases h
      exact ⟨⟨_, rfl⟩, rfl, fun _ _ => rfl, fun _ => rfl⟩
  · cases h
    exact ⟨⟨_, rfl⟩, rfl, fun _ _ => rfl, fun _ => rfl⟩

/-! ## What every run keeps -/

/-- What was sent by now may be due, or not, as the dates say. -/
theorem expired_iff (hle : req.lastSendJiffies ≤ now) (hnow : now < 2 ^ 64) :
    Expired c now req ↔ req.lastSendJiffies + c.resendDelayJiffies ≤ now := by
  have hmod : (now + 2 ^ 64 - req.lastSendJiffies) % 2 ^ 64 = now - req.lastSendJiffies := by
    rw [Nat.sub_add_comm hle, Nat.add_mod_right, Nat.mod_eq_of_lt (by omega)]
  rw [Expired, hmod]
  omega

/-- In the midst of a scan that began at `now`: what is in the driver has a stamp, and the connect
queue is in order. -/
structure Base (now : ℕ) (ep : Endpoint) : Prop where
  now_le : now ≤ ep.jiffies
  driver : ∀ req ∈ ep.driverMediumsqSendingReqQ, req.lastSendJiffies ≤ ep.jiffies
  sending : ∀ req ∈ ep.nonAckedReqQ, req.driverMediumsqSending = false
  connect : Stamped Req.lastSendJiffies now ep.connectReqQ

namespace Base

theorem tick (h : Base now ep) (n : ℕ) : Base now (ep.tick n) where
  now_le := h.now_le.trans (Nat.le_add_right _ _)
  driver := fun req hreq => (h.driver req hreq).trans (Nat.le_add_right _ _)
  sending := h.sending
  connect := h.connect

theorem cleanup (h : Base now ep) (partner : ℕ) : Base now (ep.partnerCleanup partner) where
  now_le := h.now_le
  driver := fun req hreq => by
    obtain ⟨req', hreq', rfl⟩ := List.mem_map.1 hreq
    split
    · exact h.driver req' hreq'
    · exact h.driver req' hreq'
  sending := fun req hreq => h.sending req (List.mem_filter.1 hreq).1
  connect := h.connect.sublist List.filter_sublist

end Base

/-! ## The scans -/

section
variable {expired : Req → Bool} {accepted elapsed : ℕ → ℕ} {tmp tmp' : List Req}

/-- What every round of the first scan keeps, the scan keeps; where it leaves the rest because of
the time, the first of the rest is not due. -/
theorem resendLoop_invariant {I : Endpoint → List Req → Prop}
    (hcleanup : ∀ ep tmp partner, I ep tmp →
      I (ep.partnerCleanup partner) (Endpoint.others partner tmp))
    (hpost : ∀ ep tmp req queue n events ep' req', I ep tmp → ep.nonAckedReqQ = req :: queue →
      Endpoint.post { ep.tick n with availExpEvents := events } (accepted req.id) req =
        some (ep', req') →
      if req'.driverMediumsqSending then
        I { ep' with
            nonAckedReqQ := queue
            driverMediumsqSendingReqQ := ep'.driverMediumsqSendingReqQ ++ [req'] } tmp
      else I { ep' with nonAckedReqQ := queue } (tmp ++ [req']))
    {timed : Bool} (hI : I ep tmp)
    (hloop : ep.resendLoop expired accepted elapsed tmp = some (ep', tmp', timed)) :
    I ep' tmp' ∧ (timed = true →
      ∀ req queue, ep'.nonAckedReqQ = req :: queue → expired req = false) := by
  fun_induction Endpoint.resendLoop expired accepted elapsed ep tmp with
  | case1 ep tmp hq =>
      cases hloop
      exact ⟨hI, fun _ req queue hq' => nomatch hq.symm.trans hq'⟩
  | case2 ep tmp req queue hq hnot =>
      cases hloop
      refine ⟨hI, fun _ req' queue' hq' => ?_⟩
      cases hq.symm.trans hq'
      simpa using hnot
  | case3 ep tmp req queue hq hexpired hmax ih => exact ih (hcleanup _ _ _ hI) hloop
  | case4 ep tmp req queue hq hexpired hmax hevents =>
      cases hloop
      exact ⟨hI, nofun⟩
  | case5 => exact nomatch hloop
  | case6 ep tmp req queue hq hexpired hmax hevents ep₁ events ep₂ req' hpost' hsending ih =>
      have hI' := hpost _ _ _ _ _ _ _ _ hI hq hpost'
      rw [if_pos hsending] at hI'
      exact ih hI' hloop
  | case7 ep tmp req queue hq hexpired hmax hevents ep₁ events ep₂ req' hpost' hsending ih =>
      have hI' := hpost _ _ _ _ _ _ _ _ hI hq hpost'
      rw [if_neg hsending] at hI'
      exact ih hI' hloop

/-- The same of the second scan. -/
theorem reconnectLoop_invariant {I : Endpoint → List Req → Prop}
    (hcleanup : ∀ ep tmp partner, I ep tmp →
      I (ep.partnerCleanup partner) (Endpoint.others partner tmp))
    (hpost : ∀ ep tmp req queue n, I ep tmp → ep.connectReqQ = req :: queue →
      I { ep.tick n with connectReqQ := queue } (tmp ++ [req.sent (ep.tick n).jiffies]))
    (hI : I ep tmp) (hloop : ep.reconnectLoop expired elapsed tmp = (ep', tmp')) :
    I ep' tmp' ∧ ∀ req queue, ep'.connectReqQ = req :: queue → expired req = false := by
  fun_induction Endpoint.reconnectLoop expired elapsed ep tmp with
  | case1 ep tmp hq =>
      cases hloop
      exact ⟨hI, fun req queue hq' => nomatch hq.symm.trans hq'⟩
  | case2 ep tmp req queue hq hnot =>
      cases hloop
      refine ⟨hI, fun req' queue' hq' => ?_⟩
      cases hq.symm.trans hq'
      simpa using hnot
  | case3 ep tmp req queue hq hexpired hmax ih => exact ih (hcleanup _ _ _ hI) hloop
  | case4 ep tmp req queue hq hexpired hmax ep₁ ih =>
      exact ih (hpost _ _ _ _ _ hI hq) hloop

theorem resendLoop_base {timed : Bool} (h : Base now ep)
    (hloop : ep.resendLoop expired accepted elapsed [] = some (ep', tmp', timed)) :
    Base now ep' ∧ ∀ req ∈ tmp', req.driverMediumsqSending = false := by
  refine (resendLoop_invariant
    (I := fun ep tmp => Base now ep ∧ ∀ req ∈ tmp, req.driverMediumsqSending = false)
    ?_ ?_ ⟨h, fun _ hx => absurd hx List.not_mem_nil⟩ hloop).1
  · rintro ep tmp partner ⟨hbase, htmp⟩
    exact ⟨hbase.cleanup partner, fun req hreq => htmp req (List.mem_filter.1 hreq).1⟩
  · rintro ep tmp req queue n events ep' req' ⟨hbase, htmp⟩ hq hpost
    obtain ⟨⟨events', rfl⟩, -, hstamped, -⟩ := post_spec hpost
    have hstamped := hstamped (hbase.sending req (hq ▸ List.mem_cons_self ..))
    have hqueue : ∀ x ∈ queue, x.driverMediumsqSending = false := fun x hx =>
      hbase.sending x (hq ▸ List.mem_cons_of_mem _ hx)
    have htick := hbase.tick n
    split
    · rename_i hsending
      refine ⟨⟨htick.now_le, fun x hx => ?_, hqueue, htick.connect⟩, htmp⟩
      rcases List.mem_append.1 hx with hx | hx
      · exact htick.driver x hx
      · rw [List.mem_singleton.1 hx]
        exact (hstamped hsending).le
    · rename_i hsending
      refine ⟨⟨htick.now_le, htick.driver, hqueue, htick.connect⟩, fun x hx => ?_⟩
      rcases List.mem_append.1 hx with hx | hx
      · exact htmp x hx
      · rw [List.mem_singleton.1 hx]
        exact Bool.eq_false_iff.2 hsending

/-- In the midst of the first scan: the rest is in order, and what was posted came after it. -/
structure Rest (now : ℕ) (accepted : ℕ → ℕ) (ep : Endpoint) (tmp : List Req) : Prop where
  now_le : now ≤ ep.jiffies
  rest : Stamped Req.lastSendJiffies now ep.nonAckedReqQ
  posted : Stamped Req.lastSendJiffies ep.jiffies tmp
  later : ∀ req ∈ tmp, now ≤ req.lastSendJiffies
  /-- The driver takes a fragment at least of each medium of the rest. -/
  accepted : ∀ req ∈ ep.nonAckedReqQ, req.type = .sendMediumsq → req.fragsNr ≠ 0 →
    accepted req.id ≠ 0

theorem resendLoop_rest {timed : Bool} (h : Rest now accepted ep [])
    (hloop : ep.resendLoop expired accepted elapsed [] = some (ep', tmp', timed)) :
    Rest now accepted ep' tmp' ∧ (timed = true →
      ∀ req queue, ep'.nonAckedReqQ = req :: queue → expired req = false) := by
  refine resendLoop_invariant (I := Rest now accepted) ?_ ?_ h hloop
  · intro ep tmp partner hrest
    exact ⟨hrest.now_le, hrest.rest.sublist List.filter_sublist,
      hrest.posted.sublist List.filter_sublist,
      fun req hreq => hrest.later req (List.mem_filter.1 hreq).1,
      fun req hreq => hrest.accepted req (List.mem_filter.1 hreq).1⟩
  · intro ep tmp req queue n events ep' req' hrest hq hpost
    obtain ⟨⟨events', rfl⟩, -, -, hstamped⟩ := post_spec hpost
    have hstamped := hstamped (hrest.accepted req (hq ▸ List.mem_cons_self ..))
    have hnow : now ≤ ep.jiffies + n := hrest.now_le.trans (Nat.le_add_right _ _)
    have hqueue : Stamped Req.lastSendJiffies now queue :=
      (hq ▸ hrest.rest).sublist (List.sublist_cons_self _ _)
    have haccepted : ∀ x ∈ queue, x.type = .sendMediumsq → x.fragsNr ≠ 0 →
        accepted x.id ≠ 0 := fun x hx => hrest.accepted x (hq ▸ List.mem_cons_of_mem _ hx)
    have hposted := hrest.posted.mono (Nat.le_add_right ep.jiffies n)
    split
    · exact ⟨hnow, hqueue, hposted, hrest.later, haccepted⟩
    · refine ⟨hnow, hqueue, hposted.push (fun x hx => ?_) hstamped.le, fun x hx => ?_, haccepted⟩
      · rw [hstamped]
        exact hposted.le x hx
      · rcases List.mem_append.1 hx with hx | hx
        · exact hrest.later x hx
        · rw [List.mem_singleton.1 hx, hstamped]
          exact hnow

/-- In the midst of the second scan: what was posted came after the rest. -/
structure Reconnecting (now : ℕ) (ep : Endpoint) (tmp : List Req) : Prop where
  base : Base now ep
  posted : Stamped Req.lastSendJiffies ep.jiffies tmp
  later : ∀ req ∈ tmp, now ≤ req.lastSendJiffies

theorem reconnectLoop_base (h : Base now ep)
    (hloop : ep.reconnectLoop expired elapsed [] = (ep', tmp')) :
    Reconnecting now ep' tmp' ∧
      ∀ req queue, ep'.connectReqQ = req :: queue → expired req = false := by
  refine reconnectLoop_invariant (I := Reconnecting now) ?_ ?_ ⟨h, .nil, nofun⟩ hloop
  · intro ep tmp partner hre
    exact ⟨hre.base.cleanup partner, hre.posted.sublist List.filter_sublist,
      fun req hreq => hre.later req (List.mem_filter.1 hreq).1⟩
  · intro ep tmp req queue n hre hq
    have htick := hre.base.tick n
    have hposted := hre.posted.mono (Nat.le_add_right ep.jiffies n)
    refine ⟨⟨htick.now_le, htick.driver, htick.sending, ?_⟩,
      hposted.push (fun x hx => hposted.le x hx) le_rfl, fun x hx => ?_⟩
    · exact (hq ▸ hre.base.connect).sublist (List.sublist_cons_self _ _)
    · rcases List.mem_append.1 hx with hx | hx
      · exact hre.later x hx
      · rw [List.mem_singleton.1 hx]
        exact htick.now_le

/-- The non-acked queue is in the order of the last sends. -/
def NonAckedInOrder (ep : Endpoint) : Prop :=
  Stamped Req.lastSendJiffies ep.jiffies ep.nonAckedReqQ

/-- The second scan keeps the order of the non-acked queue. -/
theorem reconnectLoop_nonAcked (h : NonAckedInOrder ep)
    (hloop : ep.reconnectLoop expired elapsed tmp = (ep', tmp')) : NonAckedInOrder ep' := by
  refine (reconnectLoop_invariant (I := fun ep _ => NonAckedInOrder ep) ?_ ?_ h hloop).1
  · exact fun ep tmp partner hep => Stamped.sublist hep List.filter_sublist
  · exact fun ep tmp req queue n hep hq => Stamped.mono hep (Nat.le_add_right _ _)

end

/-! ## Every step -/

/-- Between two steps. -/
def Steady (ep : Endpoint) : Prop := Base ep.jiffies ep

theorem Base.steady (h : Base now ep) : Steady ep :=
  ⟨le_rfl, h.driver, h.sending, h.connect.mono h.now_le⟩

theorem Steady.setup {type : ReqType} {partner fragsNr accepted malloc : ℕ} (h : Steady ep)
    (hsetup : ep.setup type partner fragsNr accepted malloc = some ep') : Steady ep' := by
  obtain ⟨-, hsetup⟩ := Option.ite_none_left_eq_some.1 hsetup
  obtain ⟨⟨ep₁, req'⟩, hpost, heq⟩ := Option.map_eq_some_iff.1 hsetup
  obtain ⟨⟨n, rfl⟩, -, hstamped, -⟩ := post_spec hpost
  dsimp only at heq
  split at heq
  · rename_i hsending
    cases heq
    refine ⟨le_rfl, fun x hx => ?_, h.sending, h.connect⟩
    rcases List.mem_append.1 hx with hx | hx
    · exact h.driver x hx
    · rw [List.mem_singleton.1 hx]
      exact (hstamped rfl hsending).le
  · rename_i hsending
    cases heq
    refine ⟨le_rfl, h.driver, fun x hx => ?_, h.connect⟩
    rcases List.mem_append.1 hx with hx | hx
    · exact h.sending x hx
    · rw [List.mem_singleton.1 hx]
      exact Bool.eq_false_iff.2 hsending

theorem Steady.fragDone {id : ℕ} (h : Steady ep) (hdone : ep.fragDone id = some ep') :
    Steady ep' := by
  obtain ⟨req, hfind, heq⟩ := Option.map_eq_some_iff.1 hdone
  have hreq := h.driver req (List.mem_of_find?_eq_some hfind)
  dsimp only at heq
  split at heq
  · cases heq
    refine ⟨le_rfl, fun x hx => ?_, h.sending, h.connect⟩
    obtain ⟨y, hy, rfl⟩ := List.mem_map.1 hx
    split
    · exact hreq
    · exact h.driver y hy
  · split at heq
    · cases heq
      refine ⟨le_rfl, fun x hx => h.driver x (List.mem_filter.1 hx).1, fun x hx => ?_, h.connect⟩
      rcases List.mem_append.1 hx with hx | hx
      · exact h.sending x hx
      · rw [List.mem_singleton.1 hx]
    · cases heq
      exact ⟨le_rfl, fun x hx => h.driver x (List.mem_filter.1 hx).1, h.sending, h.connect⟩

theorem Steady.markRequestAcked (h : Steady ep) (id : ℕ) (success : Bool) :
    Steady (ep.markRequestAcked id success) := by
  unfold Endpoint.markRequestAcked
  split
  · exact ⟨le_rfl, h.driver, fun x hx => h.sending x (List.mem_filter.1 hx).1, h.connect⟩
  · refine ⟨le_rfl, fun x hx => ?_, h.sending, h.connect⟩
    obtain ⟨y, hy, rfl⟩ := List.mem_map.1 hx
    split
    · exact h.driver y hy
    · exact h.driver y hy

theorem Steady.processRecvNotify (h : Steady ep) (id : ℕ) : Steady (ep.processRecvNotify id) := by
  refine ⟨le_rfl, h.driver, fun x hx => ?_, h.connect⟩
  obtain ⟨y, hy, rfl⟩ := List.mem_map.1 hx
  split
  · exact h.sending y hy
  · exact h.sending y hy

/-- The two scans. -/
theorem processResendRequests_cases {accepted elapsed : ℕ → ℕ}
    (h : ep.processResendRequests c accepted elapsed = some ep') :
    ∃ ep₁ tmp₁ timed ep₂ tmp₂,
      ep.resendLoop (fun req => Expired c ep.jiffies req) accepted elapsed [] =
        some (ep₁, tmp₁, timed) ∧
      Endpoint.reconnectLoop (fun req => Expired c ep.jiffies req) elapsed
        { ep₁ with nonAckedReqQ := ep₁.nonAckedReqQ ++ tmp₁ } [] = (ep₂, tmp₂) ∧
      ep' = { ep₂ with connectReqQ := ep₂.connectReqQ ++ tmp₂ } := by
  obtain ⟨⟨ep₁, tmp₁, timed⟩, hloop, heq⟩ := Option.map_eq_some_iff.1 h
  exact ⟨ep₁, tmp₁, timed, _, _, hloop, rfl, heq.symm⟩

theorem Steady.processResendRequests {accepted elapsed : ℕ → ℕ} (h : Steady ep)
    (hresend : ep.processResendRequests c accepted elapsed = some ep') : Steady ep' := by
  obtain ⟨ep₁, tmp₁, timed, ep₂, tmp₂, hloop, hloop₂, rfl⟩ := processResendRequests_cases hresend
  obtain ⟨hbase₁, htmp₁⟩ := resendLoop_base h hloop
  have hspliced : Base ep.jiffies { ep₁ with nonAckedReqQ := ep₁.nonAckedReqQ ++ tmp₁ } := by
    refine ⟨hbase₁.now_le, hbase₁.driver, fun x hx => ?_, hbase₁.connect⟩
    rcases List.mem_append.1 hx with hx | hx
    · exact hbase₁.sending x hx
    · exact htmp₁ x hx
  obtain ⟨hre, -⟩ := reconnectLoop_base hspliced hloop₂
  refine ⟨le_rfl, hre.base.driver, hre.base.sending, ?_⟩
  exact hre.base.connect.append hre.posted hre.base.now_le fun x hx y hy =>
    (hre.base.connect.le x hx).trans (hre.later y hy)

theorem Steady.act {a : Action} (h : Steady ep) (hact : ep.act c a = some ep') : Steady ep' := by
  cases a with
  | tick n =>
      cases hact
      exact (h.tick n).steady
  | setup type partner fragsNr accepted malloc => exact h.setup hact
  | connect partner =>
      cases hact
      refine ⟨le_rfl, h.driver, h.sending, ?_⟩
      exact h.connect.push (fun x hx => h.connect.le x hx) le_rfl
  | connectReply id =>
      cases hact
      exact ⟨le_rfl, h.driver, h.sending, h.connect.sublist List.filter_sublist⟩
  | fragDone id => exact h.fragDone hact
  | ack id success =>
      cases hact
      exact h.markRequestAcked id success
  | notify id =>
      cases hact
      exact h.processRecvNotify id
  | cleanup partner =>
      cases hact
      exact (h.cleanup partner).steady
  | resend accepted elapsed => exact h.processResendRequests hact

/-! ## The non-acked queue -/

/-- No medium is posted without a fragment, and none comes back from the driver behind a request
that was sent after it. -/
def Timely (ep : Endpoint) : Action → Prop
  | .setup type _ fragsNr accepted _ => type = .sendMediumsq → fragsNr ≠ 0 → accepted ≠ 0
  | .fragDone id => ∀ req ∈ ep.driverMediumsqSendingReqQ, req.id = id → req.fragsPendingNr ≤ 1 →
      req.needAck = true → ∀ req' ∈ ep.nonAckedReqQ, req'.lastSendJiffies ≤ req.lastSendJiffies
  | .resend accepted _ => ∀ req ∈ ep.nonAckedReqQ, req.type = .sendMediumsq → req.fragsNr ≠ 0 →
      accepted req.id ≠ 0
  | _ => True

theorem NonAckedInOrder.setup {type : ReqType} {partner fragsNr accepted malloc : ℕ}
    (h : NonAckedInOrder ep) (htimely : type = .sendMediumsq → fragsNr ≠ 0 → accepted ≠ 0)
    (hsetup : ep.setup type partner fragsNr accepted malloc = some ep') :
    NonAckedInOrder ep' := by
  obtain ⟨-, hsetup⟩ := Option.ite_none_left_eq_some.1 hsetup
  obtain ⟨⟨ep₁, req'⟩, hpost, heq⟩ := Option.map_eq_some_iff.1 hsetup
  obtain ⟨⟨n, rfl⟩, -, -, hstamped⟩ := post_spec hpost
  have hstamped := hstamped htimely
  dsimp only at heq
  split at heq
  · cases heq
    exact h
  · cases heq
    refine Stamped.push h (fun x hx => ?_) hstamped.le
    exact (h.le x hx).trans hstamped.ge

theorem NonAckedInOrder.fragDone {id : ℕ} (h : NonAckedInOrder ep) (hsteady : Steady ep)
    (htimely : Timely ep (.fragDone id)) (hdone : ep.fragDone id = some ep') :
    NonAckedInOrder ep' := by
  obtain ⟨req, hfind, heq⟩ := Option.map_eq_some_iff.1 hdone
  have hmem := List.mem_of_find?_eq_some hfind
  have hid : req.id = id := by simpa using List.find?_some hfind
  dsimp only at heq
  split at heq
  · cases heq
    exact h
  · rename_i hpending
    split at heq
    · rename_i hack
      cases heq
      exact Stamped.push h (htimely req hmem hid (by omega) hack) (hsteady.driver req hmem)
    · cases heq
      exact h

theorem NonAckedInOrder.processResendRequests {accepted elapsed : ℕ → ℕ}
    (h : NonAckedInOrder ep) (htimely : Timely ep (.resend accepted elapsed))
    (hresend : ep.processResendRequests c accepted elapsed = some ep') : NonAckedInOrder ep' := by
  obtain ⟨ep₁, tmp₁, timed, ep₂, tmp₂, hloop, hloop₂, rfl⟩ := processResendRequests_cases hresend
  obtain ⟨hrest, -⟩ := resendLoop_rest
    ⟨le_rfl, h, .nil, fun _ hx => absurd hx List.not_mem_nil, htimely⟩ hloop
  have hspliced : NonAckedInOrder { ep₁ with nonAckedReqQ := ep₁.nonAckedReqQ ++ tmp₁ } :=
    hrest.rest.append hrest.posted hrest.now_le fun x hx y hy =>
      (hrest.rest.le x hx).trans (hrest.later y hy)
  have hnonAcked : NonAckedInOrder ep₂ := reconnectLoop_nonAcked hspliced hloop₂
  exact hnonAcked

theorem NonAckedInOrder.act {a : Action} (h : NonAckedInOrder ep) (hsteady : Steady ep)
    (htimely : Timely ep a) (hact : ep.act c a = some ep') : NonAckedInOrder ep' := by
  cases a with
  | tick n =>
      cases hact
      exact Stamped.mono h (Nat.le_add_right _ _)
  | setup type partner fragsNr accepted malloc => exact h.setup htimely hact
  | connect partner =>
      cases hact
      exact h
  | connectReply id =>
      cases hact
      exact h
  | fragDone id => exact h.fragDone hsteady htimely hact
  | ack id success =>
      cases hact
      unfold Endpoint.markRequestAcked
      split
      · exact Stamped.sublist h List.filter_sublist
      · exact h
  | notify id =>
      cases hact
      refine Stamped.map h fun req => ?_
      split <;> rfl
  | cleanup partner =>
      cases hact
      exact Stamped.sublist h List.filter_sublist
  | resend accepted elapsed => exact h.processResendRequests htimely hact

/-! ## The queue of the sends that need a reply -/

/-- The scans take from the queue only what the cleanup of a partner takes. -/
theorem processResendRequests_needReply {accepted elapsed : ℕ → ℕ}
    (h : ep.processResendRequests c accepted elapsed = some ep') :
    ep'.largeSendNeedReplyReqQ.Sublist ep.largeSendNeedReplyReqQ := by
  obtain ⟨ep₁, tmp₁, timed, ep₂, tmp₂, hloop, hloop₂, rfl⟩ := processResendRequests_cases h
  let I : Endpoint → List Req → Prop := fun ep₁ _ =>
    ep₁.largeSendNeedReplyReqQ.Sublist ep.largeSendNeedReplyReqQ
  have hcleanup : ∀ ep₁ tmp partner, I ep₁ tmp →
      I (ep₁.partnerCleanup partner) (Endpoint.others partner tmp) :=
    fun ep₁ tmp partner hep => List.filter_sublist.trans hep
  have hfirst : I ep₁ tmp₁ := by
    refine (resendLoop_invariant hcleanup ?_ (List.Sublist.refl _) hloop).1
    intro ep₁ tmp req queue n events ep₂ req' hep hq hpost
    obtain ⟨⟨events', rfl⟩, -, -, -⟩ := post_spec hpost
    split
    · exact hep
    · exact hep
  have hspliced : I { ep₁ with nonAckedReqQ := ep₁.nonAckedReqQ ++ tmp₁ } [] := hfirst
  exact (reconnectLoop_invariant (I := I) hcleanup (fun ep₁ tmp req queue n hep hq => hep)
    hspliced hloop₂).1

/-- Every step filters the queue, and an ack comes to its tail first. -/
theorem Endpoint.act_needReply {a : Action} (hact : ep.act c a = some ep') :
    ep'.largeSendNeedReplyReqQ.Sublist (ep.largeSendNeedReplyReqQ ++ ep.ackedLarge a) := by
  have hkept : ∀ {ep' : Endpoint},
      ep'.largeSendNeedReplyReqQ = ep.largeSendNeedReplyReqQ →
      ep'.largeSendNeedReplyReqQ.Sublist (ep.largeSendNeedReplyReqQ ++ ep.ackedLarge a) :=
    fun heq => heq ▸ List.sublist_append_left _ _
  cases a with
  | tick n | connect partner | connectReply id =>
      cases hact
      exact hkept rfl
  | setup type partner fragsNr accepted malloc =>
      obtain ⟨-, hsetup⟩ := Option.ite_none_left_eq_some.1 hact
      obtain ⟨⟨ep₁, req'⟩, hpost, heq⟩ := Option.map_eq_some_iff.1 hsetup
      obtain ⟨⟨n, rfl⟩, -, -, -⟩ := post_spec hpost
      dsimp only at heq
      split at heq
      · cases heq
        exact hkept rfl
      · cases heq
        exact hkept rfl
  | fragDone id =>
      obtain ⟨req, -, heq⟩ := Option.map_eq_some_iff.1 hact
      dsimp only at heq
      split at heq
      · cases heq
        exact hkept rfl
      · split at heq
        · cases heq
          exact hkept rfl
        · cases heq
          exact hkept rfl
  | ack id success =>
      cases hact
      cases success with
      | false =>
          refine hkept ?_
          unfold Endpoint.markRequestAcked
          split <;> simp
      | true =>
          unfold Endpoint.markRequestAcked
          split
          · rename_i req hfind
            simp only [true_and, Endpoint.ackedLarge, hfind, Option.toList_some]
            split
            · rename_i hlarge
              simp [hlarge]
            · rename_i hlarge
              exact List.sublist_append_left _ _
          · exact hkept rfl
  | notify id =>
      cases hact
      exact List.filter_sublist.trans (List.sublist_append_left _ _)
  | cleanup partner =>
      cases hact
      exact List.filter_sublist.trans (List.sublist_append_left _ _)
  | resend accepted elapsed =>
      exact (processResendRequests_needReply hact).trans (List.sublist_append_left _ _)

/-! ## What is left to the next scan -/

def Sorted (queue : List Req) : Prop :=
  queue.Pairwise fun req req' => req.lastSendJiffies ≤ req'.lastSendJiffies

/-- The first of a queue that is in order is due before the others. -/
theorem not_expired_of_head {queue : List Req} (h : Stamped Req.lastSendJiffies now queue)
    (hnow : now < 2 ^ 64)
    (hhead : ∀ req queue', queue = req :: queue' → ¬ Expired c now req) :
    ∀ req ∈ queue, ¬ Expired c now req := by
  cases queue with
  | nil => exact fun _ hreq => absurd hreq List.not_mem_nil
  | cons first queue =>
      have hfirst := hhead first queue rfl
      rw [expired_iff (h.le first (List.mem_cons_self ..)) hnow] at hfirst
      intro req hreq
      rw [expired_iff (h.le req hreq) hnow]
      rcases List.mem_cons.1 hreq with rfl | hreq
      · exact hfirst
      · have hle := h.head_le req hreq
        omega

/-- A scan of the connect queue, with what the scan before it left. -/
def ReconnectScans (c : Config) (ep ep₂ : Endpoint) : Prop :=
  ∃ accepted elapsed ep₁ tmp₁ timed tmp₂,
    ep.resendLoop (fun req => Expired c ep.jiffies req) accepted elapsed [] =
      some (ep₁, tmp₁, timed) ∧
    Endpoint.reconnectLoop (fun req => Expired c ep.jiffies req) elapsed
      { ep₁ with nonAckedReqQ := ep₁.nonAckedReqQ ++ tmp₁ } [] = (ep₂, tmp₂)

/-- A scan of the non-acked queue that "the remaining ones are more recent" ends. -/
def ResendScans (c : Config) (ep ep₁ : Endpoint) : Prop :=
  ∃ accepted elapsed tmp₁,
    ep.resendLoop (fun req => Expired c ep.jiffies req) accepted elapsed [] =
      some (ep₁, tmp₁, true)

/-- The date to wake up at, which there is, is not after that of a request. -/
def WakesFor (c : Config) (ep : Endpoint) (req : Req) : Prop :=
  ∀ oldest, ep.prepareProgressWakeup c oldest ≠ 0 ∧
    ep.prepareProgressWakeup c oldest ≤ req.lastSendJiffies + c.resendDelayJiffies

/-- The connect queue is in order, no scan leaves a request of it that is due, and the library wakes
up for each. -/
structure ConnectInOrder (c : Config) (ep : Endpoint) : Prop where
  sorted : Sorted ep.connectReqQ
  scan : ∀ ep₂, ReconnectScans c ep ep₂ → ∀ req ∈ ep₂.connectReqQ, ¬ Expired c ep.jiffies req
  wakeup : ∀ req ∈ ep.connectReqQ, WakesFor c ep req

/-- The same of the non-acked queue. -/
structure ResendInOrder (c : Config) (ep : Endpoint) : Prop where
  sorted : Sorted ep.nonAckedReqQ
  scan : ∀ ep₁, ResendScans c ep ep₁ → ∀ req ∈ ep₁.nonAckedReqQ, ¬ Expired c ep.jiffies req
  wakeup : ∀ req ∈ ep.nonAckedReqQ, WakesFor c ep req

theorem earlier_le (wakeup : ℕ) {tmp : ℕ} (h : tmp ≠ 0) :
    Endpoint.earlier wakeup tmp ≠ 0 ∧ Endpoint.earlier wakeup tmp ≤ tmp := by
  rw [Endpoint.earlier]
  split <;> omega

theorem earlier_le_left {wakeup tmp : ℕ} (h : wakeup ≠ 0) (htmp : tmp ≠ 0) :
    Endpoint.earlier wakeup tmp ≠ 0 ∧ Endpoint.earlier wakeup tmp ≤ wakeup := by
  rw [Endpoint.earlier]
  split <;> omega

/-- The date of the first request of a queue is one, and does not wrap. -/
theorem wakeupFor_cons {first : Req} {queue : List Req}
    (h : Stamped Req.lastSendJiffies now (first :: queue))
    (hbound : now + c.resendDelayJiffies < 2 ^ 64) (wakeup : ℕ) :
    first.lastSendJiffies + c.resendDelayJiffies ≠ 0 ∧
      Endpoint.wakeupFor c wakeup (first :: queue)
        = Endpoint.earlier wakeup (first.lastSendJiffies + c.resendDelayJiffies) := by
  have hfirst := h.le first (List.mem_cons_self ..)
  have hpos := c.resendDelayJiffies_pos
  have hmod : (first.lastSendJiffies + c.resendDelayJiffies) % 2 ^ 64 =
      first.lastSendJiffies + c.resendDelayJiffies := Nat.mod_eq_of_lt (by omega)
  exact ⟨by omega, by rw [Endpoint.wakeupFor, hmod]⟩

/-- The date for a queue is that of its first request, which is not after the others. -/
theorem wakeupFor_le {queue : List Req} (h : Stamped Req.lastSendJiffies now queue)
    (hbound : now + c.resendDelayJiffies < 2 ^ 64) (wakeup : ℕ) (hreq : req ∈ queue) :
    Endpoint.wakeupFor c wakeup queue ≠ 0 ∧
      Endpoint.wakeupFor c wakeup queue ≤ req.lastSendJiffies + c.resendDelayJiffies := by
  cases queue with
  | nil => exact absurd hreq List.not_mem_nil
  | cons first queue =>
      obtain ⟨hdate, hwakeup⟩ := wakeupFor_cons h hbound wakeup
      obtain ⟨hne, hle⟩ := earlier_le wakeup hdate
      rw [hwakeup]
      refine ⟨hne, hle.trans ?_⟩
      rcases List.mem_cons.1 hreq with rfl | hreq
      · exact le_rfl
      · exact Nat.add_le_add_right (h.head_le req hreq) _

/-- A date that there is becomes no later. -/
theorem wakeupFor_le_left {queue : List Req} (h : Stamped Req.lastSendJiffies now queue)
    (hbound : now + c.resendDelayJiffies < 2 ^ 64) {wakeup : ℕ} (hwakeup : wakeup ≠ 0) :
    Endpoint.wakeupFor c wakeup queue ≠ 0 ∧ Endpoint.wakeupFor c wakeup queue ≤ wakeup := by
  cases queue with
  | nil => exact ⟨hwakeup, le_rfl⟩
  | cons first queue =>
      obtain ⟨hdate, heq⟩ := wakeupFor_cons h hbound wakeup
      rw [heq]
      exact earlier_le_left hwakeup hdate

theorem Steady.connectInOrder (h : Steady ep)
    (hbound : ep.jiffies + c.resendDelayJiffies < 2 ^ 64) : ConnectInOrder c ep where
  sorted := h.connect.pairwise
  scan := by
    rintro ep₂ ⟨accepted, elapsed, ep₁, tmp₁, timed, tmp₂, hloop, hloop₂⟩
    obtain ⟨hbase, htmp⟩ := resendLoop_base h hloop
    have hspliced : Base ep.jiffies { ep₁ with nonAckedReqQ := ep₁.nonAckedReqQ ++ tmp₁ } := by
      refine ⟨hbase.now_le, hbase.driver, fun x hx => ?_, hbase.connect⟩
      rcases List.mem_append.1 hx with hx | hx
      · exact hbase.sending x hx
      · exact htmp x hx
    obtain ⟨hre, hhead⟩ := reconnectLoop_base hspliced hloop₂
    exact not_expired_of_head hre.base.connect (by omega) fun req queue hq =>
      of_decide_eq_false (hhead req queue hq)
  wakeup := fun req hreq oldest => wakeupFor_le h.connect hbound _ hreq

theorem NonAckedInOrder.resendInOrder (h : NonAckedInOrder ep) (hsteady : Steady ep)
    (hbound : ep.jiffies + c.resendDelayJiffies < 2 ^ 64) : ResendInOrder c ep where
  sorted := h.pairwise
  scan := by
    rintro ep₁ ⟨accepted, elapsed, tmp₁, hloop⟩
    obtain ⟨hrest, hhead⟩ := resendLoop_invariant
      (I := fun ep' _ => Stamped Req.lastSendJiffies ep.jiffies ep'.nonAckedReqQ)
      (fun ep' tmp partner hep => hep.sublist List.filter_sublist)
      (fun ep' tmp req queue n events ep'' req' hep hq hpost => by
        have hqueue := (hq ▸ hep : Stamped _ _ (req :: queue)).sublist (List.sublist_cons_self _ _)
        split
        · exact hqueue
        · exact hqueue)
      h hloop
    exact not_expired_of_head hrest (by omega) fun req queue hq =>
      of_decide_eq_false (hhead rfl req queue hq)
  wakeup := fun req hreq oldest => by
    obtain ⟨hne, hle⟩ := wakeupFor_le h hbound
      (oldest.elim 0 fun time => Endpoint.earlier 0 ((time + c.ackDelayJiffies) % 2 ^ 64)) hreq
    obtain ⟨hne', hle'⟩ := wakeupFor_le_left hsteady.connect hbound hne
    exact ⟨hne', hle'.trans hle⟩

/-! ## Runs -/

variable {availExpEvents reqResendsMax : ℕ}

theorem Endpoint.step_cases {a : Action} (h : ep.step c a = some ep') :
    ep.act c a = some ep' ∧ ep'.jiffies + c.resendDelayJiffies < 2 ^ 64 := by
  obtain ⟨ep₁, hact, hbound⟩ := Option.bind_eq_some_iff.1 h
  obtain ⟨hlt, heq⟩ := Option.ite_none_right_eq_some.1 hbound
  cases heq
  exact ⟨hact, hlt⟩

/-- In a run, what is in the queue was there or was acked, and in that order. -/
theorem machine_needReply {as : List Action}
    (h : (machine c availExpEvents reqResendsMax).exec ep as = some ep') :
    ep'.largeSendNeedReplyReqQ.Sublist (ep.largeSendNeedReplyReqQ ++ ep.ackedLarges c as) := by
  induction as generalizing ep with
  | nil =>
      cases h
      exact List.sublist_append_left _ _
  | cons a as ih =>
      obtain ⟨ep₁, hstep, hrun⟩ := (Machine.exec_cons_eq_some _).1 h
      have hact := Endpoint.act_needReply (Endpoint.step_cases hstep).1
      simp only [machine] at hstep
      rw [Endpoint.ackedLarges, hstep, Option.elim_some, ← List.append_assoc]
      exact (ih hrun).trans (hact.append (List.Sublist.refl _))

/-- What holds between two steps of every run. -/
structure Reached (c : Config) (ep : Endpoint) : Prop where
  steady : Steady ep
  bound : ep.jiffies + c.resendDelayJiffies < 2 ^ 64

theorem Reached.init (c : Config) (availExpEvents reqResendsMax : ℕ) :
    Reached c (.init availExpEvents reqResendsMax) := by
  refine ⟨⟨le_rfl, fun _ h => absurd h List.not_mem_nil, fun _ h => absurd h List.not_mem_nil,
    .nil⟩, ?_⟩
  have hhz := c.hz_lt
  change 0 + (c.hz + 2) / 2 < 2 ^ 64
  omega

theorem Reached.step {a : Action} (h : Reached c ep) (hstep : ep.step c a = some ep') :
    Reached c ep' := by
  obtain ⟨hact, hbound⟩ := Endpoint.step_cases hstep
  exact ⟨h.steady.act hact, hbound⟩

/-- In every run the connect queue is in order, and the queue of the sends that need a reply in that
of their acks.  The non-acked queue is in order too, if no medium of the run is posted without a
fragment, and none comes back from the driver behind a request that was sent after it. -/
theorem machine_inOrder (c : Config) (availExpEvents reqResendsMax : ℕ) {as : List Action}
    {ep : Endpoint} (h : (machine c availExpEvents reqResendsMax).exec
      (machine c availExpEvents reqResendsMax).init as = some ep) :
    ConnectInOrder c ep ∧
      ep.largeSendNeedReplyReqQ.Sublist
        (Endpoint.ackedLarges c (machine c availExpEvents reqResendsMax).init as) ∧
      ((machine c availExpEvents reqResendsMax).Meets Timely
        (machine c availExpEvents reqResendsMax).init as → ResendInOrder c ep) := by
  have hreached : Reached c ep :=
    Machine.exec_invariant (I := Reached c) (fun _ _ _ hI hs => hI.step hs)
      (Reached.init c availExpEvents reqResendsMax) h
  refine ⟨hreached.steady.connectInOrder hreached.bound, machine_needReply h, fun hmeets => ?_⟩
  have hinOrder : Reached c ep ∧ NonAckedInOrder ep :=
    hmeets.invariant (I := fun ep => Reached c ep ∧ NonAckedInOrder ep)
      (fun _ _ _ hI htimely hs => ⟨hI.1.step hs,
        hI.2.act hI.1.steady htimely (Endpoint.step_cases hs).1⟩)
      ⟨Reached.init c availExpEvents reqResendsMax, .nil⟩ h
  exact hinOrder.2.resendInOrder hinOrder.1.steady hinOrder.1.bound

/-- A clock of 1000 jiffies a second. -/
def kilohertz : Config := ⟨1000, by decide, 10⟩

/-- A medium of one fragment, a tiny message 400 jiffies later, and then the driver is done with the
medium. -/
def overtaken : List Action :=
  [.setup .sendMediumsq 0 1 1 0, .tick 400, .setup .sendTiny 0 0 0 0, .fragDone 0, .tick 200]

/-- Two large sends, of which the later is acked first. -/
def crossedAcks : List Action :=
  [.setup .sendLarge 0 0 0 0, .tick 400, .setup .sendLarge 1 0 0 0, .ack 1 true, .ack 0 true]

/-- Two tiny messages and a connect. -/
def timelySends : List Action :=
  [.setup .sendTiny 0 0 0 0, .tick 400, .connect 1, .setup .sendTiny 0 0 0 0]

theorem machine_inOrder_timely :
    ∃ ep, (machine kilohertz 1 1000).exec (machine kilohertz 1 1000).init timelySends = some ep ∧
      ConnectInOrder kilohertz ep ∧ ResendInOrder kilohertz ep := by
  obtain ⟨ep, hep⟩ : ∃ ep,
      (machine kilohertz 1 1000).exec (machine kilohertz 1 1000).init timelySends = some ep :=
    ⟨_, rfl⟩
  obtain ⟨hconnect, -, hresend⟩ := machine_inOrder kilohertz 1 1000 hep
  refine ⟨ep, hep, hconnect, hresend ?_⟩
  exact ⟨nofun, fun _ _ => ⟨trivial, fun _ _ => ⟨trivial, fun _ _ => ⟨nofun, fun _ _ => trivial⟩⟩⟩⟩

theorem resendLoop_of_not_expired {expired : Req → Bool} {accepted elapsed : ℕ → ℕ}
    {queue : List Req} (hq : ep.nonAckedReqQ = req :: queue) (h : expired req = false)
    (tmp : List Req) : ep.resendLoop expired accepted elapsed tmp = some (ep, tmp, true) := by
  unfold Endpoint.resendLoop
  split
  · rename_i hnil
    cases hq.symm.trans hnil
  · rename_i req' queue' hcons
    cases hq.symm.trans hcons
    rw [if_pos (by rw [h]; rfl)]

/-- A medium that the driver is done with comes behind a message that was sent after it, and a scan
and the wakeup wait for that one; and the acks of large sends come in any order. -/
theorem machine_not_inOrder :
    (∃ as ep, (machine kilohertz 1 1000).exec (machine kilohertz 1 1000).init as = some ep ∧
      ¬ Sorted ep.nonAckedReqQ ∧ ∃ ep₁, ResendScans kilohertz ep ep₁ ∧
        ∃ req ∈ ep₁.nonAckedReqQ, Expired kilohertz ep.jiffies req ∧ ¬ WakesFor kilohertz ep req) ∧
    ∃ as ep, (machine kilohertz 1 1000).exec (machine kilohertz 1 1000).init as = some ep ∧
      ¬ Sorted ep.largeSendNeedReplyReqQ := by
  constructor
  · obtain ⟨ep, hep, hjiffies, hqueue, hconnect⟩ : ∃ ep,
        (machine kilohertz 1 1000).exec (machine kilohertz 1 1000).init overtaken = some ep ∧
        ep.jiffies = 600 ∧
        ep.nonAckedReqQ =
          [⟨1, 0, .sendTiny, 400, 1, 1000, 0, 0, true, false, false⟩,
            ⟨0, 0, .sendMediumsq, 0, 1, 1000, 1, 0, true, false, false⟩] ∧
        ep.connectReqQ = [] := ⟨_, rfl, rfl, rfl, rfl⟩
    refine ⟨overtaken, ep, hep, ?_, ep, ⟨fun _ => 0, fun _ => 0, [], ?_⟩,
      ⟨0, 0, .sendMediumsq, 0, 1, 1000, 1, 0, true, false, false⟩, ?_, ?_, fun hwakes => ?_⟩
    · rw [hqueue, Sorted]
      decide
    · refine resendLoop_of_not_expired hqueue ?_ []
      rw [hjiffies]
      decide
    · rw [hqueue]
      exact List.mem_cons_of_mem _ (List.mem_cons_self ..)
    · rw [hjiffies]
      decide
    · have hdate := (hwakes none).2
      rw [Endpoint.prepareProgressWakeup, hqueue, hconnect] at hdate
      exact absurd hdate (by decide)
  · refine ⟨crossedAcks, _, rfl, ?_⟩
    rw [Sorted]
    decide

end Xen2mx.Resend
