import PayOps.Remediation.AtMostOnce

/-!
# Authority at dispatch

What is known when a worker invokes the backend, read off the events of its own call.

## What is proved

* `identity_ok`, `RemediationBroker.review_ok`, `RemediationBroker.dispatchAuthority_ok` — what a
  check that did not raise has read.
* `policyDeadline_le` — the deadline of a review is no later than any of the bounds it is made of.
* `authority_at_dispatch` — **main result**: whenever the backend is invoked, the action is the
  stored one, its approval binds it and is current, policy has reviewed it in the same call, the
  three identities were refreshed after the claim, and nothing the review rests on is stale.

## Honest scope

The clocks may answer anything: the result needs no assumption that they agree or that they never
run backwards.
-/

namespace PayOps.Remediation

open Policy Process Program

theorem foldl_min_le {t : Time} {ts : List Time} : ts.foldl min t ≤ t ∧ ∀ s ∈ ts, ts.foldl min t ≤ s := by
  induction ts generalizing t with
  | nil => simp
  | cons s ts ih =>
    obtain ⟨hle, hall⟩ := ih (t := min t s)
    refine ⟨hle.trans (min_le_left t s), List.forall_mem_cons.mpr ⟨hle.trans (min_le_right t s), hall⟩⟩

variable [Platform]

/-! ### What the checks have read -/

section Checks

variable {h : History Worker}

/-- An identity that was not denied was read and valid. -/
theorem identity_ok {subject : String} {role : Role} {nameSpace : Identifier} {p : Principal}
    (hr : Runs (identity subject role nameSpace) h (.ok p)) :
    ∃ now, h = [⟨Effect.principal subject, .ok (some p)⟩, ⟨Effect.clock, .ok now⟩] ∧
      identityValid (some p) role nameSpace now ∧ p.subject.val = subject := by
  obtain ⟨principal, h₁, rfl, hr₁⟩ := runs_perform_bind_ok.mp hr
  obtain ⟨now, h₂, rfl, hr₂⟩ := runs_perform_bind_ok.mp hr₁
  cases principal with
  | none => cases (runs_fail.mp hr₂).2
  | some p' =>
    obtain ⟨hvalid, hr₃⟩ := runs_raiseIf_bind_ok.mp hr₂
    obtain ⟨rfl, hp⟩ := runs_done.mp hr₃
    obtain rfl := Except.ok.inj hp
    simp only [Bool.or_eq_true, Bool.not_eq_true', decide_eq_true_eq, not_or, Bool.not_eq_false,
      ne_eq, not_not] at hvalid
    exact ⟨now, rfl, hvalid⟩

/-- Every cited item of a report that does not fail is in the report. -/
theorem citedFailure_none {proposal : Action} {evidence : List EvidenceItem} {store : ArtifactStore}
    {now : Time} {cited : List Identifier}
    (hr : Runs (citedFailure (I := Worker) proposal evidence store now cited) h (.ok none)) :
    ∀ i ∈ cited, ∃ item ∈ evidence, item.evidenceId = i := by
  induction cited generalizing h with
  | nil => simp
  | cons i rest ih =>
    rw [citedFailure] at hr
    split at hr
    · cases (runs_done.mp hr).2
    · rename_i item hfind
      split_ifs at hr
      · cases (runs_done.mp hr).2
      · obtain ⟨failure, h₁, h₂, rfl, -, hrest⟩ := runs_bind_ok.mp hr
        cases failure with
        | some _ => cases (runs_done.mp hrest).2
        | none =>
          have hid := List.find?_some hfind
          exact List.forall_mem_cons.mpr
            ⟨⟨item, List.mem_of_find?_eq_some hfind, eq_of_beq hid⟩, ih hrest⟩
      · cases (runs_done.mp hr).2
      · cases (runs_done.mp hr).2

/-- An evaluation that requires approval has found every cited item in the report. -/
theorem evaluate_cited {action : Action} {context : PolicyContext} {tier : RiskTier}
    {proposal : Action} {digest : String}
    (hr : Runs (evaluate (I := Worker) action.dump context) h (.ok (.approvalRequired tier proposal digest))) :
    ∀ i ∈ action.evidenceIds, ∃ report ∈ context.incident.report, ∃ item ∈ report.evidence,
      item.evidenceId = i := by
  unfold evaluate at hr
  rw [Action.validate_dump] at hr
  obtain ⟨now, h₁, rfl, hr₁⟩ := runs_perform_bind_ok.mp hr
  split at hr₁
  · cases (runs_done.mp hr₁).2
  obtain ⟨failure, h₂, h₃, rfl, hev, hr₂⟩ := runs_bind_ok.mp hr₁
  cases failure with
  | some _ => cases (runs_done.mp hr₂).2
  | none =>
    unfold evidenceFailure at hev
    split at hev
    · cases (runs_done.mp hev).2
    rename_i report hreport
    split_ifs at hev
    · cases (runs_done.mp hev).2
    · cases (runs_done.mp hev).2
    · intro i hi
      rcases runs_tryCatch hev with ⟨a, ha, hcited⟩ | ⟨x, k₁, k₂, -, -, hhandler⟩
      · obtain rfl := Except.ok.inj ha
        exact ⟨report, hreport, citedFailure_none hcited i hi⟩
      · split_ifs at hhandler
        · cases (runs_done.mp hhandler).2
        · cases (runs_fail.mp hhandler).2

/-- An approval that was current when it was checked. -/
theorem RemediationBroker.approvalCurrent_ok {approval : Approval}
    (hr : Runs (approvalCurrent approval) h (.ok ())) :
    ∃ now, h = [⟨Effect.clock, .ok now⟩] ∧ approval.approvedAt ≤ now ∧ now < approval.expiresAt := by
  obtain ⟨now, h₁, rfl, hr₁⟩ := runs_perform_bind_ok.mp hr
  obtain ⟨rfl, hcurrent⟩ := runs_raiseIf_ok.mp hr₁
  exact ⟨now, rfl, not_not.mp hcurrent⟩

end Checks

/-! ### The deadline of a review -/

/-- **The deadline of a review** is no later than thirty seconds after the resource was read, and
five minutes after any cited item was observed or collected. -/
theorem policyDeadline_le (action : Action) (resource : ResourceSnapshot) (evidence : List EvidenceItem) :
    policyDeadline action resource evidence ≤ resource.observedAt + seconds 30 ∧
      ∀ item ∈ evidence, item.evidenceId ∈ action.evidenceIds →
        policyDeadline action resource evidence ≤ item.observedAt + seconds 300 ∧
          policyDeadline action resource evidence ≤ item.collectedAt + seconds 300 := by
  refine ⟨foldl_min_le.1, fun item hitem hcited => ?_⟩
  have hmem : ∀ t ∈ [item.observedAt + seconds 300, item.collectedAt + seconds 300],
      t ∈ deadlines action evidence := fun t ht =>
    List.mem_flatMap.mpr ⟨item, List.mem_filter.mpr ⟨hitem, by simpa using hcited⟩, ht⟩
  exact ⟨foldl_min_le.2 _ (hmem _ (by simp)), foldl_min_le.2 _ (hmem _ (by simp))⟩

/-! ### Review and dispatch -/

/-- Policy reviewed the action for the proposer: in the events `h` the proposer was refreshed, a
context was read, and the evaluation of the action in that context required approval. -/
structure Reviewed (h : History Worker) (action : Action) (proposer : String) (context : PolicyContext)
    (report : IncidentReport) : Prop where
  /-- What was asked, in this order. -/
  runs : ∃ g₁ g₂ g₃ principal tier proposal digest,
    h = g₁ ++ ⟨Effect.context action proposer, .ok context⟩ :: g₂ ++ g₃ ∧
      ⟨Effect.principal proposer, .ok (some principal)⟩ ∈ g₁ ∧
      Runs (evaluate (I := Worker) action.dump { context with principal := some principal }) g₂
        (.ok (.approvalRequired tier proposal digest))
  /-- The report of the incident in that context. -/
  hasReport : context.incident.report = some report
  /-- Every cited item is in the report. -/
  cited : ∀ i ∈ action.evidenceIds, ∃ item ∈ report.evidence, item.evidenceId = i

theorem Reviewed.append {h : History Worker} (h₀ h₁ : History Worker) {action : Action} {proposer : String}
    {context : PolicyContext} {report : IncidentReport} (hr : Reviewed h action proposer context report) :
    Reviewed (h₀ ++ (h ++ h₁)) action proposer context report := by
  obtain ⟨g₁, g₂, g₃, principal, tier, proposal, digest, rfl, hmem, hev⟩ := hr.runs
  refine ⟨⟨h₀ ++ g₁, g₂, g₃ ++ h₁, principal, tier, proposal, digest, ?_,
    List.mem_append_right _ hmem, hev⟩, hr.hasReport, hr.cited⟩
  simp

namespace RemediationBroker

variable {broker : RemediationBroker} {h : History Worker}

/-- **What a review has read.** -/
theorem review_ok {action : Action} {proposer : String} {deadline : Time}
    (hr : Runs (broker.review action proposer) h (.ok deadline)) :
    ∃ context report, Reviewed h action proposer context report ∧
      deadline = policyDeadline action context.resource report.evidence := by
  obtain ⟨principal, h₁, h₂, rfl, hidentity, hr₁⟩ := runs_bind_ok.mp hr
  obtain ⟨now, rfl, -, -⟩ := identity_ok hidentity
  obtain ⟨context, h₃, rfl, hr₂⟩ := runs_perform_bind_ok.mp hr₁
  obtain ⟨-, hr₃⟩ := runs_raiseIf_bind_ok.mp hr₂
  obtain ⟨review, h₄, h₅, rfl, hev, hr₄⟩ := runs_bind_ok.mp hr₃
  cases review with
  | deny reason => cases (runs_fail.mp hr₄).2
  | approvalRequired tier proposal digest =>
    cases hreport : context.incident.report with
    | none =>
      simp only [hreport] at hr₄
      cases (runs_fail.mp hr₄).2
    | some report =>
      simp only [hreport] at hr₄
      obtain ⟨rfl, hdeadline⟩ := runs_done.mp hr₄
      refine ⟨context, report,
        ⟨⟨[⟨Effect.principal proposer, .ok (some principal)⟩, ⟨Effect.clock, .ok now⟩], h₄, [], principal,
          tier, proposal, digest, ?_, ?_, hev⟩, hreport, ?_⟩, Except.ok.inj hdeadline⟩
      · simp
      · simp
      · intro i hi
        obtain ⟨r, hr', item, hitem, hid⟩ := evaluate_cited hev i hi
        obtain rfl : r = report := Option.some.inj (hr'.symm.trans hreport)
        exact ⟨item, hitem, hid⟩

/-- **What the checks before a claim have read.** -/
theorem precheck_ok {record : ActionRecord} {deadline : Time}
    (hr : Runs (broker.precheck record) h (.ok deadline)) :
    ∃ context report, Reviewed h record.proposal record.proposer.val context report ∧
      deadline = policyDeadline record.proposal context.resource report.evidence := by
  cases happroval : record.approval with
  | none =>
    simp only [precheck, happroval] at hr
    cases (runs_fail.mp hr).2
  | some approval =>
    simp only [precheck, happroval] at hr
    obtain ⟨-, hr₁⟩ := runs_raiseIf_bind_ok.mp hr
    obtain ⟨now, h₁, rfl, hr₂⟩ := runs_perform_bind_ok.mp hr₁
    obtain ⟨-, hr₃⟩ := runs_raiseIf_bind_ok.mp hr₂
    obtain ⟨principal, h₂, h₃, rfl, -, hr₄⟩ := runs_bind_ok.mp hr₃
    obtain ⟨deadline', h₄, h₅, rfl, hreview, hr₅⟩ := runs_bind_ok.mp hr₄
    obtain ⟨_, h₆, h₇, rfl, -, hr₆⟩ := runs_bind_ok.mp hr₅
    obtain ⟨rfl, hd⟩ := runs_done.mp hr₆
    obtain rfl := Except.ok.inj hd
    obtain ⟨context, report, hreviewed, rfl⟩ := review_ok hreview
    refine ⟨context, report, ?_, rfl⟩
    have := hreviewed.append (⟨Effect.clock, .ok now⟩ :: h₂) (h₆ ++ [])
    simpa using this

/-- A subject was refreshed in the events `h`, and the identity is valid in the role at `now`. -/
def Refreshed (h : History Worker) (subject : String) (role : Role) (nameSpace : Identifier)
    (now : Time) : Prop :=
  ∃ p : Principal, ⟨Effect.principal subject, .ok (some p)⟩ ∈ h ∧ p.subject.val = subject ∧
    identityValid (some p) role nameSpace now

/-- **What the authority of a dispatch has read**: the three identities, and then the clock three
times. -/
theorem dispatchAuthority_ok {record : ActionRecord} {approval : Approval} {subject : String}
    {deadline : Time} (hr : Runs (dispatchAuthority record approval subject deadline) h (.ok ())) :
    ∃ k now current last,
      h = k ++ [⟨Effect.clock, .ok now⟩, ⟨Effect.clock, .ok current⟩, ⟨Effect.clock, .ok last⟩] ∧
      Refreshed k subject .executor record.proposal.nameSpace now ∧
      Refreshed k approval.subject.val .approver record.proposal.nameSpace now ∧
      Refreshed k record.proposer.val .responder record.proposal.nameSpace now ∧
      approval.approvedAt ≤ current ∧ current < approval.expiresAt ∧ last ≤ deadline := by
  obtain ⟨executor, h₁, r₁, rfl, hexecutor, hr₁⟩ := runs_bind_ok.mp hr
  obtain ⟨approver, h₂, r₂, rfl, happrover, hr₂⟩ := runs_bind_ok.mp hr₁
  obtain ⟨responder, h₃, r₃, rfl, hresponder, hr₃⟩ := runs_bind_ok.mp hr₂
  obtain ⟨now, r₄, rfl, hr₄⟩ := runs_perform_bind_ok.mp hr₃
  obtain ⟨hvalid, hr₅⟩ := runs_raiseIf_bind_ok.mp hr₄
  obtain ⟨_, h₄, r₅, rfl, hcurrent, hr₆⟩ := runs_bind_ok.mp hr₅
  obtain ⟨last, r₆, rfl, hr₇⟩ := runs_perform_bind_ok.mp hr₆
  obtain ⟨rfl, hdeadline⟩ := runs_raiseIf_ok.mp hr₇
  obtain ⟨t₁, rfl, -, hs₁⟩ := identity_ok hexecutor
  obtain ⟨t₂, rfl, -, hs₂⟩ := identity_ok happrover
  obtain ⟨t₃, rfl, -, hs₃⟩ := identity_ok hresponder
  obtain ⟨current, rfl, happroved, hexpires⟩ := approvalCurrent_ok hcurrent
  obtain ⟨hv₁, hv₂, hv₃⟩ := not_not.mp hvalid
  refine ⟨[⟨Effect.principal subject, .ok (some executor)⟩, ⟨Effect.clock, .ok t₁⟩,
    ⟨Effect.principal approval.subject.val, .ok (some approver)⟩, ⟨Effect.clock, .ok t₂⟩,
    ⟨Effect.principal record.proposer.val, .ok (some responder)⟩, ⟨Effect.clock, .ok t₃⟩],
    now, current, last, by simp, ?_, ?_, ?_, happroved, hexpires, not_lt.mp hdeadline⟩
  · exact ⟨executor, by simp, hs₁, hv₁⟩
  · exact ⟨approver, by simp, hs₂, hv₂⟩
  · exact ⟨responder, by simp, hs₃, hv₃⟩

/-- A dispatch that was authorised has read its authority. -/
theorem authorized_true {record : ActionRecord} {approval : Approval} {subject : String}
    {deadline : Time} (hr : Runs (authorized record approval subject deadline) h (.ok true)) :
    Runs (dispatchAuthority record approval subject deadline) h (.ok ()) := by
  rcases runs_tryCatch hr with ⟨b, hb, hbody⟩ | ⟨x, h₁, h₂, rfl, -, hhandler⟩
  · obtain ⟨_, h₁, h₂, rfl, hauthority, hdone⟩ := runs_bind_ok.mp hbody
    obtain ⟨rfl, -⟩ := runs_done.mp hdone
    rw [List.append_nil]
    exact hauthority
  · split at hhandler
    · cases (runs_done.mp hhandler).2
    · cases (runs_fail.mp hhandler).2

end RemediationBroker

/-! ### Every invocation is authorised -/

/-- The authority a call of `execute` has when it invokes the backend, its own events before the
invocation being `own`. -/
structure AuthorisedDispatch (own : History Worker) (stored : ActionRecord) (action : Action)
    (key subject : String) (mode : OperationMode) : Prop where
  /-- The key is the digest of the action. -/
  digest : key = actionDigest action
  /-- The action is the stored proposal. -/
  proposal : stored.proposal = action
  /-- Its mode is the broker's. -/
  mode : action.mode = mode
  /-- The call reviewed the action and committed its claim; after that it refreshed the identities,
  and read the clock three times. -/
  events : ∃ before claimed approval context report g₁ g₂ now current last,
    own = g₁ ++ ⟨Effect.update before claimed subject "DISPATCH", .ok ()⟩ ::
      (g₂ ++ [⟨Effect.clock, .ok now⟩, ⟨Effect.clock, .ok current⟩, ⟨Effect.clock, .ok last⟩]) ∧
    before.state = .approved ∧ claimed.state = .executing ∧ claimed.actionId.val = key ∧
    -- the stored approval binds the digest and is of a second person, and it is current
    stored.approval = some approval ∧ approval.actionDigest.val = key ∧
    approval.subject ≠ stored.proposer ∧
    approval.approvedAt ≤ current ∧ current < approval.expiresAt ∧
    -- policy has reviewed the action before the claim
    Reviewed g₁ action stored.proposer.val context report ∧
    -- the identities are valid at one time after the claim
    RemediationBroker.Refreshed g₂ subject .executor action.nameSpace now ∧
    RemediationBroker.Refreshed g₂ approval.subject.val .approver action.nameSpace now ∧
    RemediationBroker.Refreshed g₂ stored.proposer.val .responder action.nameSpace now ∧
    -- nothing the review rests on is stale at the last reading
    last - context.resource.observedAt ≤ seconds 30 ∧
    ∀ cited ∈ action.evidenceIds, ∃ item ∈ report.evidence, item.evidenceId = cited ∧
      last - item.observedAt ≤ seconds 300 ∧ last - item.collectedAt ≤ seconds 300

/-- A committed update leaves its record stored, up to what later changes may do to it. -/
theorem update_stored {c : Workers} (h : Reached c) {i : ℕ} {before written : ActionRecord}
    {actor reason : String}
    (hev : (i, ⟨Effect.update before written actor reason, .ok ()⟩) ∈ c.trace) :
    ∃ stored, c.shared.actions before.actionId.val = some stored ∧ Persists written stored := by
  refine Reachable.invariant (M := Environment) (fun t tr => ∀ i before written actor reason,
    (i, ⟨Effect.update before written actor reason, .ok ()⟩) ∈ tr →
      ∃ stored, t.actions before.actionId.val = some stored ∧ Persists written stored)
    h (by simp) ?_ i _ _ _ _ hev
  intro t tr j p e r t' q hinv hp hpath ha i before written actor reason hmem
  have hproper : Proper e := ((start_proper hp).path hpath).1 ⟨e, r⟩ (by simp)
  rcases List.mem_append.mp hmem with hmem | hmem
  · obtain ⟨stored, hrow, hpersists⟩ := hinv i before written actor reason hmem
    obtain ⟨next, hnext, rfl | hsucc⟩ := answer_row hproper ha hrow
    · exact ⟨next, hnext, hpersists⟩
    · exact ⟨next, hnext, hpersists.snoc hsucc⟩
  · cases List.mem_singleton.mp hmem
    cases ha with
    | commit hok =>
      obtain ⟨event, -, -, rfl⟩ := update_eq_ok hok
      exact ⟨written, Function.update_self .., .refl written⟩

/-- An invocation on the path of a dispatch follows its authority. -/
theorem RemediationBroker.dispatch_invocation {claimed : ActionRecord} {subject key : String}
    {deadline : Time} {h : History Worker} {q : Program Worker ActionRecord} {action : Action}
    {r : Except Fault EffectReceipt} (hpath : Path (dispatch claimed subject deadline) h q)
    (hev : ⟨Effect.execute action key, r⟩ ∈ h) :
    ∃ approval h₁ h₃, claimed.approval = some approval ∧ action = claimed.proposal ∧
      key = claimed.actionId.val ∧ h = h₁ ++ ⟨Effect.execute action key, r⟩ :: h₃ ∧
        Runs (dispatchAuthority claimed approval subject deadline) h₁ (.ok ()) := by
  have noInvocation : ∀ {g : History Worker}, g.countP (invokes key) = 0 →
      ⟨Effect.execute action key, r⟩ ∉ g := fun hg hm =>
    List.countP_eq_zero.mp hg _ hm (by simp [invokes])
  rcases dispatch_path hpath with hidle | ⟨approval, h₁, h₂, happroval, rfl, hcase⟩
  · exact absurd hev (noInvocation (countP_invokes_idle key hidle))
  rcases hcase with ⟨hr, ht⟩ | ⟨hr, answer, h₃, rfl, hs⟩
  · rcases List.mem_append.mp hev with hev | hev
    · exact absurd hev (noInvocation (countP_invokes_idle key ((authorized_idle ..).path hr).1))
    · exact absurd hev (noInvocation (countP_invokes_transition key ht))
  · rcases List.mem_append.mp hev with hev | hev
    · exact absurd hev (noInvocation (countP_invokes_idle key ((authorized_idle ..).path hr).1))
    rcases List.mem_cons.mp hev with hev | hev
    · cases hev
      exact ⟨approval, h₁, h₃, happroval, rfl, rfl, rfl, authorized_true hr⟩
    · exact absurd hev (noInvocation (countP_invokes_settle key hs))

/-- **Main result: authority at dispatch.** Whenever the backend is invoked, it is by a call of
`execute` whose own earlier events give it its authority. -/
theorem authority_at_dispatch {c : Workers} (h : Reached c) {i : ℕ} {action : Action} {key : String}
    {r : Except Fault EffectReceipt} (hev : (i, ⟨Effect.execute action key, r⟩) ∈ c.trace) :
    ∃ (call : Call Worker ActionRecord) (broker : RemediationBroker) (actionId subject : String)
      (own rest : History Worker) (stored : ActionRecord),
      c.calls[i]? = some call ∧ call.program = broker.execute actionId subject ∧
        Trace.own c.trace i = own ++ ⟨Effect.execute action key, r⟩ :: rest ∧
          c.shared.actions key = some stored ∧
            AuthorisedDispatch own stored action key subject broker.mode := by
  obtain ⟨call, hcall, hstart, hpath⟩ := Reachable.own_call h hev
  obtain ⟨broker, actionId, subject, record, claimed, deadline, now₀, g₁, g₂, hprogram, hd, hown, hmem⟩ :=
    past_claim hstart hpath (mem_own.mpr hev) id
  obtain ⟨hs, hs', hid, hproposal, -⟩ := hd.claim
  obtain ⟨approval, h₁, h₃, happroval, rfl, rfl, rfl, hauthority⟩ :=
    RemediationBroker.dispatch_invocation hd.path hmem
  obtain ⟨k, now, current, last, rfl, hexecutor, happrover, hresponder, hle, hlt, hdeadline⟩ :=
    RemediationBroker.dispatchAuthority_ok hauthority
  obtain ⟨e₁, e₂, e₃, principal, rfl, hget, hidentity, hadmit⟩ := hd.admitted.runs
  obtain ⟨context, report, hreviewed, rfl⟩ := RemediationBroker.precheck_ok hadmit
  obtain ⟨hresource, hitems⟩ := policyDeadline_le record.proposal context.resource report.evidence
  have hclaim : (i, ⟨Effect.update record claimed subject "DISPATCH", .ok ()⟩) ∈ c.trace :=
    mem_own.mp (by rw [hown]; simp [RemediationBroker.claimEvents])
  obtain ⟨stored, hrow, hpersists⟩ := update_stored h hclaim
  have hproposer : claimed.proposer = record.proposer := by rw [hd.wrote]; rfl
  obtain ⟨hsubject, hbinds⟩ := claimed.approval_bound happroval
  refine ⟨call, broker, actionId, subject, _, h₃, stored, hcall, hprogram, ?_, hid ▸ hrow,
    claimed.actionId_eq, hpersists.proposal, hproposal ▸ hd.admitted.mode, record, claimed, approval,
    context, report, e₁ ++ (e₂ ++ e₃) ++ [⟨Effect.utcNow, .ok now₀⟩], k, now, current, last, rfl, hs,
    hs', rfl, hpersists.approval _ happroval, congrArg Subtype.val hbinds, ?_, hle, hlt, ?_, hexecutor,
    happrover, ?_, ?_, ?_⟩
  · rw [hown]
    simp [RemediationBroker.claimEvents]
  · rw [hpersists.proposer]
    exact hsubject
  · rw [hproposal, hpersists.proposer, hproposer]
    have := hreviewed.append (e₁ ++ e₂) [⟨Effect.utcNow, .ok now₀⟩]
    simpa using this
  · rw [hpersists.proposer]
    exact hresponder
  · exact sub_le_iff_le_add'.mpr (hdeadline.trans hresource)
  · intro cited hcited
    rw [hproposal] at hcited
    obtain ⟨item, hitem, rfl⟩ := hreviewed.cited cited hcited
    obtain ⟨hobserved, hcollected⟩ := hitems item hitem hcited
    exact ⟨item, hitem, rfl, sub_le_iff_le_add'.mpr (hdeadline.trans hobserved),
      sub_le_iff_le_add'.mpr (hdeadline.trans hcollected)⟩

end PayOps.Remediation

namespace PayOps.Remediation

open Policy Process

attribute [local instance] samplePlatform

/-- The one invocation of the sample run is authorised. -/
theorem authority_at_dispatch_sample : ∃ i action r,
    (i, ⟨Effect.execute action sampleKey, r⟩) ∈ sampleRun.trace ∧
      ∃ call broker actionId subject own rest stored, sampleRun.calls[i]? = some call ∧
        call.program = RemediationBroker.execute broker actionId subject ∧
          Trace.own sampleRun.trace i = own ++ ⟨Effect.execute action sampleKey, r⟩ :: rest ∧
            sampleRun.shared.actions sampleKey = some stored ∧
              AuthorisedDispatch own stored action sampleKey subject broker.mode := by
  have hone : (sampleRun.trace.countP fun x => invokes sampleKey x.2) = 1 := by decide +kernel
  obtain ⟨⟨i, e, r⟩, hmem, hinvokes⟩ := List.countP_pos_iff.mp (hone ▸ Nat.one_pos)
  cases e with
  | execute action key =>
    obtain rfl : key = sampleKey := eq_of_beq hinvokes
    exact ⟨i, action, r, hmem, authority_at_dispatch sampleRun_reached hmem⟩
  | _ => cases hinvokes

end PayOps.Remediation
