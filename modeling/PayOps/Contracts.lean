import PayOps.Json

/-!
# Public contracts

Evidence items, hypotheses, reports and incidents, as `payops.contracts` validates them.

## The model

A record carries its `model_validator` as a field, so that a record that fails it cannot be
built. A duration is a nonnegative rational:
finite, as the contracts demand, and exact.
-/

namespace PayOps

variable [Platform]

/-- Where evidence comes from. -/
inductive Source where
  /-- `KUBERNETES`. -/
  | kubernetes
  /-- `PROMETHEUS`. -/
  | prometheus
  /-- `LOG`. -/
  | log
  /-- `TRACE`. -/
  | trace
  /-- `DEPLOYMENT`. -/
  | deployment
  /-- `PAYMENT`. -/
  | payment
  /-- `RUNBOOK`. -/
  | runbook
  /-- `MEMORY`. -/
  | memory
  deriving DecidableEq

/-- How an incident ends. -/
inductive TerminalState where
  /-- `ESCALATED`. -/
  | escalated
  /-- `RESOLVED`. -/
  | resolved
  /-- `RESOLVED_WITHOUT_ACTION`. -/
  | resolvedWithoutAction
  /-- `SECURITY_BLOCK`. -/
  | securityBlock
  /-- `EVIDENCE_INSUFFICIENT`. -/
  | evidenceInsufficient
  /-- `BUDGET_EXHAUSTED`. -/
  | budgetExhausted
  /-- `DEPENDENCY_UNAVAILABLE`. -/
  | dependencyUnavailable
  /-- `ACTION_FAILED`. -/
  | actionFailed
  /-- `UNRECOVERABLE`. -/
  | unrecoverable
  deriving DecidableEq

/-- Where a report comes from. -/
inductive ReportMode where
  /-- `mock`. -/
  | mock
  /-- `fixture_replay`. -/
  | fixtureReplay
  /-- `local_kind`. -/
  | localKind
  /-- `cloud_gke`. -/
  | cloudGke
  deriving DecidableEq

/-- How the hypotheses of a report were ranked. -/
inductive RankingMethod where
  /-- `deterministic`. -/
  | deterministic
  /-- `model_fixture`. -/
  | modelFixture
  /-- `model_provider`. -/
  | modelProvider
  deriving DecidableEq

/-- Normalized context with its source lineage. -/
structure EvidenceItem where
  /-- Its name in the incident. -/
  evidenceId : Identifier
  /-- The incident that owns it. -/
  incidentId : Identifier
  /-- Where it comes from. -/
  source : Source
  /-- When the source saw it. -/
  observedAt : Time
  /-- When it was collected. -/
  collectedAt : Time
  /-- The query that was asked. -/
  query : Summary
  /-- The resource it is about. -/
  resource : Identifier
  /-- The artifact that retains it. -/
  artifactUri : Summary
  /-- The digest of that artifact. -/
  artifactSha256 : Digest
  /-- What it says. -/
  summary : Summary
  deriving DecidableEq

/-- An item without the name of its artifact, as the artifact itself retains it. -/
structure EvidenceMetadata where
  /-- Its name in the incident. -/
  evidenceId : Identifier
  /-- The incident that owns it. -/
  incidentId : Identifier
  /-- Where it comes from. -/
  source : Source
  /-- When the source saw it. -/
  observedAt : Time
  /-- When it was collected. -/
  collectedAt : Time
  /-- The query that was asked. -/
  query : Summary
  /-- The resource it is about. -/
  resource : Identifier
  /-- What it says. -/
  summary : Summary
  deriving DecidableEq

/-- `model_dump(exclude={"artifact_uri", "artifact_sha256"})`. -/
def EvidenceItem.metadata (item : EvidenceItem) : EvidenceMetadata :=
  ⟨item.evidenceId, item.incidentId, item.source, item.observedAt, item.collectedAt, item.query,
    item.resource, item.summary⟩

/-- A candidate root cause. -/
structure RootCauseHypothesis where
  /-- The cause. -/
  causeCode : Identifier
  /-- Its ranking score. -/
  confidence : ℚ
  /-- The evidence for it. -/
  supportingEvidenceIds : List Identifier
  /-- The evidence against it. -/
  refutingEvidenceIds : List Identifier
  /-- What was not seen. -/
  missingEvidence : List Summary
  /-- `Field(ge=0, le=1)`. -/
  bounded : 0 ≤ confidence ∧ confidence ≤ 1
  deriving DecidableEq

/-- What `IncidentReport.validate_citations` raises, if it raises. -/
def citationFailure (incidentId : Identifier) (evidence : List EvidenceItem)
    (ranked : List RootCauseHypothesis) : Option String :=
  let ids := evidence.map EvidenceItem.evidenceId
  if ¬ids.Nodup then some "duplicate evidence IDs"
  else if evidence.any fun item => item.incidentId != incidentId then some "cross-incident evidence"
  else if ¬(ranked.map RootCauseHypothesis.causeCode).Nodup then some "duplicate root causes"
  else ranked.findSome? fun h =>
    if ¬(h.supportingEvidenceIds ++ h.refutingEvidenceIds ⊆ ids) then
      some "unresolved evidence citation"
    else if h.supportingEvidenceIds.any fun i => i ∈ h.refutingEvidenceIds then
      some "evidence cannot support and refute the same cause"
    else none

/-- Root causes that a report with this evidence may have. -/
structure ValidCauses (ids : List Identifier) (ranked : List RootCauseHypothesis) : Prop where
  /-- The causes are distinct. -/
  distinct : (ranked.map RootCauseHypothesis.causeCode).Nodup
  /-- They cite the evidence. -/
  resolved : ∀ h ∈ ranked, h.supportingEvidenceIds ++ h.refutingEvidenceIds ⊆ ids
  /-- No evidence supports and refutes a cause. -/
  disjoint : ∀ h ∈ ranked, ∀ i ∈ h.supportingEvidenceIds, i ∉ h.refutingEvidenceIds

theorem ValidCauses.nil (ids : List Identifier) : ValidCauses ids [] :=
  ⟨List.nodup_nil, by simp, by simp⟩

/-- Fewer causes, and more evidence. -/
theorem ValidCauses.mono {ids ids' : List Identifier} {ranked ranked' : List RootCauseHypothesis}
    (h : ValidCauses ids ranked) (hsub : ranked'.Sublist ranked) (hids : ids ⊆ ids') :
    ValidCauses ids' ranked' :=
  ⟨h.distinct.sublist (hsub.map _), fun x hx _ hi => hids (h.resolved x (hsub.subset hx) hi),
    fun x hx => h.disjoint x (hsub.subset hx)⟩

/-- **When a report may be built.** -/
theorem citationFailure_eq_none {incidentId : Identifier} {evidence : List EvidenceItem}
    {ranked : List RootCauseHypothesis} :
    citationFailure incidentId evidence ranked = none ↔
      (evidence.map EvidenceItem.evidenceId).Nodup ∧ (∀ item ∈ evidence, item.incidentId = incidentId) ∧
        ValidCauses (evidence.map EvidenceItem.evidenceId) ranked := by
  unfold citationFailure
  dsimp only
  by_cases hids : (evidence.map EvidenceItem.evidenceId).Nodup
  swap
  · rw [if_pos hids]
    exact ⟨by simp, fun h => absurd h.1 hids⟩
  rw [if_neg (not_not.mpr hids)]
  by_cases hown : ∀ item ∈ evidence, item.incidentId = incidentId
  swap
  · rw [if_pos (by simpa using hown)]
    exact ⟨by simp, fun h => absurd h.2.1 hown⟩
  rw [if_neg (by simpa using hown)]
  by_cases hcauses : (ranked.map RootCauseHypothesis.causeCode).Nodup
  swap
  · rw [if_pos hcauses]
    exact ⟨by simp, fun h => absurd h.2.2.distinct hcauses⟩
  rw [if_neg (not_not.mpr hcauses), List.findSome?_eq_none_iff]
  constructor
  · intro h
    refine ⟨hids, hown, hcauses, fun x hx => ?_, fun x hx i hi hi' => ?_⟩
    · have hfail := h x hx
      by_contra hresolved
      rw [if_pos hresolved] at hfail
      cases hfail
    · have hfail := h x hx
      have hshared : (x.supportingEvidenceIds.any fun i => decide (i ∈ x.refutingEvidenceIds)) = true :=
        List.any_eq_true.mpr ⟨i, hi, by simpa using hi'⟩
      rw [if_pos hshared] at hfail
      split_ifs at hfail
  · rintro ⟨-, -, hvalid⟩ x hx
    rw [if_neg (not_not.mpr (hvalid.resolved x hx)), if_neg]
    simpa using hvalid.disjoint x hx

/-- `Field(ge=0, allow_inf_nan=False)`. -/
abbrev Duration := { q : ℚ // 0 ≤ q }

/-- No time at all. -/
def Duration.zero : Duration := ⟨0, le_rfl⟩

omit [Platform] in
/-- A report without receipts is within their bound. -/
theorem no_receipts : ([] : List Digest).length ≤ 20 := by decide

/-- A report of an investigation. -/
structure IncidentReport where
  /-- The incident. -/
  incidentId : Identifier
  /-- Its evidence. -/
  evidence : List EvidenceItem := []
  /-- The hypotheses, best first. -/
  rankedRootCauses : List RootCauseHypothesis := []
  /-- How the investigation ended. -/
  terminalState : TerminalState
  /-- Where it comes from. -/
  mode : ReportMode
  /-- How long its steps took. -/
  durationSeconds : Duration
  /-- How the hypotheses were ranked. -/
  rankingMethod : RankingMethod := .deterministic
  /-- Why the reasoning stopped. -/
  reasoningStopReason : Option Identifier := none
  /-- The receipts of the reasoning. -/
  reasoningReceipts : List Digest := []
  /-- Its trace. -/
  traceId : String
  /-- `validate_citations`. -/
  citations : citationFailure incidentId evidence rankedRootCauses = none
  /-- `Field(max_length=20)`. -/
  receiptsBounded : reasoningReceipts.length ≤ 20
  deriving DecidableEq

/-- The evidence of a report has no two items of one name. -/
theorem IncidentReport.evidence_nodup (r : IncidentReport) :
    (r.evidence.map EvidenceItem.evidenceId).Nodup := by
  have h := r.citations
  by_contra hn
  simp [citationFailure, hn] at h

/-- How severe an alert is. -/
inductive Severity where
  /-- `warning`. -/
  | warning
  /-- `critical`. -/
  | critical
  deriving DecidableEq

/-- An incident with its report. -/
structure Incident where
  /-- The name of the incident. -/
  incidentId : Identifier
  /-- `request.title`. -/
  title : { s : String // strippedOk 200 s = true }
  /-- `request.severity`. -/
  severity : Severity
  /-- `created_at`. -/
  createdAt : Time
  /-- `request.namespace`. -/
  nameSpace : Identifier
  /-- `request.service`. -/
  service : Identifier
  /-- The report, once there is one. -/
  report : Option IncidentReport
  /-- `validate_report_scope`. -/
  scope : ∀ r ∈ report, r.incidentId = incidentId
  deriving DecidableEq

/-- `SERVICES`: the workloads of the sandbox. -/
def SERVICES : List String :=
  ["payments-api", "risk-sim", "processor-adapter", "ledger-sim", "webhook-sim"]

end PayOps
