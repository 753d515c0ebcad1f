import PayOps.Policy.Contracts
import PayOps.Process.Program

/-!
# Policy evaluation

The deny-default evaluation of `payops.policy.engine`. Evaluation reads the clock and the
retained artifacts; `Readings` names these requests, and everything else is a function of the
proposal and of the context.

## What is proved

* `evaluate_within` — evaluation asks for nothing but its readings.
-/

namespace PayOps.Policy

open Process Program

variable [Platform]

/-- A store of retained artifacts, by its root. -/
structure ArtifactStore where
  /-- The directory. -/
  root : String

/-- What backend identity, incident storage and resource reads say. -/
structure PolicyContext where
  /-- Who asks. -/
  principal : Option Principal
  /-- The incident. -/
  incident : Incident
  /-- The resource. -/
  resource : ResourceSnapshot
  /-- The artifacts of the incident. -/
  store : ArtifactStore

/-- `Status` of a payment window. -/
inductive WindowStatus where
  /-- `complete`. -/
  | complete
  /-- `missing`. -/
  | missing
  /-- `reset`. -/
  | reset
  /-- `mixed_epoch`. -/
  | mixedEpoch
  deriving DecidableEq

/-- The services an action may touch. -/
def SERVICES : List String := ["payments-api", "processor-adapter", "risk-sim", "webhook-sim"]

/-- The canonical text of a proposal. -/
def canonical (proposal : Action) : String := (Json.obj proposal.dump).text .canonical

/-- The digest that binds every field of a proposal. -/
def actionDigest (proposal : Action) : String := Platform.sha256 (canonical proposal)

/-- Whether a refreshed identity has the role in the namespace at `now`. -/
def identityValid (principal : Option Principal) (role : Role) (nameSpace : Identifier) (now : Time) :
    Bool :=
  match principal with
  | none => false
  | some p =>
    p.enabled && role ∈ p.roles && nameSpace ∈ p.nameSpaces && now < p.expiresAt &&
      0 ≤ now - p.verifiedAt && now - p.verifiedAt ≤ seconds 60

/-- The kind of resource an action is about. -/
def Action.expectedKind (a : Action) : ResourceKind :=
  match a.effect with
  | .pause => .traffic
  | _ => .deployment

/-- A rollback names an approved revision. -/
def Action.revisionApproved (a : Action) (resource : ResourceSnapshot) : Bool :=
  match a.effect with
  | .rollback revision => revision ∈ resource.approvedRevisions
  | _ => true

/-- Why the proposal is out of scope, if it is. -/
def scopeFailure (proposal : Action) (context : PolicyContext) (now : Time) : Option String :=
  let incident := context.incident
  let resource := context.resource
  if !identityValid context.principal .responder proposal.nameSpace now then some "IDENTITY_DENIED"
  else if proposal.nameSpace.val ≠ "payops-sandbox" ∨ proposal.service.val ∉ SERVICES then
    some "SCOPE_DENIED"
  else if proposal.incidentId ≠ incident.incidentId ∨ proposal.nameSpace ≠ incident.nameSpace then
    some "INCIDENT_SCOPE_MISMATCH"
  else if proposal.nameSpace ≠ resource.nameSpace ∨ proposal.service ≠ resource.service then
    some "RESOURCE_SCOPE_MISMATCH"
  else if proposal.mode ≠ resource.mode then some "OPERATION_MODE_MISMATCH"
  else if !resource.synthetic ∨
      ¬(0 ≤ now - resource.observedAt ∧ now - resource.observedAt ≤ seconds 30) then
    some "RESOURCE_NOT_CURRENT"
  else if proposal.resourceUid ≠ resource.uid ∨ proposal.expectedVersion ≠ resource.version then
    some "STALE_PRECONDITION"
  else if resource.kind ≠ proposal.expectedKind then some "RESOURCE_KIND_MISMATCH"
  else if !proposal.revisionApproved resource then some "REVISION_NOT_APPROVED"
  else none

/-! ### Evaluation against the retained artifacts -/

/-- What evaluation asks of its environment. -/
class Readings (I : Interface) where
  /-- `utc_now()`. -/
  utcNow : Program I Time
  /-- `store.verify(item)`. -/
  verify : ArtifactStore → EvidenceItem → Program I Unit
  /-- `verify_payment_window(item, store).status`. -/
  paymentWindow : ArtifactStore → EvidenceItem → Program I WindowStatus
  /-- The fault is a `KeyError`, a `ValueError` or an `OSError`. -/
  degrades : I.Fault → Bool

variable {I : Interface} [Readings I]

/-- Why an item cannot justify an effect, if it cannot; a broken artifact raises. -/
def operationalEvidence (item : EvidenceItem) (store : ArtifactStore) : Program I (Option String) := do
  if item.source = .runbook ∨ item.source = .memory ∨ item.source = .trace then
    return some "EVIDENCE_NOT_OPERATIONAL"
  if item.source = .log ∧ item.query.val = "trace.console-log.v1" then
    return some "EVIDENCE_NOT_OPERATIONAL"
  if item.source = .payment then
    if (← Readings.paymentWindow store item) ≠ .complete then
      return some "EVIDENCE_NOT_OPERATIONAL"
  else
    Readings.verify store item
  return none

/-- The cited items one after the other; the first that fails decides. -/
def citedFailure (proposal : Action) (evidence : List EvidenceItem) (store : ArtifactStore)
    (now : Time) : List Identifier → Program I (Option String)
  | [] => pure none
  | cited :: rest =>
    match evidence.find? fun item => item.evidenceId == cited with
    | none => pure (some "EVIDENCE_INVALID")
    | some item =>
      if item.incidentId ≠ proposal.incidentId then pure (some "EVIDENCE_SCOPE_MISMATCH")
      else if ¬(0 ≤ now - item.observedAt ∧ now - item.observedAt ≤ seconds 300) then
        pure (some "EVIDENCE_STALE")
      else if ¬(0 ≤ now - item.collectedAt ∧ now - item.collectedAt ≤ seconds 300) then
        pure (some "EVIDENCE_STALE")
      else do
        match ← operationalEvidence item store with
        | some failure => pure (some failure)
        | none => citedFailure proposal evidence store now rest

/-- Why the evidence does not justify the proposal, if it does not. -/
def evidenceFailure (proposal : Action) (context : PolicyContext) (now : Time) :
    Program I (Option String) :=
  match context.incident.report with
  | none => pure (some "INCIDENT_NOT_ACTIONABLE")
  | some report =>
    if report.terminalState ≠ .escalated then pure (some "INCIDENT_NOT_ACTIONABLE")
    else if report.mode ≠ context.resource.mode.report then pure (some "EVIDENCE_MODE_MISMATCH")
    else try
      citedFailure proposal report.evidence context.store now proposal.evidenceIds
    catch fault =>
      if Readings.degrades fault then pure (some "EVIDENCE_INVALID") else throw fault

/-- How risky an action is. -/
inductive RiskTier where
  /-- `R2`. -/
  | r2
  /-- `R3`. -/
  | r3
  deriving DecidableEq

/-- The risk of an action. -/
def Action.risk (a : Action) : RiskTier :=
  match a.effect with
  | .scale .. => .r3
  | .rollback _ => .r3
  | _ => .r2

/-- What a review decides. -/
inductive PolicyReview where
  /-- `DENY`, with the reason. -/
  | deny (reason : String)
  /-- `APPROVAL_REQUIRED`, with the risk, the proposal and its digest. -/
  | approvalRequired (riskTier : RiskTier) (proposal : Action) (digest : String)

/-- Evaluate an untrusted proposal. -/
def evaluate (value : JsonObject) (context : PolicyContext) : Program I PolicyReview :=
  match Action.validate value with
  | none => pure (.deny "INVALID_PROPOSAL")
  | some proposal => do
    let now ← Readings.utcNow
    match scopeFailure proposal context now with
    | some reason => return .deny reason
    | none =>
      match ← evidenceFailure proposal context now with
      | some reason => return .deny reason
      | none => return .approvalRequired proposal.risk proposal (actionDigest proposal)

/-! ### What evaluation asks for -/

section Within

variable {P : I.Effect → Prop} (hnow : Within P (Readings.utcNow (I := I)))
  (hverify : ∀ s e, Within P (Readings.verify (I := I) s e))
  (hwindow : ∀ s e, Within P (Readings.paymentWindow (I := I) s e))

include hverify hwindow in
theorem operationalEvidence_within (item : EvidenceItem) (store : ArtifactStore) :
    Within P (operationalEvidence (I := I) item store) := by
  unfold operationalEvidence
  split_ifs
  · trivial
  · trivial
  · refine (hwindow store item).bind fun status => ?_
    split_ifs <;> trivial
  · exact (hverify store item).bind fun _ => trivial

include hverify hwindow in
theorem citedFailure_within (proposal : Action) (evidence : List EvidenceItem) (store : ArtifactStore)
    (now : Time) (cited : List Identifier) :
    Within P (citedFailure (I := I) proposal evidence store now cited) := by
  induction cited with
  | nil => trivial
  | cons i rest ih =>
    rw [citedFailure]
    split
    · trivial
    · rename_i item _
      split_ifs
      · trivial
      · refine (operationalEvidence_within hverify hwindow item store).bind fun failure => ?_
        cases failure with
        | none => exact ih
        | some _ => trivial
      · trivial
      · trivial

include hverify hwindow in
theorem evidenceFailure_within (proposal : Action) (context : PolicyContext) (now : Time) :
    Within P (evidenceFailure (I := I) proposal context now) := by
  unfold evidenceFailure
  split
  · trivial
  · split_ifs
    · trivial
    · trivial
    · refine (citedFailure_within hverify hwindow _ _ _ _ _).tryCatch fun fault => ?_
      split_ifs <;> trivial

include hnow hverify hwindow in
/-- **Evaluation asks for nothing but its readings.** -/
theorem evaluate_within (value : JsonObject) (context : PolicyContext) :
    Within P (evaluate (I := I) value context) := by
  unfold evaluate
  split
  · trivial
  · refine hnow.bind fun now => ?_
    split
    · trivial
    · refine (evidenceFailure_within hverify hwindow ..).bind fun failure => ?_
      cases failure <;> trivial

end Within

end PayOps.Policy
