import PayOps.Contracts
import PayOps.Faults

/-!
# Model decisions and read requests

The closed vocabulary of `payops.orchestrator.reasoning`: what a model may ask for, what it may
decide, and the checks a decision passes before the loop uses it; and the catalog of reads with
their costs, from `payops.tools.registry`.

## The model

A float is its value with the representation `json.dumps` gives it. The code compares requests by
their JSON texts, which is comparing the requests.

## Honest scope

`parse_decision` is modelled on the text of a validated decision, which is how the loop calls it:
reading such a text back gives the decision, so what remains are the byte bound and the
citations. The parsing of a provider's own text happens before the loop sees an observation.
-/

namespace PayOps.Orchestrator

variable [Platform]

/-! ### Reads -/

/-- The reads a model may select. -/
inductive ToolName where
  /-- `workload_status`. -/
  | workloadStatus
  /-- `pod_events`. -/
  | podEvents
  /-- `recent_logs`. -/
  | recentLogs
  /-- `payment_snapshot`. -/
  | paymentSnapshot
  /-- `runbook_search`. -/
  | runbookSearch
  /-- `incident_search`. -/
  | incidentSearch
  deriving DecidableEq

/-- The name of a tool. -/
def ToolName.name : ToolName → String
  | workloadStatus => "workload_status"
  | podEvents => "pod_events"
  | recentLogs => "recent_logs"
  | paymentSnapshot => "payment_snapshot"
  | runbookSearch => "runbook_search"
  | incidentSearch => "incident_search"

/-- `Service` of the payment windows. -/
inductive Service where
  /-- `payments-api`. -/
  | paymentsApi
  /-- `processor-adapter`. -/
  | processorAdapter
  /-- `risk-sim`. -/
  | riskSim
  /-- `ledger-sim`. -/
  | ledgerSim
  /-- `webhook-sim`. -/
  | webhookSim
  deriving DecidableEq

/-- The name of a service. -/
def Service.name : Service → String
  | paymentsApi => "payments-api"
  | processorAdapter => "processor-adapter"
  | riskSim => "risk-sim"
  | ledgerSim => "ledger-sim"
  | webhookSim => "webhook-sim"

/-- A tool of the catalog. -/
structure ReadSpec where
  /-- What it does. -/
  description : String
  /-- The commands or queries it makes. -/
  backendReads : ℕ
  /-- How long it may take. -/
  deadlineSeconds : ℕ

/-- The catalog of reads. -/
def CATALOG : ToolName → ReadSpec
  | .workloadStatus => ⟨"Read workload rollout and current labeled pod status.", 2, 26⟩
  | .podEvents => ⟨"Read events bound to current pod identities.", 2, 26⟩
  | .recentLogs => ⟨"Read bounded recent application logs as untrusted evidence.", 1, 14⟩
  | .paymentSnapshot => ⟨"Read counters and scrape watermark at one fixed instant.", 2, 14⟩
  | .runbookSearch => ⟨"Search scoped runbooks; guidance has no action authority.", 1, 8⟩
  | .incidentSearch => ⟨"Search scoped prior incidents with original source times.", 1, 8⟩

/-- The tools in the order of the catalog. -/
def ToolName.all : List ToolName :=
  [workloadStatus, podEvents, recentLogs, paymentSnapshot, runbookSearch, incidentSearch]

/-- `query_scope`: search text goes with the search tools, and with these only. -/
def queryScope (tool : ToolName) (query : Option String) : Bool :=
  (tool == .runbookSearch || tool == .incidentSearch) == query.isSome

/-- One read a model selects. -/
structure ReadRequest where
  /-- The tool. -/
  tool : ToolName
  /-- The service it is about. -/
  service : Service
  /-- The search text. -/
  query : Option String
  /-- `Field(min_length=1, max_length=240)`. -/
  bounded : ∀ q ∈ query, 1 ≤ q.toList.length ∧ q.toList.length ≤ 240
  /-- `query_scope`. -/
  scope : queryScope tool query = true
  deriving DecidableEq

/-- The underlying commands and queries of a batch. -/
def backendCost (requests : List ReadRequest) : ℕ :=
  (requests.map fun item => (CATALOG item.tool).backendReads).sum

/-! ### Decisions -/

/-- `Brief`: a string of 1 to 600 characters. -/
abbrev Brief := { s : String // 1 ≤ s.toList.length ∧ s.toList.length ≤ 600 }

/-- A score between 0 and 1, with its representation. -/
structure Confidence where
  /-- Its value. -/
  value : ℚ
  /-- Its representation. -/
  repr : String
  /-- `Field(ge=0, le=1)`. -/
  bounded : 0 ≤ value ∧ value ≤ 1

omit [Platform] in
theorem Confidence.eq_iff (a b : Confidence) : (a.value = b.value ∧ a.repr = b.repr) ↔ a = b := by
  cases a
  cases b
  simp

instance : DecidableEq Confidence := fun a b =>
  decidable_of_iff (a.value = b.value ∧ a.repr = b.repr) (Confidence.eq_iff a b)

/-- A cause a model reports. -/
structure RankedCause where
  /-- The cause. -/
  causeCode : Identifier
  /-- Its score. -/
  confidence : Confidence
  /-- The evidence for it. -/
  supportingEvidenceIds : List Identifier
  /-- The evidence against it. -/
  refutingEvidenceIds : List Identifier
  /-- What was not seen. -/
  missingEvidence : List Brief
  /-- `Field(min_length=1, max_length=8)`. -/
  supported : 1 ≤ supportingEvidenceIds.length ∧ supportingEvidenceIds.length ≤ 8
  /-- `Field(max_length=8)`. -/
  refuted : refutingEvidenceIds.length ≤ 8
  /-- `Field(max_length=4)`. -/
  missing : missingEvidence.length ≤ 4

/-- The fields of a cause are the same. -/
def RankedCause.Same (a b : RankedCause) : Prop :=
  a.causeCode = b.causeCode ∧ a.confidence = b.confidence ∧
    a.supportingEvidenceIds = b.supportingEvidenceIds ∧
    a.refutingEvidenceIds = b.refutingEvidenceIds ∧ a.missingEvidence = b.missingEvidence

instance (a b : RankedCause) : Decidable (a.Same b) := inferInstanceAs (Decidable (_ ∧ _))

theorem RankedCause.same_iff (a b : RankedCause) : a.Same b ↔ a = b := by
  cases a
  cases b
  simp [RankedCause.Same]

instance : DecidableEq RankedCause := fun a b => decidable_of_iff (a.Same b) (RankedCause.same_iff a b)

/-- What a decision is. -/
inductive DecisionKind where
  /-- `read`. -/
  | read
  /-- `finish`. -/
  | finish
  /-- `refuse`. -/
  | refuse
  deriving DecidableEq

/-- The name of a kind of decision. -/
def DecisionKind.name : DecisionKind → String
  | read => "read"
  | finish => "finish"
  | refuse => "refuse"

/-- What `ReasoningDecision.coherent` raises, if it raises. -/
def decisionFailure (decision : DecisionKind) (reads : List ReadRequest) (causes : List RankedCause) :
    Option String :=
  if (decision == .read) != !reads.isEmpty then
    some "read decision must contain a bounded read request"
  else if decision ≠ .finish ∧ causes ≠ [] then
    some "only a finish decision may publish hypotheses"
  else if ¬reads.Nodup then some "duplicate read requests"
  else if ¬(causes.map RankedCause.causeCode).Nodup then some "duplicate ranked causes"
  else none

/-- A decision of a model. -/
structure ReasoningDecision where
  /-- What it is. -/
  decision : DecisionKind
  /-- Its brief. -/
  summary : Brief
  /-- The reads it asks for. -/
  reads : List ReadRequest
  /-- The causes it reports. -/
  hypotheses : List RankedCause
  /-- `Field(max_length=2)`. -/
  readsBounded : reads.length ≤ 2
  /-- `Field(max_length=3)`. -/
  hypothesesBounded : hypotheses.length ≤ 3
  /-- `coherent`. -/
  coherent : decisionFailure decision reads hypotheses = none
  deriving DecidableEq

/-- Only a read decision asks for reads, and it asks for at least one. -/
theorem ReasoningDecision.reads_nonempty (d : ReasoningDecision) :
    d.reads ≠ [] ↔ d.decision = .read := by
  have h := d.coherent
  unfold decisionFailure at h
  split_ifs at h with hc
  cases hd : d.decision <;> cases hr : d.reads <;> simp_all

/-- A decision asks for no read twice. -/
theorem ReasoningDecision.reads_nodup (d : ReasoningDecision) : d.reads.Nodup := by
  have h := d.coherent
  unfold decisionFailure at h
  split_ifs at h with _ _ hn
  exact hn

/-! ### Texts -/

/-- A request as JSON. -/
def ReadRequest.dump (r : ReadRequest) : Json :=
  .obj [("tool", .str r.tool.name), ("service", .str r.service.name),
    ("query", (r.query.map Json.str).getD .null)]

/-- A ranked cause as JSON. -/
def RankedCause.dump (c : RankedCause) : Json :=
  .obj [("cause_code", .str c.causeCode.val), ("confidence", .float c.confidence.repr),
    ("supporting_evidence_ids", .arr (c.supportingEvidenceIds.map fun i => .str i.val)),
    ("refuting_evidence_ids", .arr (c.refutingEvidenceIds.map fun i => .str i.val)),
    ("missing_evidence", .arr (c.missingEvidence.map fun b => .str b.val))]

/-- A decision as JSON. -/
def ReasoningDecision.dump (d : ReasoningDecision) : Json :=
  .obj [("decision", .str d.decision.name), ("summary", .str d.summary.val),
    ("reads", .arr (d.reads.map ReadRequest.dump)),
    ("hypotheses", .arr (d.hypotheses.map RankedCause.dump))]

/-- `decision.model_dump_json()`. -/
def ReasoningDecision.json (d : ReasoningDecision) : String := d.dump.text .record

/-! ### What the loop does with a decision -/

/-- What is wrong with the citations of a cause, if anything is. -/
def RankedCause.failure (c : RankedCause) (evidenceIds : List Identifier) (causeCodes : List String) :
    Option String :=
  let supports := c.supportingEvidenceIds
  let refutes := c.refutingEvidenceIds
  if c.causeCode.val ∉ causeCodes ∨ ¬(supports ++ refutes ⊆ evidenceIds) then
    some "model output contains an unresolved cause or citation"
  else if (supports.any fun i => i ∈ refutes) ∨ ¬supports.Nodup ∨ ¬refutes.Nodup then
    some "model output contains conflicting or duplicate citations"
  else none

/-- `parse_decision(decision.model_dump_json(), …)`: what it raises, if it raises. -/
def ReasoningDecision.failure (d : ReasoningDecision) (evidenceIds : List Identifier)
    (causeCodes : List String) : Option String :=
  if d.json.utf8ByteSize > 16384 then some "model output exceeds byte budget"
  else d.hypotheses.findSome? fun c => c.failure evidenceIds causeCodes

/-- `RootCauseHypothesis.model_validate(cause.model_dump())`: a missing brief has to be a summary. -/
def RankedCause.hypothesis (c : RankedCause) : Option RootCauseHypothesis := do
  let missing ← c.missingEvidence.mapM fun b => Summary.validate b.val
  return ⟨c.causeCode, c.confidence.value, c.supportingEvidenceIds, c.refutingEvidenceIds, missing,
    c.confidence.bounded⟩

/-- `hypotheses(decision)`. -/
def hypotheses (d : ReasoningDecision) : Except Fault (List RootCauseHypothesis) :=
  if d.decision ≠ .finish then .error (.value "decision is not final")
  else match d.hypotheses.mapM RankedCause.hypothesis with
    | some values => .ok values
    | none => .error (.value "invalid hypothesis")

/-- A published hypothesis keeps the cause and the citations of the ranked cause. -/
theorem RankedCause.hypothesis_eq_some {c : RankedCause} {h : RootCauseHypothesis}
    (hc : c.hypothesis = some h) :
    h.causeCode = c.causeCode ∧ h.supportingEvidenceIds = c.supportingEvidenceIds ∧
      h.refutingEvidenceIds = c.refutingEvidenceIds := by
  obtain ⟨missing, -, hh⟩ := Option.bind_eq_some_iff.mp hc
  obtain rfl := Option.some.inj hh
  exact ⟨rfl, rfl, rfl⟩

/-! ### Prices -/

/-- `Count`: a number up to ten million. -/
abbrev Count := { n : ℕ // n ≤ 10000000 }

/-- Nanodollars for each token. -/
structure TextPrice where
  /-- `input_nano_usd`. -/
  inputNanoUsd : Count
  /-- `cached_input_nano_usd`. -/
  cachedInputNanoUsd : Count
  /-- `output_nano_usd`. -/
  outputNanoUsd : Count
  deriving DecidableEq

/-- How input tokens are counted. -/
inductive TokenAccounting where
  /-- `fixture_exact`. -/
  | fixtureExact
  /-- `provider_ceiling`. -/
  | providerCeiling
  deriving DecidableEq

end PayOps.Orchestrator
