import PayOps.Orchestrator.Records

/-!
# The state of an investigation

The state that `payops.orchestrator.state` saves between the nodes of the graph, and the
collection of `payops.tools.collect`.

## The model

A checkpoint holds the state itself and not its text: a state is saved by its own validated
contract and read back by the same.
-/

namespace PayOps.Orchestrator

variable [Platform]

/-- How far an investigation is. -/
inductive Phase where
  /-- `RECEIVED`. -/
  | received
  /-- `TRIAGED`. -/
  | triaged
  /-- `READS_RESERVED`. -/
  | readsReserved
  /-- `EVIDENCE_COLLECTED`. -/
  | evidenceCollected
  /-- `RANKED`. -/
  | ranked
  /-- `FINISHED`. -/
  | finished
  deriving DecidableEq

/-- Which reads the collector makes. -/
inductive CollectionProfile where
  /-- `instant_v1`. -/
  | instantV1
  /-- `payment_windows_v1`. -/
  | paymentWindowsV1
  deriving DecidableEq

/-- The allowances of an investigation. -/
structure InvestigationBudget where
  /-- Attempts at nodes. -/
  maxSteps : UpTo 16
  /-- Reads. -/
  maxToolCalls : UpTo 40
  /-- Underlying commands and queries. -/
  maxBackendReads : UpTo 64
  /-- No node starts after it. -/
  nodeStartDeadline : Time
  deriving DecidableEq

/-- A step that was taken. -/
structure StepRecord where
  /-- The node. -/
  node : String
  /-- When. -/
  observedAt : Time
  /-- How long it took. -/
  durationSeconds : Duration
  deriving DecidableEq

/-- A read of the collector that failed. -/
structure CollectionFailure where
  /-- The tool. -/
  tool : String
  /-- The resource. -/
  resource : String
  /-- The exception. -/
  errorType : String
  deriving DecidableEq

/-- What the collector returned. -/
structure Collection where
  /-- The incident. -/
  incidentId : String
  /-- What it found. -/
  evidence : List EvidenceItem
  /-- What failed. -/
  failures : List CollectionFailure
  deriving DecidableEq

/-- The state of an investigation. -/
structure InvestigationState where
  /-- The incident. -/
  incident : Incident
  /-- The allowances. -/
  budget : InvestigationBudget
  /-- Where the reads go. -/
  mode : ReportMode
  /-- Which reads are made. -/
  collectionProfile : CollectionProfile
  /-- What ranks. -/
  rankingProfile : Identifier
  /-- How it ranks. -/
  rankingMethod : RankingMethod
  /-- Why the reasoning stopped. -/
  reasoningStopReason : Option Identifier := none
  /-- The receipts of the reasoning. -/
  reasoningReceipts : { l : List Digest // l.length ≤ 20 } := ⟨[], no_receipts⟩
  /-- How far it is. -/
  phase : Phase := .received
  /-- Attempts so far. -/
  stepsUsed : UpTo 16 := .zero 16
  /-- Reads reserved. -/
  toolCallsReserved : UpTo 40 := .zero 40
  /-- Commands and queries reserved. -/
  backendReadsReserved : UpTo 64 := .zero 64
  /-- The evidence. -/
  evidence : List EvidenceItem := []
  /-- What failed. -/
  failures : List CollectionFailure := []
  /-- The ranking. -/
  hypotheses : List RootCauseHypothesis := []
  /-- How it ends, once that is decided. -/
  terminal : Option TerminalState := none
  /-- The steps taken. -/
  steps : List StepRecord := []
  /-- The report. -/
  report : Option IncidentReport := none
  deriving DecidableEq

/-- A number as a bounded field; pydantic raises if it is too large. -/
def UpTo.validate (n k : ℕ) : Except Fault (UpTo n) :=
  if h : k ≤ n then .ok ⟨k, h⟩ else .error (.value "Input should be less than or equal")

omit [Platform] in
theorem UpTo.validate_eq_ok {n k : ℕ} {u : UpTo n} : UpTo.validate n k = .ok u ↔ u.val = k := by
  unfold UpTo.validate
  constructor
  · intro h
    split_ifs at h
    cases h
    rfl
  · rintro rfl
    rw [dif_pos u.property]

/-- The stages of the graph. -/
inductive Node where
  /-- `triage`. -/
  | triage
  /-- `reserve`. -/
  | reserve
  /-- `collect`. -/
  | collect
  /-- `rank`. -/
  | rank
  /-- `finish`. -/
  | finish
  deriving DecidableEq

/-- The name of a stage. -/
def Node.name : Node → String
  | triage => "triage"
  | reserve => "reserve"
  | collect => "collect"
  | rank => "rank"
  | finish => "finish"

/-- What the saver holds of a thread: the state, and the stage that comes next. -/
structure Checkpoint where
  /-- The state. -/
  state : InvestigationState
  /-- The next stage; none at the end. -/
  next : Option Node
  deriving DecidableEq

end PayOps.Orchestrator
