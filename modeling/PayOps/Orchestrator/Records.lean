import PayOps.Orchestrator.Budget

/-!
# What the reasoning loop retains

The contexts and prompts of a turn, the outcomes of calls and reads, and the receipts that keep
them, from `payops.evidence.context`, `payops.orchestrator.model_runtime`,
`payops.tools.registry` and `payops.orchestrator.loop_records`; and the artifacts a store holds.

## The model

An artifact is the record its text was written from, and its name is the digest of that text.
`Retention` gives the digest and the length of a text; every result holds whatever they are.

What an observation says of usage, timing and the provider's details is kept whole, as JSON: the
loop retains it and reads none of it.
-/

namespace PayOps.Orchestrator

variable [Platform]

/-! ### Contexts -/

/-- One item of a context. -/
structure ContextEntry where
  /-- The item. -/
  evidence : EvidenceItem
  /-- Its verified facts. -/
  facts : Option JsonObject
  /-- The facts were too large. -/
  factsOmitted : Bool
  deriving DecidableEq

/-- The evidence of one turn. -/
structure ReasoningContext where
  /-- What is included. -/
  entries : List ContextEntry
  /-- How many items are not. -/
  omittedCount : ℕ
  deriving DecidableEq

/-- `evidence_ids()`. -/
def ReasoningContext.evidenceIds (c : ReasoningContext) : List Identifier :=
  c.entries.map fun e => e.evidence.evidenceId

/-! ### Model calls -/

/-- Whether outcomes come from a fixture or from a provider. -/
inductive LoopMode where
  /-- `fixture`. -/
  | fixture
  /-- `provider`. -/
  | provider
  deriving DecidableEq

/-- The settings of a model. -/
structure ModelSettings where
  /-- The provider. -/
  provider : Identifier
  /-- The model. -/
  model : String
  /-- The mode. -/
  mode : LoopMode
  /-- The cap on prompts. -/
  inputTokenLimit : { n : ℕ // 1 ≤ n ∧ n ≤ 100000 }
  /-- The cap on answers. -/
  outputTokenLimit : { n : ℕ // 1 ≤ n ∧ n ≤ 16384 }
  /-- How long a call may take. -/
  timeoutSeconds : ℚ
  /-- The rates. -/
  price : TextPrice
  /-- How input tokens are counted. -/
  tokenAccounting : TokenAccounting
  /-- `accounting_mode`. -/
  accountingMode : mode = .provider ↔ tokenAccounting = .providerCeiling
  deriving DecidableEq

/-- `settings.provider == "local_llama"`. -/
def ModelSettings.isLocal (s : ModelSettings) : Bool := s.provider.val == "local_llama"

/-- `PromptMessage.content`: 1 to 32768 characters. -/
def contentOk (s : String) : Bool := 1 ≤ s.toList.length && s.toList.length ≤ 32768

/-- A prepared prompt: the host's instruction, then the evidence. -/
structure ModelPrompt where
  /-- The system message. -/
  system : { s : String // contentOk s = true }
  /-- The user message. -/
  user : { s : String // contentOk s = true }
  /-- Its tokens. -/
  inputTokens : UpTo 100000
  /-- How they are counted. -/
  tokenAccounting : TokenAccounting
  deriving DecidableEq

/-- How a call of the model came out. -/
inductive ObservationStatus where
  /-- `OK`. -/
  | ok
  /-- `REFUSED`. -/
  | refused
  /-- `INVALID_OUTPUT`. -/
  | invalidOutput
  /-- `ERROR`. -/
  | error
  /-- `TIMEOUT`. -/
  | timeout
  /-- `DENIED`. -/
  | denied
  /-- `BUSY`. -/
  | busy
  deriving DecidableEq

/-- The reason to stop at an outcome; `OK` is none. -/
def ObservationStatus.stop : ObservationStatus → Option StopReason
  | ok => none
  | refused => some .refused
  | invalidOutput => some .invalidOutput
  | error => some .error
  | timeout => some .timeout
  | denied => some .denied
  | busy => some .busy

/-- What `ModelObservation.coherent` checks. -/
def observationOk (status : ObservationStatus) (decision : Option ReasoningDecision) : Bool :=
  match decision with
  | none => status != .ok && status != .refused
  | some d => if d.decision = .refuse then status == .refused else status == .ok

/-- The outcome of a call of the model. -/
structure ModelObservation where
  /-- How it came out. -/
  status : ObservationStatus
  /-- What the model decided. -/
  decision : Option ReasoningDecision
  /-- Usage, timing and the provider's details. -/
  details : JsonObject
  /-- `coherent`. -/
  coherent : observationOk status decision = true
  deriving DecidableEq

/-- A successful outcome has a decision, and it is no refusal. -/
theorem ModelObservation.decision_of_ok {o : ModelObservation} (h : o.status = .ok) :
    ∃ d, o.decision = some d ∧ d.decision ≠ .refuse := by
  have hc := o.coherent
  cases hd : o.decision with
  | none => simp [observationOk, hd, h] at hc
  | some d =>
    refine ⟨d, rfl, fun hr => ?_⟩
    simp [observationOk, hd, h, hr] at hc

/-! ### Reads -/

/-- How a read came out. -/
inductive ReadStatus where
  /-- `OK`. -/
  | ok
  /-- `DENIED`. -/
  | denied
  /-- `ERROR`. -/
  | error
  /-- `TIMEOUT`. -/
  | timeout
  /-- `BUSY`. -/
  | busy
  /-- `BUDGET_EXHAUSTED`. -/
  | budgetExhausted
  deriving DecidableEq

/-- The name of a status. -/
def ReadStatus.name : ReadStatus → String
  | ok => "OK"
  | denied => "DENIED"
  | error => "ERROR"
  | timeout => "TIMEOUT"
  | busy => "BUSY"
  | budgetExhausted => "BUDGET_EXHAUSTED"

/-- The outcome of a read. -/
structure ReadResult where
  /-- The read. -/
  request : ReadRequest
  /-- How it came out. -/
  status : ReadStatus
  /-- What it found. -/
  evidence : List EvidenceItem := []
  /-- `Field(max_length=64)`. -/
  bounded : evidence.length ≤ 64 := by decide
  deriving DecidableEq

/-! ### Receipts -/

/-- A prepared prompt with what it was made from. -/
structure PreparedTurn where
  /-- The run. -/
  runId : Identifier
  /-- The operation. -/
  operationId : Identifier
  /-- What the run is bound to. -/
  bindingSha256 : Digest
  /-- The evidence of the turn. -/
  context : ReasoningContext
  /-- The prompt. -/
  prompt : ModelPrompt
  deriving DecidableEq

/-- The outcome of one reserved prompt. -/
structure ModelReceipt where
  /-- The run. -/
  runId : Identifier
  /-- The operation. -/
  operationId : Identifier
  /-- The prompt. -/
  promptSha256 : Digest
  /-- The outcome. -/
  observation : ModelObservation
  deriving DecidableEq

/-- The outcomes of one batch of reads. -/
structure ReadReceipt where
  /-- The run. -/
  runId : Identifier
  /-- The operation. -/
  operationId : Identifier
  /-- The outcomes. -/
  results : List ReadResult
  deriving DecidableEq

/-- What a run is bound to. -/
structure LoopBinding where
  /-- The version of the contract. -/
  version : String
  /-- The incident. -/
  incident : Incident
  /-- The evidence it starts from. -/
  initial : List EvidenceItem
  /-- Who acts. -/
  subject : String
  /-- The causes it may report. -/
  causes : List String
  /-- The model. -/
  settings : ModelSettings
  /-- The allowances. -/
  limits : ReasoningBudget
  deriving DecidableEq

/-! ### Artifacts -/

/-- The content of an artifact. -/
inductive Artifact where
  /-- An item of evidence: its metadata, and the other fields of the envelope. -/
  | envelope (evidence : EvidenceMetadata) (fields : JsonObject)
  /-- What a run is bound to. -/
  | binding (value : LoopBinding)
  /-- A prepared prompt. -/
  | preparedTurn (value : PreparedTurn)
  /-- The outcome of a prompt. -/
  | modelReceipt (value : ModelReceipt)
  /-- The outcomes of a batch of reads. -/
  | readReceipt (value : ReadReceipt)
  deriving DecidableEq

/-- `MAX_ARTIFACT_BYTES`. -/
def MAX_ARTIFACT_BYTES : ℕ := 1048576

/-- The canonical text of an artifact. -/
class Retention where
  /-- The digest of the text. -/
  digest : Artifact → Digest
  /-- The length of the text in bytes. -/
  bytes : Artifact → ℕ

end PayOps.Orchestrator
