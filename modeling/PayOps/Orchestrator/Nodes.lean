import PayOps.Orchestrator.Baseline
import PayOps.Orchestrator.Loop

/-!
# The nodes of an investigation

`payops.orchestrator.nodes` and `payops.orchestrator.graph_reasoning`: the stages triage, reserve,
collect, rank and finish. Every stage but the last first reserves an attempt, by creating a file.

## The model

A node is a function of the state, with requests to the host. Every update is a record update; the
fields that are bounded are validated again.

## Honest scope

Of the `ValueError`s that end a collection the class is not told apart.
-/

namespace PayOps.Orchestrator

open Process Program Evidence

variable [Platform]

/-! ### Files -/

/-- `incident_directory`. -/
def incidentDirectory (root : String) (incidentId : Identifier) : String :=
  root ++ "/" ++ Platform.sha256 incidentId.val

/-- The directory of the attempt files. -/
def attemptsDirectory (root : String) (incidentId : Identifier) : String :=
  incidentDirectory root incidentId ++ "/attempts"

/-- The root of the artifacts of an incident. -/
def artifactsRoot (root : String) (incidentId : Identifier) : String :=
  incidentDirectory root incidentId ++ "/artifacts"

/-! ### Attempts -/

/-- There is a step left, and time. -/
def mayStart (state : InvestigationState) (used : ℕ) : Program Host Bool :=
  if state.budget.maxSteps.val ≤ used then return false
  else do
    let now ← ask .utcNow
    return now < state.budget.nodeStartDeadline

/-- `reserve_attempt`: an attempt is an attempt file, which is created once. -/
def reserveAttempt (root : String) (state : InvestigationState) (node : Node) :
    Program Host InvestigationState := do
  let directory := attemptsDirectory root state.incident.incidentId
  ask (.mkdir directory)
  let files ← ask (.countAttempts directory)
  let used := max state.stepsUsed.val files
  let allowed ← mayStart state used
  if allowed then
    let observedAt ← ask .utcNow
    ask (.createAttempt directory (used + 1))
    ask (.writeAttempt directory (used + 1) ⟨node.name, observedAt, .zero⟩)
    let stepsUsed ← ofResult (UpTo.validate 16 (used + 1))
    return { state with stepsUsed }
  else
    let stepsUsed ← ofResult (UpTo.validate 16 used)
    return { state with stepsUsed, terminal := some .budgetExhausted }

/-- The nodes of a graph. -/
structure InvestigationNodes where
  /-- The root of the incidents. -/
  root : String
  /-- `reasoner_factory`. -/
  reasonerFactory : Option (InvestigationState → Except Fault ReasoningLoop)

/-- A node whose attempt was denied does nothing else. -/
def operate (operation : InvestigationState → Program Host InvestigationState)
    (reserved : InvestigationState) : Program Host InvestigationState :=
  if reserved.terminal.isSome then return reserved else operation reserved

/-- `_step`. -/
def step (root : String) (state : InvestigationState) (node : Node)
    (operation : InvestigationState → Program Host InvestigationState) :
    Program Host InvestigationState := do
  let reserved ← reserveAttempt root state node
  let result ← operate operation reserved
  let observedAt ← ask .utcNow
  let durationSeconds ← ask .elapsed
  return { result with steps := state.steps ++ [⟨node.name, observedAt, durationSeconds⟩] }

/-! ### Triage and reservation -/

/-- `triage`. -/
def triage (state : InvestigationState) : InvestigationState :=
  let terminal := if state.incident.nameSpace.val = "payops-sandbox" ∧
    state.incident.service.val ∈ SERVICES then none else some .securityBlock
  { state with phase := .triaged, terminal }

/-- The reads that a profile makes. -/
def CollectionProfile.backendReads : CollectionProfile → ℕ
  | .paymentWindowsV1 => 34
  | .instantV1 => 30

/-- `reserve`. -/
def reserve (state : InvestigationState) : Except Fault InvestigationState := do
  let reserved := state.toolCallsReserved.val + 20
  let backend := state.backendReadsReserved.val + state.collectionProfile.backendReads
  if state.budget.maxToolCalls.val < reserved then
    return { state with terminal := some .budgetExhausted }
  else if state.budget.maxBackendReads.val < backend then
    return { state with terminal := some .budgetExhausted }
  else
    let toolCallsReserved ← UpTo.validate 40 reserved
    let backendReadsReserved ← UpTo.validate 64 backend
    return { state with phase := .readsReserved, toolCallsReserved, backendReadsReserved }

/-! ### Collection -/

/-- `type(error).__name__`. -/
def errorType : Fault → String
  | .permission _ => "PermissionError"
  | .os name => name
  | .integrity _ => "EvidenceIntegrityError"
  | .value _ => "ValueError"
  | .key _ => "KeyError"
  | .duplicate => "IntegrityError"
  | .conflict _ => "BudgetConflict"
  | .stopped _ => "LoopStopped"
  | .other name => name

variable [Retention] [SourceChecks]

/-- `verify_collected_item`. -/
def verifyCollectedItem (item : EvidenceItem) : Reading Unit :=
  (verifyEvidence item).relabel fun x =>
    if x.isValue then .integrity "collected evidence failed verification" else x

/-- Every item of the collection is the incident's own, and verified. -/
def verifyCollected (incidentId : Identifier) : List EvidenceItem → Reading Unit
  | [] => .done ()
  | item :: items =>
    if item.incidentId ≠ incidentId then .fail (.integrity "evidence belongs to another incident")
    else do
      verifyCollectedItem item
      verifyCollected incidentId items

/-- `_collected`. -/
def collected (root : String) (state : InvestigationState) (result : Collection) :
    Program Host InvestigationState := do
  raiseIf (result.incidentId ≠ state.incident.incidentId.val)
    (.integrity "collection belongs to another incident")
  (verifyCollected state.incident.incidentId result.evidence).program
    (artifactsRoot root state.incident.incidentId)
  return { state with
    phase := .evidenceCollected
    evidence := result.evidence
    failures := result.failures }

/-- A collection is dispatched once: the marker is created before, and the result is kept. -/
def dispatchCollection (root : String) (state : InvestigationState) : Program Host InvestigationState := do
  let output := incidentDirectory root state.incident.incidentId
  ask (.createMarker output)
  let result ← ask (.collect state.incident)
  ask (.createResult output)
  ask (.writeResult output result)
  collected root state result

/-- `_collect`, in its `try`. -/
def collection (root : String) (state : InvestigationState) : Program Host InvestigationState := do
  let output := incidentDirectory root state.incident.incidentId
  let retained ← ask (.resultExists output)
  if retained then
    let result ← ask (.readResult output)
    collected root state result
  else dispatchCollection root state

/-- What a failed collection leaves. -/
def collectionFailed (state : InvestigationState) (x : Fault) : Except Fault InvestigationState :=
  match x with
  | .integrity _ => .ok { state with terminal := some .securityBlock }
  | x =>
    if x.isOs || x.isValue then
      .ok { state with
        terminal := some .dependencyUnavailable
        failures := state.failures ++ [⟨"collection", state.incident.service.val, errorType x⟩] }
    else .error x

/-- `_collect`. -/
def collect (root : String) (state : InvestigationState) : Program Host InvestigationState :=
  if state.toolCallsReserved.val < 20 ∨
      state.backendReadsReserved.val < state.collectionProfile.backendReads then
    return { state with terminal := some .budgetExhausted }
  else do
    ask (.mkdir (incidentDirectory root state.incident.incidentId))
    try collection root state
    catch x => ofResult (collectionFailed state x)

/-! ### Ranking -/

/-- `terminal`. -/
def terminalOf (result : LoopResult) : TerminalState :=
  match result.stopReason with
  | .finished => if result.hypotheses.isEmpty then .evidenceInsufficient else .escalated
  | .denied => .securityBlock
  | .budgetExhausted => .budgetExhausted
  | .refused | .invalidOutput => .evidenceInsufficient
  | _ => .dependencyUnavailable

/-- The name of a reason to stop. -/
def stopName : StopReason → Identifier
  | .finished => ⟨"FINISHED", by rfl⟩
  | .refused => ⟨"REFUSED", by rfl⟩
  | .invalidOutput => ⟨"INVALID_OUTPUT", by rfl⟩
  | .budgetExhausted => ⟨"BUDGET_EXHAUSTED", by rfl⟩
  | .unknownCompletion => ⟨"UNKNOWN_COMPLETION", by rfl⟩
  | .error => ⟨"ERROR", by rfl⟩
  | .timeout => ⟨"TIMEOUT", by rfl⟩
  | .denied => ⟨"DENIED", by rfl⟩
  | .busy => ⟨"BUSY", by rfl⟩

/-- The ranking method of a mode. -/
def methodOf : LoopMode → RankingMethod
  | .fixture => .modelFixture
  | .provider => .modelProvider

/-- The read charges of a run. -/
def readCharges (charges : List Charge) : List ReadCharge :=
  charges.filterMap fun
    | .reads c => some c
    | .model _ => none

/-- `Field(default=(), max_length=20)`. -/
def validReceipts (receipts : List Digest) : Except Fault { l : List Digest // l.length ≤ 20 } :=
  if h : receipts.length ≤ 20 then .ok ⟨receipts, h⟩
  else .error (.value "Tuple should have at most 20 items")

/-- The state that the outcome of a run leaves. -/
def reasoned (state : InvestigationState) (result : LoopResult) (charges : List Charge) :
    Except Fault InvestigationState := do
  let reads := readCharges charges
  let reasoningReceipts ← validReceipts result.receiptSha256s
  let toolCallsReserved ← UpTo.validate 40
    (state.toolCallsReserved.val + (reads.map fun x => x.requests.length).sum)
  let backendReadsReserved ← UpTo.validate 64
    (state.backendReadsReserved.val + (reads.map fun x => x.backendReadCount).sum)
  return { state with
    phase := .ranked
    evidence := result.evidence
    hypotheses := result.hypotheses
    terminal := some (terminalOf result)
    rankingMethod := methodOf result.mode
    reasoningStopReason := some (stopName result.stopReason)
    reasoningReceipts
    toolCallsReserved
    backendReadsReserved }

/-- The store and the allowances of the loop are those of the state. -/
def reasonerFits (root : String) (state : InvestigationState) (loop : ReasoningLoop) : Bool :=
  loop.store == artifactsRoot root state.incident.incidentId &&
    methodOf loop.settings.mode == state.rankingMethod &&
    decide ((loop.limits.toolCalls.val : ℤ) ≤
      state.budget.maxToolCalls.val - state.toolCallsReserved.val) &&
    decide ((loop.limits.backendReads.val : ℤ) ≤
      state.budget.maxBackendReads.val - state.backendReadsReserved.val)

variable [Rendering]

/-- `reason`. -/
def reason (root : String) (state : InvestigationState)
    (factory : InvestigationState → Except Fault ReasoningLoop) : Program Host InvestigationState := do
  let loop ← ofResult (factory state)
  raiseIf (reasonerFits root state loop = false)
    (.integrity "reasoner store or remaining read allowance differs")
  let result ← loop.run .live state.incident state.evidence
  raiseIf (result.runId ≠ state.incident.incidentId)
    (.integrity "reasoning result belongs to another incident")
  let record ← LoopHost.live.ledger.get result.runId.val
  ofResult (reasoned state result record.charges)

variable [BaselineTexts]

/-- `rank`, in its `try`. -/
def ranking (N : InvestigationNodes) (state : InvestigationState) : Program Host InvestigationState := do
  let store := artifactsRoot N.root state.incident.incidentId
  (verifyAllCollected state.evidence).program store
  match N.reasonerFactory with
  | some factory => reason N.root state factory
  | none =>
    let hypotheses ← (Baseline.rankEvidence state.evidence).program store
    let terminal := if hypotheses.isEmpty then .evidenceInsufficient else .escalated
    return { state with phase := .ranked, hypotheses, terminal := some terminal }
where
  /-- `for item in state.evidence: verify_collected_item(item, store)`. -/
  verifyAllCollected : List EvidenceItem → Reading Unit
    | [] => .done ()
    | item :: items => do
      verifyCollectedItem item
      verifyAllCollected items

/-- What a ranking without integrity leaves. -/
def rankingFailed (N : InvestigationNodes) (state : InvestigationState) (x : Fault) :
    Except Fault InvestigationState :=
  match x with
  | .integrity _ => .ok { state with
      terminal := some .securityBlock
      reasoningStopReason := if N.reasonerFactory.isSome then some ⟨"SECURITY_BLOCK", by rfl⟩ else none }
  | x => .error x

/-- `rank`. -/
def rank (N : InvestigationNodes) (state : InvestigationState) : Program Host InvestigationState := do
  try ranking N state
  catch x => ofResult (rankingFailed N state x)

/-! ### The report -/

/-- `sum(step.duration_seconds for step in current.steps)`. -/
def totalSeconds (steps : List StepRecord) : Duration :=
  ⟨(steps.map fun s => s.durationSeconds.val).sum, List.sum_nonneg fun x hx => by
    obtain ⟨s, -, rfl⟩ := List.mem_map.mp hx
    exact s.durationSeconds.property⟩

omit [Retention] [SourceChecks] [Rendering] [BaselineTexts] in
/-- `IncidentReport(…)`; `UNRECOVERABLE` ends what has no outcome. -/
def reportOf (state : InvestigationState) (traceId : String) : Except Fault IncidentReport :=
  match h : citationFailure state.incident.incidentId state.evidence state.hypotheses with
  | some message => .error (.value message)
  | none => .ok
    { incidentId := state.incident.incidentId
      evidence := state.evidence
      rankedRootCauses := state.hypotheses
      terminalState := state.terminal.getD .unrecoverable
      mode := state.mode
      durationSeconds := totalSeconds state.steps
      rankingMethod := state.rankingMethod
      reasoningStopReason := state.reasoningStopReason
      reasoningReceipts := state.reasoningReceipts.val
      traceId
      citations := h
      receiptsBounded := state.reasoningReceipts.property }

/-- `finish`. -/
def finish (state : InvestigationState) : Program Host InvestigationState := do
  let traceId ← ask .newId
  let report ← ofResult (reportOf state traceId)
  return { state with phase := .finished, report := some report }

/-! ### The graph -/

/-- A node of the graph. -/
def InvestigationNodes.run (N : InvestigationNodes) (node : Node) (state : InvestigationState) :
    Program Host InvestigationState :=
  match node with
  | .triage => step N.root state .triage fun s => pure (triage s)
  | .reserve => step N.root state .reserve fun s => ofResult (reserve s)
  | .collect => step N.root state .collect (collect N.root)
  | .rank => step N.root state .rank (rank N)
  | .finish => finish state

/-- `route`. -/
def route (state : InvestigationState) : Except Fault Node :=
  if state.terminal.isSome then .ok .finish
  else match state.phase with
    | .triaged => .ok .reserve
    | .readsReserved => .ok .collect
    | .evidenceCollected => .ok .rank
    | _ => .error (.value "illegal investigation transition")

/-- The edges of `compile_graph`. -/
def edge (node : Node) (state : InvestigationState) : Except Fault (Option Node) :=
  match node with
  | .triage | .reserve | .collect => (route state).map some
  | .rank => .ok (some .finish)
  | .finish => .ok none

end PayOps.Orchestrator
