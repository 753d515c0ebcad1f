import PayOps.Orchestrator.Nodes

/-!
# The graph of an investigation

`InvestigationWorker` of `payops.orchestrator.graph`: the nodes are run by a graph that keeps a
checkpoint after each of them, under a lock of the incident.

## The model

The graph is what the library does with the edges of `compile_graph` and with `durability="sync"`: the
inputs of a thread are saved before its first node, a completed node is saved with the node that
comes next, a node that raises is not, and a resumed thread goes on with the node that comes next.
With a pause before ranking the graph stops there, unless it was resumed there. It gives up after
`recursion_limit` nodes.

## Honest scope

What the lock excludes is the overlap of two calls: the calls on one incident are a `Serial` history.
Inputs that were saved without a state are not told apart from inputs that were not saved.
-/

namespace PayOps.Orchestrator

open Process Program Evidence

variable [Platform] [Retention] [SourceChecks] [Rendering] [BaselineTexts]

/-- The configuration of a worker. -/
structure InvestigationWorker where
  /-- Its nodes. -/
  nodes : InvestigationNodes
  /-- `pause_before_ranking`. -/
  pause : Bool
  /-- `mode`. -/
  mode : ReportMode
  /-- `collection_profile`. -/
  collectionProfile : CollectionProfile
  /-- `ranking_profile`. -/
  rankingProfile : Identifier
  /-- `ranking_method`. -/
  rankingMethod : RankingMethod
  /-- Model ranking has its own profile, -/
  profiled : nodes.reasonerFactory = none ↔ rankingProfile.val = "deterministic-v1"
  /-- and its own method. -/
  methodical : nodes.reasonerFactory = none ↔ rankingMethod = .deterministic
  /-- The modes of a worker. -/
  local_or_replayed : mode = .localKind ∨ mode = .fixtureReplay

/-- `recursion_limit`. -/
def RECURSION_LIMIT : ℕ := 16

namespace InvestigationWorker

variable (W : InvestigationWorker)

/-- The graph from a node on; `entered` says that the node was not resumed. -/
def drive (thread : String) : ℕ → Bool → Node → InvestigationState → Program Host InvestigationState
  | 0, _, _, _ => throw (.other "GraphRecursionError")
  | limit + 1, entered, node, state =>
    if W.pause = true ∧ entered = true ∧ node = .rank then return state
    else do
      let state ← W.nodes.run node state
      let next ← ofResult (edge node state)
      ask (.saveCheckpoint thread ⟨state, next⟩)
      match next with
      | none => return state
      | some node => drive thread limit true node state

/-- The saved thread is of this worker's configuration. -/
def compatible (existing : InvestigationState) : Except Fault Unit :=
  if existing.mode ≠ W.mode then .error (.value "worker mode differs from saved investigation")
  else if existing.collectionProfile ≠ W.collectionProfile then
    .error (.value "collection profile differs from saved investigation")
  else if existing.rankingProfile ≠ W.rankingProfile then
    .error (.value "ranking profile differs from saved investigation")
  else if existing.rankingMethod ≠ W.rankingMethod then
    .error (.value "ranking method differs from saved investigation")
  else .ok ()

/-- `_invoke`. -/
def invoke (incidentId : Identifier) (initial : Option InvestigationState) :
    Program Host InvestigationState := do
  ask (.lock (incidentDirectory W.nodes.root incidentId ++ ".lock"))
  match ← ask (.loadCheckpoint incidentId.val) with
  | some snapshot =>
    ofResult (compatible W snapshot.state)
    match initial with
    | some initial =>
      raiseIf (snapshot.state.incident ≠ initial.incident)
        (.value "thread already belongs to a different incident")
      return snapshot.state
    | none =>
      if snapshot.state.phase = .finished then return snapshot.state
      else match snapshot.next with
        | none => return snapshot.state
        | some node => drive W incidentId.val RECURSION_LIMIT false node snapshot.state
  | none =>
    match initial with
    | none => throw (.key incidentId.val)
    | some initial =>
      ask (.saveCheckpoint incidentId.val ⟨initial, some .triage⟩)
      drive W incidentId.val RECURSION_LIMIT true .triage initial

/-- `InvestigationBudget()`. -/
def defaultBudget (now : Time) : InvestigationBudget :=
  ⟨⟨4, by decide⟩, ⟨20, by decide⟩, ⟨34, by decide⟩, now + seconds 600⟩

/-- The inputs of an investigation. -/
def initial (incident : Incident) (budget : InvestigationBudget) : InvestigationState where
  incident := incident
  budget := budget
  mode := W.mode
  collectionProfile := W.collectionProfile
  rankingProfile := W.rankingProfile
  rankingMethod := W.rankingMethod

/-- `start`. -/
def start (incident : Incident) (budget : Option InvestigationBudget) :
    Program Host InvestigationState := do
  match budget with
  | some budget => invoke W incident.incidentId (some (initial W incident budget))
  | none =>
    let now ← ask .utcNow
    invoke W incident.incidentId (some (initial W incident (defaultBudget now)))

/-- `resume`. -/
def resume (incidentId : Identifier) : Program Host InvestigationState := invoke W incidentId none

end InvestigationWorker

/-- The calls on one incident, by workers with one directory. -/
inductive GraphCall (root : String) (incidentId : Identifier) : Program Host InvestigationState → Prop
  /-- `start`. -/
  | start (W : InvestigationWorker) (incident : Incident) (budget : Option InvestigationBudget) :
    W.nodes.root = root → incident.incidentId = incidentId →
    GraphCall root incidentId (W.start incident budget)
  /-- `resume`. -/
  | resume (W : InvestigationWorker) : W.nodes.root = root →
    GraphCall root incidentId (W.resume incidentId)

end PayOps.Orchestrator
