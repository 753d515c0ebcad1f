import PayOps.Evidence.Context
import PayOps.Orchestrator.Ledger

/-!
# Receipts

`payops.orchestrator.loop_records`: what is retained before an operation and after it, and how it
is read back through the digests that the ledger anchors.

## The model

`Ledger` is the ledger a loop is made with. The live one is `BudgetLedger`; the verification of
finished reports uses another, that cannot write.
-/

namespace PayOps.Orchestrator

open Process Program Evidence

variable [Platform]

/-- A ledger, by its methods. -/
structure Ledger where
  /-- `open`. -/
  openRun : Identifier → Digest → ReasoningBudget → Program Host BudgetRecord
  /-- `get`. -/
  get : String → Program Host BudgetRecord
  /-- `reserve`. -/
  reserve : BudgetRecord → Charge → Program Host Grant
  /-- `complete`. -/
  complete : BudgetRecord → Identifier → Digest → Program Host Grant

/-- `BudgetLedger`. -/
def BudgetLedger.ledger : Ledger := ⟨openRun, get, reserve, complete⟩

/-- `completion`: the result of an operation, if the ledger has one. -/
def Ledger.completion (ledger : Ledger) (runId operation : Identifier) : Program Host (Option Digest) := do
  let record ← ledger.get runId.val
  return (record.completion? operation).map Completion.artifactSha256

variable [Retention]

/-- `restore`: the artifact is intact, and of the schema. -/
def restore {β : Type} (digest : Digest) (schema : Artifact → Option β) : Reading β :=
  let unavailable : Fault := .integrity "reasoning artifact unavailable or invalid"
  .read digest unavailable fun content =>
    if !intact digest content then .fail unavailable
    else match schema content with
      | some value => .done value
      | none => .fail unavailable

/-- The schema of prepared prompts. -/
def Artifact.asPreparedTurn : Artifact → Option PreparedTurn
  | preparedTurn value => some value
  | _ => none

/-- The schema of model receipts. -/
def Artifact.asModelReceipt : Artifact → Option ModelReceipt
  | modelReceipt value => some value
  | _ => none

/-- The schema of read receipts: one result or two. -/
def Artifact.asReadReceipt : Artifact → Option ReadReceipt
  | readReceipt value =>
    if 1 ≤ value.results.length ∧ value.results.length ≤ 2 then some value else none
  | _ => none

/-- `publish`: retain a receipt, then anchor its digest. -/
def Ledger.publish (ledger : Ledger) (root : String) (runId operation : Identifier)
    (receipt : Artifact) : Program Host Digest := do
  let digest ← ArtifactStore.write root receipt
  let record ← ledger.get runId.val
  let _ ← ledger.complete record operation digest
  return digest

end PayOps.Orchestrator
