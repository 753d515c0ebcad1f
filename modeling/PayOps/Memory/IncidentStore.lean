import PayOps.Orchestrator.State
import PayOps.Policy.Engine
import PayOps.Process.Network

/-!
# The incident store and its worker

`IncidentStore` of `payops.memory.store`, the authorization of `payops.protected_api`, and the
worker of `payops.pubsub_worker` that consumes incident references from a queue.

## The model

The table of incidents is a list of rows. Every SQL statement is one request together with its
commit; it is answered or fails without effect. A payload is the incident it was written from, so
that comparing texts is comparing incidents. A statement that selects one of many rows may
select any of them.

The investigator, the authority of the worker and the queue are answered from outside, in any way.
The request of a message is read by pydantic, which is a function here, whichever it is.

## Honest scope

What a worker raises is an `Exception`. What is none (an interrupt) ends the worker, like a crash.
-/

namespace PayOps.Memory

open Process Program Policy Orchestrator

variable [Platform]

/-! ### Incidents -/

/-- `IncidentCreate`. -/
structure IncidentCreate where
  /-- `title`. -/
  title : { s : String // strippedOk 200 s = true }
  /-- `namespace`. -/
  nameSpace : Identifier
  /-- `service`. -/
  service : Identifier
  /-- `severity`. -/
  severity : Severity
  deriving DecidableEq

/-- `incident.request`. -/
def request (incident : Incident) : IncidentCreate :=
  ⟨incident.title, incident.nameSpace, incident.service, incident.severity⟩

/-- `Incident(request=request)`. -/
def newIncident (asked : IncidentCreate) (incidentId : Identifier) (createdAt : Time) : Incident where
  incidentId := incidentId
  title := asked.title
  severity := asked.severity
  createdAt := createdAt
  nameSpace := asked.nameSpace
  service := asked.service
  report := none
  scope := by simp

/-- `Incident.model_validate({**incident.model_dump(), "report": report})`. -/
def withReport (incident : Incident) (report : IncidentReport) : Except Fault Incident :=
  if h : report.incidentId = incident.incidentId then
    .ok { incident with
      report := some report
      scope := by rintro r ⟨⟩; exact h }
  else .error (.value "report belongs to a different incident")

/-- A row of `incidents`. -/
structure IncidentRow where
  /-- `incident_id`. -/
  incidentId : String
  /-- `idempotency_key`. -/
  idempotencyKey : Option String
  /-- `payload`. -/
  payload : Incident
  deriving DecidableEq

/-! ### Requests -/

/-- One request of a worker. -/
inductive Effect where
  /-- `new_id()`. -/
  | newId
  /-- `utc_now()`. -/
  | utcNow
  /-- `session.add(IncidentRow(…))` and `commit`. -/
  | insertRow (row : IncidentRow)
  /-- `select(IncidentRow).where(IncidentRow.idempotency_key == key)`. -/
  | selectKey (key : Option String)
  /-- `session.get(IncidentRow, incident_id)`. -/
  | getRow (incidentId : String)
  /-- `UPDATE … WHERE incident_id = … AND payload = old RETURNING` and `commit`. -/
  | updateRow (incidentId : String) (old new : Incident)
  /-- `self.principal()`. -/
  | principal
  /-- `investigator.start(incident)`. -/
  | start (incident : Incident)
  /-- `investigator.resume(incident_id)`. -/
  | resume (incidentId : Identifier)
  /-- `message.ack()`. -/
  | ack
  /-- `message.nack()`. -/
  | nack

/-- The reply to a request. -/
abbrev Effect.Reply : Effect → Type
  | newId => Identifier
  | utcNow => Time
  | insertRow _ => Unit
  | selectKey _ => Option IncidentRow
  | getRow _ => Option IncidentRow
  | updateRow _ _ _ => Bool
  | principal => Option Principal
  | start _ => InvestigationState
  | resume _ => InvestigationState
  | ack => Unit
  | nack => Unit

/-- The interface of the store and its workers. -/
abbrev Host : Interface := ⟨Effect, Effect.Reply, Fault⟩

/-- One request. -/
def ask (e : Effect) : Program Host e.Reply := perform (I := Host) e

/-- The rows of `incidents`. -/
abbrev Rows := List IncidentRow

/-- The primary key and the unique key of a new row are free. -/
def insertable (s : Rows) (row : IncidentRow) : Prop :=
  ∀ held ∈ s, held.incidentId ≠ row.incidentId ∧
    (row.idempotencyKey ≠ none → held.idempotencyKey ≠ row.idempotencyKey)

instance (s : Rows) (row : IncidentRow) : Decidable (insertable s row) :=
  inferInstanceAs (Decidable (∀ held ∈ s, _))

/-- The row of an incident. -/
def rowOf (s : Rows) (incidentId : String) : Option IncidentRow :=
  s.find? fun row => row.incidentId == incidentId

/-- The table with another payload in the row of an incident. -/
def setPayload (s : Rows) (incidentId : String) (payload : Incident) : Rows :=
  s.map fun row => if row.incidentId = incidentId then { row with payload } else row

/-- The answers of the host, and where they leave the table. -/
inductive Answer (s : Rows) : (e : Effect) → Except Fault e.Reply → Rows → Prop
  /-- A fault, with no effect. -/
  | fault {e : Effect} {x : Fault} : Answer s e (.error x) s
  /-- A row is added. -/
  | inserted {row : IncidentRow} : insertable s row → Answer s (.insertRow row) (.ok ()) (s ++ [row])
  /-- A row with the key. -/
  | selected {key : Option String} {row : IncidentRow} : row ∈ s → row.idempotencyKey = key →
    Answer s (.selectKey key) (.ok (some row)) s
  /-- There is no row with the key. -/
  | unselected {key : Option String} : (∀ row ∈ s, row.idempotencyKey ≠ key) →
    Answer s (.selectKey key) (.ok none) s
  /-- The row of an incident. -/
  | got {incidentId : String} : Answer s (.getRow incidentId) (.ok (rowOf s incidentId)) s
  /-- The payload is the expected one, and is replaced. -/
  | updated {incidentId : String} {old new : Incident} {row : IncidentRow} :
    rowOf s incidentId = some row → row.payload = old →
    Answer s (.updateRow incidentId old new) (.ok true) (setPayload s incidentId new)
  /-- The payload is another one. -/
  | stale {incidentId : String} {old new : Incident} :
    (∀ row, rowOf s incidentId = some row → row.payload ≠ old) →
    Answer s (.updateRow incidentId old new) (.ok false) s
  /-- The other requests are answered from outside. -/
  | newId {r : Except Fault Identifier} : Answer s .newId r s
  /-- The clock. -/
  | utcNow {r : Except Fault Time} : Answer s .utcNow r s
  /-- The authority of the worker. -/
  | principal {r : Except Fault (Option Principal)} : Answer s .principal r s
  /-- The investigator. -/
  | start {incident : Incident} {r : Except Fault InvestigationState} : Answer s (.start incident) r s
  /-- The investigator. -/
  | resume {incidentId : Identifier} {r : Except Fault InvestigationState} :
    Answer s (.resume incidentId) r s
  /-- The queue. -/
  | ack {r : Except Fault Unit} : Answer s .ack r s
  /-- The queue. -/
  | nack {r : Except Fault Unit} : Answer s .nack r s

/-- The database, with what the workers reach. -/
def Environment : Machine Host Rows := ⟨Answer⟩

/-! ### The store -/

namespace IncidentStore

/-- `_decode`: a payload is the row's own. -/
def decode (row : IncidentRow) : Except Fault Incident :=
  if row.payload.incidentId.val = row.incidentId then .ok row.payload
  else .error (.value "incident row identity mismatch")

/-- `IdempotencyConflict`. -/
def idempotencyConflict : Fault := .conflict "idempotency key has a different payload"

/-- `create`. -/
def create (asked : IncidentCreate) (key : Option String) : Program Host Incident := do
  let incidentId ← ask .newId
  let createdAt ← ask .utcNow
  let incident := newIncident asked incidentId createdAt
  try
    ask (.insertRow ⟨incident.incidentId.val, key, incident⟩)
    pure incident
  catch
    | .duplicate =>
      match ← ask (.selectKey key) with
      | none => throw .duplicate
      | some row =>
        let previous ← ofResult (decode row)
        raiseIf (request previous ≠ asked) idempotencyConflict
        pure previous
    | fault => throw fault

/-- `get`. -/
def get (incidentId : String) : Program Host (Option Incident) := do
  match ← ask (.getRow incidentId) with
  | none => return none
  | some row => return some (← ofResult (decode row))

/-- The last part of `save_report`: another writer was first. -/
def readSaved (incidentId : String) : Program Host Incident := do
  match ← get incidentId with
  | none => throw (.other "RuntimeError")
  | some saved =>
    raiseIf (saved.report.isNone) (.other "RuntimeError")
    return saved

/-- `save_report`. -/
def saveReport (report : IncidentReport) : Program Host Incident := do
  match ← ask (.getRow report.incidentId.val) with
  | none => throw (.key report.incidentId.val)
  | some row =>
    let incident ← ofResult (decode row)
    if incident.report.isSome then return incident
    else
      let updated ← ofResult (withReport incident report)
      let winner ← ask (.updateRow report.incidentId.val row.payload updated)
      if winner then return updated else readSaved report.incidentId.val

end IncidentStore

/-! ### Authorization -/

/-- An `HTTPException`. -/
def httpException (detail : String) : Fault := .other detail

/-- The identity is valid for one of the roles, each at its own time. -/
def anyRole (principal : Principal) (nameSpace : Identifier) : List Role → Program Host Bool
  | [] => return false
  | role :: roles => do
    let now ← ask .utcNow
    if identityValid (some principal) role nameSpace now then return true
    else anyRole principal nameSpace roles

/-- `authorize`. -/
def authorize (principal : Principal) (nameSpace : Identifier) (write : Bool) : Program Host Unit := do
  raiseIf (nameSpace.val ≠ "payops-sandbox") (httpException "SCOPE_DENIED")
  let granted ← anyRole principal nameSpace
    (if write then [.responder] else [.viewer, .responder, .approver, .executor])
  raiseIf (granted = false) (httpException "SCOPE_DENIED")

/-- `scoped_incident`. -/
def scopedIncident (incidentId : Identifier) (principal : Principal) : Program Host Incident := do
  match ← IncidentStore.get incidentId.val with
  | none => throw (httpException "INCIDENT_NOT_FOUND")
  | some incident =>
    raiseIf (incident.nameSpace ∉ principal.nameSpaces) (httpException "INCIDENT_NOT_FOUND")
    authorize principal incident.nameSpace false
    raiseIf (incident.service.val ∉ SERVICES) (httpException "SERVICE_DENIED")
    return incident

/-! ### The queue -/

/-- The data of a message. -/
structure Message where
  /-- Its length in bytes. -/
  size : ℕ
  /-- Its text, if it is one. -/
  text : Option String

/-- `InvestigationRequest.model_validate_json`. -/
class Requests where
  /-- The incident a message refers to. -/
  validate : Message → Except Fault Identifier

variable [Requests]

namespace PubSubIncidentWorker

variable (mode : OperationMode)

/-- `_authorized`. -/
def authorized (incidentId : Identifier) : Program Host Incident := do
  match ← ask .principal with
  | none => throw (.permission "worker authority unavailable")
  | some principal =>
    let incident ← scopedIncident incidentId principal
    authorize principal incident.nameSpace true
    return incident

/-- An investigation that is not finished is resumed. -/
def resumed (incident : Incident) (started : InvestigationState) : Program Host InvestigationState :=
  if started.phase ≠ .finished then ask (.resume incident.incidentId) else return started

/-- The investigation of an incident without a report. -/
def investigate (incident : Incident) : Program Host (Option IncidentReport) := do
  let started ← ask (.start incident)
  let state ← resumed incident started
  raiseIf (state.phase ≠ .finished ∨ state.incident ≠ incident)
    (.value "investigation is unfinished or has different inputs")
  return state.report

/-- The report is of the incident, and of the worker's mode. -/
def reportScope (incident : Incident) : Option IncidentReport → Except Fault IncidentReport
  | none => .error (.value "investigator report scope mismatch")
  | some report =>
    if report.incidentId ≠ incident.incidentId ∨ report.mode ≠ mode.report then
      .error (.value "investigator report scope mismatch")
    else .ok report

/-- `process`, from the report on: authority is checked again before anything is published. -/
def publish (incident : Incident) (found : Option IncidentReport) : Program Host Unit := do
  let report ← ofResult (reportScope mode incident found)
  let _ ← authorized incident.incidentId
  let saved ← IncidentStore.saveReport report
  raiseIf (saved.report.all fun r => r.mode ≠ mode.report) (.value "stored report mode mismatch")

/-- `process`. -/
def process (data : Message) : Program Host Unit := do
  raiseIf (1024 < data.size) (.value "queue request exceeds byte budget")
  let incidentId ← ofResult (Requests.validate data)
  let incident ← authorized incidentId
  match incident.report with
  | some report => publish mode incident (some report)
  | none =>
    let found ← investigate incident
    publish mode incident found

/-- `handle`. -/
def handle (data : Message) : Program Host Unit := do
  match ← (process mode data).attempt with
  | .ok _ => ask .ack
  | .error _ => ask .nack

end PubSubIncidentWorker

/-! ### Calls -/

/-- What a call returns. -/
inductive Reply where
  /-- `create` returns the incident of its key. -/
  | created (incident : Incident)
  /-- `save_report` returns the incident with its report. -/
  | saved (incident : Incident)
  /-- A delivery was handled. -/
  | handled

/-- `create` as a call. -/
def createCall (asked : IncidentCreate) (key : Option String) : Program Host Reply :=
  (IncidentStore.create asked key).bind fun incident => .done (.created incident)

/-- `save_report` as a call. -/
def saveCall (report : IncidentReport) : Program Host Reply :=
  (IncidentStore.saveReport report).bind fun incident => .done (.saved incident)

/-- A delivery as a call. -/
def handleCall (mode : OperationMode) (data : Message) : Program Host Reply :=
  (PubSubIncidentWorker.handle mode data).bind fun _ => .done .handled

/-- The calls of the workers. -/
inductive StoreCall : Program Host Reply → Prop
  /-- `create`. -/
  | create (asked : IncidentCreate) (key : Option String) : StoreCall (createCall asked key)
  /-- `save_report`. -/
  | save (report : IncidentReport) : StoreCall (saveCall report)
  /-- A delivery of a message to a worker. -/
  | handle (mode : OperationMode) (data : Message) : StoreCall (handleCall mode data)

/-- The states the workers of an empty table may come to. -/
def Reached (c : Config Host Rows Reply) : Prop := Reachable Environment StoreCall [] c

end PayOps.Memory
