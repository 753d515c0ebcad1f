import PayOps.Faults
import PayOps.Process.Network
import PayOps.Policy.Engine
import PayOps.Remediation.Contracts

/-!
# Traffic control

`TrafficControl` of `payops.remediation.traffic_control`, and what uses it to send traffic: the
admission of `ManagedTrafficDriver` and `record_attempt` of `payops.scenarios.traffic`.

## The model

One row is kept for each traffic source. A worker asks its host for one SQL transaction at a time:
adding a row, reading one, or a conditional `UPDATE … RETURNING` with its commit. A transaction is
answered or fails without effect.

An attempt waits for a slot, asks for its admission, and only then sends its request. What it waits
for may raise at any point, which is also how it is cancelled.

## Honest scope

The times and the latency of an attempt, and what it keeps of the response besides its outcome and
its status, are left out.
-/

namespace PayOps.Traffic

open Process Program Policy Remediation

variable [Platform]

/-- `synthetic_traffic_control`. -/
structure TrafficRow where
  /-- The service whose traffic it is. -/
  service : String
  /-- Where it runs. -/
  mode : OperationMode
  /-- How often it was paused. -/
  version : ℕ := 0
  /-- No more is admitted. -/
  paused : Bool := false
  /-- How many attempts were admitted. -/
  admitted : ℕ := 0
  deriving DecidableEq

/-- The role of a workload. -/
inductive TrafficRole where
  /-- `payments`. -/
  | payments
  /-- `webhook`. -/
  | webhook
  deriving DecidableEq

/-- How an attempt came out. -/
inductive AttemptOutcome where
  /-- `accepted`. -/
  | accepted
  /-- `declined`. -/
  | declined
  /-- `http_error`. -/
  | httpError
  /-- `invalid_response`. -/
  | invalidResponse
  /-- `request_error`. -/
  | requestError
  /-- `timed_out`. -/
  | timedOut
  /-- `cancelled`. -/
  | cancelled
  /-- `failed`. -/
  | failed
  /-- `paused`. -/
  | paused
  deriving DecidableEq

/-! ### Requests -/

/-- One request of a worker. -/
inductive Effect where
  /-- `uuid4().hex`. -/
  | newUid
  /-- `session.add(TrafficRow(…))` and `commit`. -/
  | addRow (uid service : String) (mode : OperationMode)
  /-- `session.get(TrafficRow, uid)`. -/
  | getRow (uid : String)
  /-- The `UPDATE` of `admit` and its commit: whether a row was updated. -/
  | admitRow (uid service : String) (mode : OperationMode)
  /-- The `UPDATE` of `pause` and its commit: the new version of the row, if one was updated. -/
  | pauseRow (uid service : String) (mode : OperationMode) (expectedVersion : String)
  /-- `utc_now()`. -/
  | utcNow
  /-- Acquire the semaphore of the batch. -/
  | slot (index : ℕ)
  /-- `_response`: send the request of an attempt, and classify what comes back. -/
  | send (index : ℕ)
  /-- Keep the record of an attempt. -/
  | record (index : ℕ) (outcome : AttemptOutcome) (status : Option ℕ)

/-- The reply to a request. -/
abbrev Effect.Reply : Effect → Type
  | newUid => String
  | addRow _ _ _ => Unit
  | getRow _ => Option TrafficRow
  | admitRow _ _ _ => Bool
  | pauseRow _ _ _ _ => Option ℕ
  | utcNow => Time
  | slot _ => Unit
  | send _ => AttemptOutcome × ℕ
  | record _ _ _ => Unit

/-- The interface of traffic control. -/
abbrev Host : Interface := ⟨Effect, Effect.Reply, Fault⟩

/-- One request. -/
def ask (e : Effect) : Program Host e.Reply := perform (I := Host) e

/-- The rows, by their primary key. -/
abbrev Rows := String → Option TrafficRow

/-- What a transaction is answered, and what it leaves; the other requests are answered from
outside. -/
def exec (s : Rows) : (e : Effect) → Option (Except Fault e.Reply × Rows)
  | .addRow uid service mode =>
    if (s uid).isSome then some (.error .duplicate, s)
    else some (.ok (), Function.update s uid (some { service, mode }))
  | .getRow uid => some (.ok (s uid), s)
  | .admitRow uid service mode =>
    match s uid with
    | none => some (.ok false, s)
    | some row =>
      if row.service = service ∧ row.mode = mode ∧ row.paused = false then
        some (.ok true, Function.update s uid (some { row with admitted := row.admitted + 1 }))
      else some (.ok false, s)
  | .pauseRow uid service mode expectedVersion =>
    match s uid with
    | none => some (.ok none, s)
    | some row =>
      if row.service = service ∧ row.mode = mode ∧ toString row.version = expectedVersion ∧
          row.paused = false then
        some (.ok (some (row.version + 1)),
          Function.update s uid (some { row with paused := true, version := row.version + 1 }))
      else some (.ok none, s)
  | _ => none

/-- The answers of the host, and where they leave the rows. -/
inductive Answer (s : Rows) : (e : Effect) → Except Fault e.Reply → Rows → Prop
  /-- A fault, with no effect. -/
  | fault {e : Effect} {x : Fault} : Answer s e (.error x) s
  /-- What `exec` says. -/
  | exec {e : Effect} {r : Except Fault e.Reply} {t : Rows} : exec s e = some (r, t) → Answer s e r t
  /-- Any answer, where `exec` says nothing. -/
  | outside {e : Effect} {r : Except Fault e.Reply} : exec s e = none → Answer s e r s

/-- The database with its clocks and its network. -/
def Environment : Machine Host Rows := ⟨Answer⟩

/-! ### The control -/

/-- The services and the modes that have managed traffic. -/
def scopeOk (service : String) (mode : OperationMode) : Bool :=
  (service == "payments-api" || service == "webhook-sim") && (mode == .localKind || mode == .fixtureReplay)

namespace TrafficControl

/-- `register`. -/
def register (service : String) (mode : OperationMode) : Program Host String := do
  raiseIf (scopeOk service mode = false) (.permission "TRAFFIC_SCOPE_DENIED")
  let uid ← ask .newUid
  ask (.addRow uid service mode)
  return uid

/-- `snapshot`: the state of a source, with its `replicas`. -/
def snapshot (action : Action) : Program Host (ResourceSnapshot × ℕ) := do
  raiseIf (action.effect ≠ .pause) (.permission "TRAFFIC_ACTION_DENIED")
  match ← ask (.getRow action.resourceUid.val) with
  | none => throw (.permission "TRAFFIC_SCOPE_DENIED")
  | some row =>
    raiseIf (row.service ≠ action.service.val ∨ row.mode ≠ action.mode ∨
        action.nameSpace.val ≠ "payops-sandbox") (.permission "TRAFFIC_SCOPE_DENIED")
    let now ← ask .utcNow
    match Identifier.validate (toString row.version) with
    | none => throw (.value "version")
    | some version =>
      return ({ nameSpace := action.nameSpace, service := action.service, uid := action.resourceUid,
                version, observedAt := now, kind := .traffic, mode := action.mode },
        if row.paused then 0 else 1)

/-- `admit`. -/
def admitAttempt (uid service : String) (mode : OperationMode) : Program Host Bool := do
  raiseIf (scopeOk service mode = false) (.permission "TRAFFIC_SCOPE_DENIED")
  ask (.admitRow uid service mode)

/-- What `pause` makes of its `UPDATE`. -/
def pauseReceipt (action : Action) : Option ℕ → Except Fault EffectReceipt
  | none => .error (.permission "TRAFFIC_PRECONDITION_FAILED")
  | some changed =>
    match Identifier.validate (toString changed) with
    | none => .error (.value "resulting_version")
    | some resulting =>
      .ok { outcome := .succeeded, resourceUid := action.resourceUid,
            previousVersion := action.expectedVersion, resultingVersion := some resulting }

/-- `pause`. -/
def pause (action : Action) (key : String) : Program Host EffectReceipt := do
  let _ ← snapshot action
  raiseIf (key ≠ actionDigest action) (.permission "TRAFFIC_DIGEST_MISMATCH")
  let changed ← ask (.pauseRow action.resourceUid.val action.service.val action.mode
    action.expectedVersion.val)
  ofResult (pauseReceipt action changed)

end TrafficControl

/-! ### Managed attempts -/

/-- A `ManagedTrafficDriver`: the source it is bound to. -/
structure ManagedTrafficDriver where
  /-- The source. -/
  uid : String
  /-- Its service. -/
  service : String
  /-- Where it runs. -/
  mode : OperationMode
  /-- `__init__` refuses other services and modes. -/
  scope : scopeOk service mode = true

/-- The service of a role. -/
def TrafficRole.service : TrafficRole → String
  | payments => "payments-api"
  | webhook => "webhook-sim"

namespace ManagedTrafficDriver

variable (driver : ManagedTrafficDriver)

/-- `_admit`. -/
def admission (role : TrafficRole) : Program Host Bool := do
  raiseIf (role.service ≠ driver.service) (.permission "TRAFFIC_DRIVER_ROLE_DENIED")
  TrafficControl.admitAttempt driver.uid driver.service driver.mode

/-- The body of `record_attempt`: the slot, the admission, and only then the request. -/
def attemptBody (role : TrafficRole) (index : ℕ) : Program Host (AttemptOutcome × Option ℕ) := do
  ask (.slot index)
  let admitted ← admission driver role
  if admitted then
    let (outcome, status) ← ask (.send index)
    return (outcome, some status)
  else return (.paused, none)

/-- What `record_attempt` records of an exception, and whether it goes on raising: a timeout and a
request error are outcomes, and a cancellation is no `Exception`. -/
def faultOutcome : Fault → AttemptOutcome × Bool
  | .other "TimeoutError" => (.timedOut, false)
  | .other "RequestError" => (.requestError, false)
  | .other "CancelledError" => (.cancelled, true)
  | _ => (.failed, true)

/-- `record_attempt`: whatever happens, the attempt is recorded. -/
def recordAttempt (role : TrafficRole) (index : ℕ) : Program Host Unit := do
  match ← (attemptBody driver role index).attempt with
  | .ok (outcome, status) => ask (.record index outcome status)
  | .error x =>
    ask (.record index (faultOutcome x).1 none)
    raiseIf ((faultOutcome x).2 = true) x

end ManagedTrafficDriver

/-! ### Calls -/

/-- What a call returns. -/
inductive Reply where
  /-- `register` returns the source. -/
  | registered (uid : String)
  /-- `admit` returns whether it admitted. -/
  | admitted (granted : Bool)
  /-- `pause` returns a receipt. -/
  | paused (receipt : EffectReceipt)
  /-- An attempt was recorded. -/
  | recorded

/-- `admit` as a call. -/
def admitCall (uid service : String) (mode : OperationMode) : Program Host Reply :=
  (TrafficControl.admitAttempt uid service mode).bind fun granted => .done (.admitted granted)

/-- `pause` as a call. -/
def pauseCall (action : Action) (key : String) : Program Host Reply :=
  (TrafficControl.pause action key).bind fun receipt => .done (.paused receipt)

/-- An attempt as a call. -/
def attemptCall (driver : ManagedTrafficDriver) (role : TrafficRole) (index : ℕ) : Program Host Reply :=
  (driver.recordAttempt role index).bind fun _ => .done .recorded

/-- The calls of the workers. -/
inductive TrafficCall : Program Host Reply → Prop
  /-- `register`. -/
  | register (service : String) (mode : OperationMode) :
    TrafficCall ((TrafficControl.register service mode).bind fun uid => .done (.registered uid))
  /-- `admit`. -/
  | admission (uid service : String) (mode : OperationMode) : TrafficCall (admitCall uid service mode)
  /-- `pause`. -/
  | pause (action : Action) (key : String) : TrafficCall (pauseCall action key)
  /-- A managed attempt. -/
  | attempt (driver : ManagedTrafficDriver) (role : TrafficRole) (index : ℕ) :
    TrafficCall (attemptCall driver role index)

/-- The states the workers of a database without sources may come to. -/
def Reached (c : Config Host Rows Reply) : Prop := Reachable Environment TrafficCall (fun _ => none) c

end PayOps.Traffic
