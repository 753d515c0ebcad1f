import PayOps.JsonPatch
import PayOps.Process.Follows

/-!
# What a scenario asks of the sandbox

The requests of the runners of `payops.scenarios`: the latch, the files of a run, the gateway of the cluster,
the observers and the clock.

## The model

Any request may raise, also what is no `Exception`. What a file holds is left out, but for its name, and so
is the receipt: no runner reads it back.
-/

namespace PayOps.Scenarios

open Process Program Json

/-- What is raised. -/
structure Raised where
  /-- `type(error).__name__`. -/
  className : String
  /-- `str(error)`. -/
  message : String
  /-- `isinstance(error, Exception)`. -/
  isException : Bool
  /-- `isinstance(error, ValueError)`. -/
  isValueError : Bool
  deriving DecidableEq

/-- `CleanupUnverified`. -/
def cleanupUnverified (message : String) : Raised := ⟨"CleanupUnverified", message, true, false⟩

/-- `ValueError`. -/
def valueError (message : String) : Raised := ⟨"ValueError", message, true, true⟩

/-- `KeyError`. -/
def keyError (key : String) : Raised := ⟨"KeyError", "'" ++ key ++ "'", true, false⟩

/-- `TimeoutError`. -/
def timeoutError (message : String) : Raised := ⟨"TimeoutError", message, true, false⟩

/-- `ProtocolStage`. -/
inductive ProtocolStage where
  /-- `original`. -/
  | original
  /-- `mismatch`. -/
  | mismatch
  /-- `matched`. -/
  | matched
  /-- `final`. -/
  | final
  deriving DecidableEq

/-- `PodIdentity`. -/
structure PodIdentity where
  /-- The pod, -/
  podName : String
  /-- its identity, -/
  podUid : String
  /-- that of its Deployment, -/
  deploymentUid : String
  /-- that of its replica set, -/
  replicaSetUid : String
  /-- its container, -/
  containerId : String
  /-- and how often that was restarted. -/
  restartCount : ℕ
  deriving DecidableEq

/-- The identity of each service. -/
abbrev Identities := List (String × PodIdentity)

/-- What the harness reads of a `ProtocolObservation`. -/
structure ProtocolObservation where
  /-- `incident_id`. -/
  incidentId : String
  /-- `identities`. -/
  identities : Identities
  /-- `probe.mode`. -/
  mode : String
  /-- `probe.started_at`. -/
  startedAt : ℤ
  /-- `probe.sample.sample_id`. -/
  sampleId : String
  /-- `probe.traceparent.split("-")[1]`. -/
  traceId : String
  deriving DecidableEq

/-- One request of a runner. -/
inductive SandboxEffect where
  /-- `self.block_file.exists()`. -/
  | latchExists
  /-- The latch is created, exclusively. -/
  | createLatch
  /-- `self.block_file.write_text(…)`. -/
  | writeLatch
  /-- `self.block_file.unlink()`. -/
  | unlinkLatch
  /-- `uuid4().hex`. -/
  | newRunId
  /-- A directory of the run is made. -/
  | mkdir (name : String)
  /-- An exclusive file of the run is written. -/
  | save (name : String)
  /-- The receipt is written. -/
  | saveReceipt
  /-- `verify_scope()`. -/
  | verifyScope
  /-- `deployment(name)`. -/
  | deployment (name : String)
  /-- `replace_spec(name, expected, spec)`. -/
  | replaceSpec (name : String) (expected spec : JsonObject)
  /-- `observe(name)`. -/
  | observe (name : String)
  /-- `healthy()`. -/
  | healthy
  /-- `state(timeout)`. -/
  | state
  /-- `self.memory.collect()`. -/
  | collectMemory
  /-- `self.package_a.collect(case_id, directory)`. -/
  | collectPackage
  /-- `self.observer.collect(stage, run_id, identities, directory, store)`. -/
  | collectProtocol (stage : ProtocolStage) (runId : String) (identities : Identities)
  /-- The callback of an investigation. -/
  | investigate
  /-- `time.monotonic()`. -/
  | monotonic
  /-- `time.sleep(…)`. -/
  | sleep
  /-- `self.clock()`. -/
  | clock
  /-- `datetime.now(UTC)`. -/
  | utcNow
  /-- `verify_protocol_observation(stage, observed, store)`. -/
  | verifyProtocol (stage : ProtocolStage) (observed : ProtocolObservation)

/-- The reply to a request. -/
abbrev SandboxEffect.Reply : SandboxEffect → Type
  | latchExists => Bool
  | createLatch => Unit
  | writeLatch => Unit
  | unlinkLatch => Unit
  | newRunId => String
  | mkdir _ => Unit
  | save _ => Unit
  | saveReceipt => Unit
  | verifyScope => JsonObject
  | deployment _ => JsonObject
  | replaceSpec _ _ _ => Unit
  | observe _ => JsonObject
  | healthy => JsonObject
  | state => JsonObject
  | collectMemory => JsonObject
  | collectPackage => JsonObject
  | collectProtocol _ _ _ => ProtocolObservation
  | investigate => Unit
  | monotonic => ℚ
  | sleep => Unit
  | clock => ℤ
  | utcNow => ℤ
  | verifyProtocol _ _ => Unit

/-- The interface of a runner. -/
abbrev Sandbox : Interface := ⟨SandboxEffect, SandboxEffect.Reply, Raised⟩

/-- One request. -/
def ask (e : SandboxEffect) : Program Sandbox e.Reply := perform (I := Sandbox) e

/-! ### Documents -/

/-- `object_value`. -/
def objectValue : Json → Except Raised JsonObject
  | .obj fields => .ok fields
  | _ => .error (valueError "expected Kubernetes JSON object")

theorem objectValue_ok {x : Json} {fields : JsonObject} (h : objectValue x = .ok fields) : x = .obj fields := by
  cases x <;> simp_all [objectValue]

/-- `fields[key]`. -/
def member (fields : JsonObject) (key : String) : Except Raised Json :=
  match field fields key with
  | some value => .ok value
  | none => .error (keyError key)

/-- `object_value(fields[key])`. -/
def objectMember (fields : JsonObject) (key : String) : Except Raised JsonObject :=
  member fields key >>= objectValue

/-- `object_value(document["metadata"])["uid"]`. -/
def uidOf (document : JsonObject) : Except Raised Json := do
  let metadata ← objectMember document "metadata"
  member metadata "uid"

/-! ### The start, the investigation and the outcome -/

/-- The latch is taken, exclusively. -/
def takeLatch : Program Sandbox Unit := do
  match ← (ask .createLatch).attempt with
  | .ok () => return ()
  | .error x =>
    throw (if x.className = "FileExistsError" then cleanupUnverified "another scenario owns the sandbox" else x)

/-- `_start`: the latch is taken, and the run has a name and a directory. -/
def start : Program Sandbox String := do
  let exists_ ← ask .latchExists
  if exists_ then throw (cleanupUnverified "prior cleanup unresolved; inspect persisted receipt")
  else
    let runId ← ask .newRunId
    takeLatch
    ask (.mkdir runId)
    return runId

/-- What the `except` clause of a run makes of an outcome, after its cleanup. -/
def reraise (outcome : Except Raised Unit) : Program Sandbox Unit :=
  match outcome with
  | .ok () => return ()
  | .error x => if x.isException then return () else throw x

/-- `_investigate`. -/
def investigate (callback : Bool) : Program Sandbox Unit :=
  if callback then ask .investigate else return ()

end PayOps.Scenarios
