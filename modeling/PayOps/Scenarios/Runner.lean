import PayOps.Scenarios.Sandbox

/-!
# The runner of local scenarios

`LocalScenarioRunner` of `payops.scenarios.runner`: a Deployment is captured and changed, and restored on
every way out; a latch beside the kubeconfig keeps the other runs away.

## The model

The recipes and the checks of observations are functions of `Recipes`, whichever they are; one that reads
the clock gets one reading. A wait has a number of rounds: a run of the program is a run of the model with
enough of them.

## Honest scope

An interrupt comes as the outcome of a request, not between two statements.
-/

namespace PayOps.Scenarios

open Process Program Json

/-- `CaseId`. -/
inductive CaseId where
  /-- `SCHED-04`. -/
  | sched04
  /-- `TELEM-01`. -/
  | telem01
  /-- `DEP-03`. -/
  | dep03
  /-- `DEP-04`. -/
  | dep04
  /-- `TELEM-02`. -/
  | telem02
  /-- `TELEM-04`. -/
  | telem04
  /-- `SCHED-03`. -/
  | sched03
  /-- `OOM-02`. -/
  | oom02
  /-- `OOM-03`. -/
  | oom03
  /-- `OOM-04`. -/
  | oom04
  /-- `TELEM-03`. -/
  | telem03
  /-- `OOM-01`. -/
  | oom01
  /-- `SCHED-01`. -/
  | sched01
  /-- `SCHED-02`. -/
  | sched02
  /-- `ROLLOUT-01`. -/
  | rollout01
  /-- `ROLLOUT-02`. -/
  | rollout02
  /-- `ROLLOUT-03`. -/
  | rollout03
  /-- `ROLLOUT-04`. -/
  | rollout04
  /-- `DEP-01`. -/
  | dep01
  /-- `DEP-02`. -/
  | dep02
  /-- `PAY-01`. -/
  | pay01
  /-- `PAY-02`. -/
  | pay02
  /-- `PAY-03`. -/
  | pay03
  /-- `PAY-04`. -/
  | pay04
  deriving DecidableEq

/-- The cases that have a harness of their own. -/
def specialized : List CaseId :=
  [.sched04, .telem01, .dep03, .dep04, .telem02, .telem04, .oom02, .oom03, .oom04, .sched01, .sched02,
    .sched03, .telem03, .rollout04]

/-- `PACKAGE_A_CASES`. -/
def packageACases : List CaseId := [.dep02, .pay01, .pay02, .pay03, .pay04]

/-- `PACKAGE_A_FAULTS`, its keys. -/
def packageAFaults : List CaseId := [.dep02, .pay01, .pay02, .pay03]

/-- `target`. -/
def target (caseId : CaseId) : String :=
  if caseId = .pay04 then "webhook-sim"
  else if caseId ∈ [CaseId.rollout04, .oom02] then "risk-sim"
  else if caseId ∈ [CaseId.dep01, .telem03] ++ packageAFaults then "processor-adapter"
  else "payments-api"

/-- The recipes, and the checks of what was observed. -/
class Recipes where
  /-- `validate_baseline`. -/
  validateBaseline : JsonObject → String → Except Raised JsonObject
  /-- `fault_spec`. -/
  faultSpec : CaseId → JsonObject → Except Raised JsonObject
  /-- `memory_control_spec`. -/
  memoryControlSpec : JsonObject → Except Raised JsonObject
  /-- `activation`. -/
  activation : CaseId → JsonObject → Except Raised Bool
  /-- `fault_activated(observed, previous, expected, requested_at, control_uids)`, at a time. -/
  faultActivated : JsonObject → JsonObject → JsonObject → ℤ → List String → ℤ → Except Raised Bool
  /-- `control_holding`, at a time. -/
  controlHolding : JsonObject → ℤ → Except Raised Bool
  /-- `len(current_pods(observed, previous, expected, requested_at))`, at a time. -/
  currentPods : JsonObject → JsonObject → JsonObject → ℤ → ℤ → Except Raised ℕ
  /-- Whether `SimulationResult.model_validate_json(str(value))` is an accepted payment. -/
  acceptedPayment : Json → Except Raised Bool
  /-- `str(value)`. -/
  str : Json → String

/-! ### Checks of documents -/

/-- `fields.get(key, default)`. -/
def getOr (fields : JsonObject) (key : String) (default : Json) : Json := (field fields key).getD default

/-- `object_items`. -/
def objectItems : Json → Except Raised (List JsonObject)
  | .arr items => items.mapM objectValue
  | _ => .error (valueError "expected Kubernetes JSON list")

/-- `fields.update(others)`. -/
def update (fields others : JsonObject) : JsonObject :=
  others.foldl (fun fields f => setField fields f.1 f.2) fields

variable [Numerals] [Recipes]

/-- `deployment_ready`. -/
def deploymentReady (document expectedSpec : JsonObject) : Except Raised Bool := do
  let metadata ← objectMember document "metadata"
  let status ← objectValue (getOr document "status" (.obj []))
  let replicas := getOr expectedSpec "replicas" .null
  return pythonEqual (getOr document "spec" .null) (.obj expectedSpec) &&
    pythonEqual (getOr status "observedGeneration" .null) (getOr metadata "generation" .null) &&
    pythonEqual (getOr status "replicas" .null) replicas &&
    pythonEqual (getOr status "updatedReplicas" .null) replicas &&
    pythonEqual (getOr status "readyReplicas" .null) replicas &&
    pythonEqual (getOr status "availableReplicas" .null) replicas

/-- `deployment_ready` of the Deployment of an observation. -/
def observedReady (expectedSpec observed : JsonObject) : Except Raised Bool := do
  let document ← objectMember observed "deployment"
  deploymentReady document expectedSpec

/-- `sample_healthy`. -/
def sampleHealthy (observation : JsonObject) : Except Raised Bool :=
  if pythonEqual (getOr observation "sample_status" .null) (.int 200) = false then .ok false
  else Recipes.acceptedPayment (getOr observation "sample_body" (.str ""))

/-- The identities of the pods observed. -/
def podUids (observed : JsonObject) : Except Raised (List String) := do
  let value ← member observed "pods"
  let pods ← objectItems value
  pods.mapM fun pod => do
    let uid ← uidOf pod
    return Recipes.str uid

/-- What a run has captured before its first write, and the specifications that it writes. -/
structure Plan where
  /-- The Deployment that was captured. -/
  original : JsonObject
  /-- The specification of the fault. -/
  injected : JsonObject
  /-- That of the control of a memory fault. -/
  intermediate : Option JsonObject

/-- A runner. -/
structure LocalScenarioRunner where
  /-- `self.timeout`. -/
  timeout : ℚ
  /-- Whether there is a callback. -/
  callback : Bool
  /-- The rounds of a wait. -/
  rounds : ℕ

/-! ### Waiting -/

/-- The rounds of `_wait`, as many as are left. -/
def poll (name : String) (collect : Program Sandbox JsonObject) (accept : JsonObject → Program Sandbox Bool)
    (deadline : ℚ) : ℕ → Program Sandbox JsonObject
  | 0 => throw (timeoutError (name ++ " deadline exceeded"))
  | left + 1 => do
    let observed ← collect
    ask (.save name)
    let accepted ← accept observed
    if accepted then return observed
    else
      let now ← ask .monotonic
      if deadline ≤ now then throw (timeoutError (name ++ " deadline exceeded"))
      else
        ask .sleep
        poll name collect accept deadline left

namespace LocalScenarioRunner

variable (R : LocalScenarioRunner)

/-- `_wait`. -/
def wait (name : String) (collect : Program Sandbox JsonObject) (accept : JsonObject → Program Sandbox Bool) :
    Program Sandbox JsonObject := do
  let now ← ask .monotonic
  poll name collect accept (now + R.timeout) R.rounds

/-- The wait for a Deployment that is ready. -/
def waitReady (caseId : CaseId) (name : String) (spec : JsonObject) : Program Sandbox JsonObject :=
  R.wait name (ask (.observe (target caseId))) fun observed => ofResult (observedReady spec observed)

/-- The wait for a healthy sample. -/
def waitHealthy (name : String) : Program Sandbox JsonObject :=
  R.wait name (ask .healthy) fun observed => ofResult (sampleHealthy observed)

/-! ### The fault -/

/-- `_baseline`. -/
def baseline (caseId : CaseId) : Program Sandbox JsonObject := do
  let _ ← ask .verifyScope
  ask (.save "scope")
  let original ← ask (.deployment (target caseId))
  let spec ← ofResult (Recipes.validateBaseline original (target caseId))
  ask (.save "original")
  let _ ← R.waitReady caseId "baseline-ready" spec
  let _ ← R.waitHealthy "healthy-before"
  return original

/-- The Deployment and the specification of the fault, with which there is something to restore. -/
def capture (caseId : CaseId) : Program Sandbox (JsonObject × JsonObject) := do
  let original ← R.baseline caseId
  let spec ← ofResult (objectMember original "spec")
  let injected ← ofResult (Recipes.faultSpec caseId spec)
  return (original, injected)

/-- The specification of the control of a memory fault. -/
def controlSpec (caseId : CaseId) (original : JsonObject) : Except Raised (Option JsonObject) :=
  if caseId = .oom01 then do
    let spec ← objectMember original "spec"
    let control ← Recipes.memoryControlSpec spec
    return some control
  else return none

/-- `_control_observation`. -/
def controlObservation (original control : JsonObject) (requestedAt : ℤ) : Program Sandbox JsonObject := do
  let observed ← ask .collectMemory
  let now ← ask .utcNow
  let owned ← ofResult (Recipes.currentPods observed original control requestedAt now)
  if owned ≠ 1 then return observed
  else
    let pods ← ofResult (objectItems (getOr observed "pods" (.arr [])))
    if pods.length ≠ 1 then return observed
    else
      let ready ← ofResult (observedReady control observed)
      if ready = false then return observed
      else
        let now ← ask .utcNow
        let holding ← ofResult (Recipes.controlHolding observed now)
        if holding then do
          let sample ← ask .healthy
          return update observed sample
        else return observed

/-- What the control is accepted by. -/
def controlAccepted (observed : JsonObject) : Program Sandbox Bool := do
  let now ← ask .utcNow
  let holding ← ofResult (Recipes.controlHolding observed now)
  if holding then ofResult (sampleHealthy observed) else return false

/-- `_memory_control`: the Deployment of the control, and the identities of its pods. -/
def memoryControl (original control : JsonObject) : Program Sandbox (JsonObject × List String) := do
  let requestedAt ← ask .utcNow
  let originalUid ← ofResult (uidOf original)
  let _ ← ofResult (member original "spec")
  ask (.save "mutation-journal")
  ask (.replaceSpec "payments-api" original control)
  let observed ← R.wait "memory-control" (controlObservation original control requestedAt) controlAccepted
  let current ← ofResult (objectMember observed "deployment")
  let uid ← ofResult (uidOf current)
  raiseIf (pythonEqual uid originalUid = false) (cleanupUnverified "control Deployment identity changed")
  let uids ← ofResult (podUids observed)
  return (current, uids)

/-- `_package_activation`. -/
def packageActivation (caseId : CaseId) (injected : JsonObject) : Program Sandbox Unit := do
  let _ ← R.waitReady caseId "workload-ready" injected
  let observed ← ask .collectPackage
  ask (.save "activation")
  let active ← ofResult (Recipes.activation caseId observed)
  raiseIf (active = false) (valueError "Package A runtime behavior or metric window was not verified")

/-- `_activation`. -/
def activation (caseId : CaseId) : Program Sandbox JsonObject := do
  let observed ← ask (.observe (target caseId))
  if caseId = .dep01 then do
    let sample ← ask .healthy
    return update observed sample
  else return observed

/-- The fault is observed. -/
def activated (caseId : CaseId) (original injected : JsonObject) (requestedAt : ℤ) (controlUids : List String) :
    Program Sandbox Unit :=
  if caseId = .oom01 then do
    let _ ← R.wait "activation" (ask .collectMemory) fun observed => do
      let now ← ask .utcNow
      ofResult (Recipes.faultActivated observed original injected requestedAt controlUids now)
    return ()
  else if caseId ∈ packageACases then R.packageActivation caseId injected
  else do
    let _ ← R.wait "activation" (activation caseId) fun observed => ofResult (Recipes.activation caseId observed)
    return ()

/-- `replace_spec`, where there is a fault to write. -/
def replaceFault (caseId : CaseId) (original injected : JsonObject) : Program Sandbox Unit := do
  let spec ← ofResult (member original "spec")
  if pythonEqual (.obj injected) spec then return ()
  else ask (.replaceSpec (target caseId) original injected)

/-- `_inject`. -/
def inject (caseId : CaseId) (original injected : JsonObject) (controlUids : List String) :
    Program Sandbox Unit := do
  ask (.save "injection-plan")
  let requestedAt ← ask .utcNow
  replaceFault caseId original injected
  R.activated caseId original injected requestedAt controlUids

/-- The control, where there is one. -/
def control (plan : Plan) : Program Sandbox (JsonObject × List String) :=
  match plan.intermediate with
  | some spec => R.memoryControl plan.original spec
  | none => return (plan.original, [])

/-- What `run` does once the specifications are known. -/
def fault (caseId : CaseId) (plan : Plan) : Program Sandbox Unit := do
  let expected ← R.control plan
  R.inject caseId expected.1 plan.injected expected.2
  investigate R.callback

/-! ### The restoration -/

/-- The specification that is known is replaced. -/
def replaceOriginal (caseId : CaseId) (plan : Plan) (current currentSpec originalSpec : JsonObject) :
    Program Sandbox Unit :=
  if pythonEqual (.obj currentSpec) (.obj originalSpec) then return ()
  else do
    raiseIf (pythonEqual (.obj currentSpec) (.obj plan.injected) = false ∧
        ∀ spec ∈ plan.intermediate, pythonEqual (.obj currentSpec) (.obj spec) = false)
      (cleanupUnverified "Deployment spec changed outside this run")
    ask (.replaceSpec (target caseId) current originalSpec)

/-- `_restore`. -/
def restore (caseId : CaseId) (plan : Plan) : Program Sandbox Unit := do
  let current ← ask (.deployment (target caseId))
  let currentSpec ← ofResult (objectMember current "spec")
  let originalSpec ← ofResult (objectMember plan.original "spec")
  let uid ← ofResult (uidOf current)
  let originalUid ← ofResult (uidOf plan.original)
  raiseIf (pythonEqual uid originalUid = false) (cleanupUnverified "Deployment identity changed")
  replaceOriginal caseId plan current currentSpec originalSpec
  let _ ← R.waitReady caseId "restored" originalSpec
  let _ ← R.waitHealthy "healthy-after"
  return ()

/-- The restoration, whose exceptions are written to the latch: whether it is verified. -/
def recover (caseId : CaseId) (plan : Plan) : Program Sandbox Bool := do
  match ← (R.restore caseId plan).attempt with
  | .ok () => return true
  | .error x =>
    if x.isException then do
      ask .writeLatch
      return false
    else throw x

/-- The receipt, and the release of the latch. -/
def complete (verified : Bool) : Program Sandbox Unit := do
  ask .saveReceipt
  if verified then ask .unlinkLatch else return ()

/-- `_finish`, with a plan. -/
def finish (caseId : CaseId) (plan : Plan) : Program Sandbox Unit := do
  let verified ← R.recover caseId plan
  complete verified

/-- The run with something to restore. -/
def runPlan (caseId : CaseId) (original injected : JsonObject) : Program Sandbox Unit := do
  match controlSpec caseId original with
  | .error x =>
    R.finish caseId ⟨original, injected, none⟩
    reraise (.error x)
  | .ok intermediate =>
    let outcome ← (R.fault caseId ⟨original, injected, intermediate⟩).attempt
    R.finish caseId ⟨original, injected, intermediate⟩
    reraise outcome

/-- The run after its start. -/
def runFrom (caseId : CaseId) : Program Sandbox Unit := do
  match ← (R.capture caseId).attempt with
  | .error x =>
    complete true
    reraise (.error x)
  | .ok captured => R.runPlan caseId captured.1 captured.2

/-- `run`. -/
def run (caseId : CaseId) : Program Sandbox Unit :=
  if caseId ∈ specialized then throw (valueError "case requires its specialized journaled harness")
  else do
    let _ ← start
    R.runFrom caseId

end LocalScenarioRunner

end PayOps.Scenarios
