import PayOps.Scenarios.Sandbox

/-!
# The rollout of a wire protocol

`ProtocolHarness` of `payops.scenarios.protocol`: two Deployments are changed one after the other, and both
are restored on every way out.

## The model

The run of a protocol and the list of errors are `Mutable`: what was done to them before an exception stays.
The checks of documents are functions of `ProtocolChecks`, whichever they are.

## Honest scope

An interrupt comes as the outcome of a request, not between two statements.
-/

namespace PayOps.Scenarios

open Process Program Json

/-- The checks of documents. -/
class ProtocolChecks where
  /-- `deployment_map`. -/
  deploymentMap : JsonObject → Except Raised (List (String × JsonObject))
  /-- `validate_runtime_baseline`. -/
  validateRuntimeBaseline : JsonObject → Except Raised Unit
  /-- `protocol_spec`. -/
  protocolSpec : JsonObject → String → Except Raised JsonObject
  /-- `protocol_identities(state, original, payments, risk)`. -/
  protocolIdentities : JsonObject → JsonObject → JsonObject → JsonObject → Except Raised Identities
  /-- `fresh_protocol_process(state, service, current, previous, requested_at)`, at a time. -/
  freshProtocolProcess : JsonObject → String → PodIdentity → PodIdentity → Option ℤ → ℤ → Except Raised Unit

variable [Numerals] [ProtocolChecks]

/-- `ProtocolRun`. -/
structure ProtocolRun where
  /-- The state that was captured. -/
  original : JsonObject
  /-- The last state that was ready. -/
  latest : JsonObject
  /-- The specifications of the second version. -/
  variants : List (String × JsonObject)
  /-- The processes of the last state that was ready. -/
  identities : Identities
  /-- The observations so far. -/
  observations : List (ProtocolStage × ProtocolObservation) := []
  /-- When the last change was requested. -/
  requestedAt : Option ℤ := none

/-- A run, and the errors that its cleanup has collected. -/
structure Progress where
  /-- The run. -/
  context : ProtocolRun
  /-- The errors. -/
  errors : List String

/-- A harness. -/
structure ProtocolHarness where
  /-- `self.access.mode`. -/
  mode : String
  /-- `self.timeout`. -/
  timeout : ℚ
  /-- Whether there is a callback. -/
  callback : Bool

/-- `mapping[key]`. -/
def item {α : Type} (mapping : List (String × α)) (key : String) : Except Raised α :=
  match mapping.lookup key with
  | some x => .ok x
  | none => .error (keyError key)

/-- The stage's name. -/
def ProtocolStage.name : ProtocolStage → String
  | original => "original"
  | mismatch => "mismatch"
  | matched => "matched"
  | final => "final"

/-- `f"{what}: {type(error).__name__}: {error}"`. -/
def errorText (what : String) (x : Raised) : String := what ++ ": " ++ x.className ++ ": " ++ x.message

/-- An error is collected. -/
def collectError (text : String) : Mutable Sandbox Progress Unit :=
  .modify fun p => { p with errors := p.errors ++ [text] }

/-- `_record`; with `keep` what is raised is collected. -/
def record (keep : Bool) (name : String) : Mutable Sandbox Progress Unit := do
  match ← (Mutable.lift (ask (.save name))).attempt with
  | .ok () => pure ()
  | .error x => if keep then collectError (errorText (name ++ " persistence") x) else .raise x

/-- `documents[name]["spec"]`, an object. -/
def specOf (documents : List (String × JsonObject)) (name : String) : Except Raised JsonObject := do
  let document ← item documents name
  objectMember document "spec"

/-- `_specs`: of the payments and of the risk service. -/
def specs (context : ProtocolRun) (stage : ProtocolStage) : Except Raised (JsonObject × JsonObject) := do
  let documents ← ProtocolChecks.deploymentMap context.original
  let payments ← if stage = .matched then item context.variants "payments-api"
    else specOf documents "payments-api"
  let risk ← if stage = .mismatch ∨ stage = .matched then item context.variants "risk-sim"
    else specOf documents "risk-sim"
  return (payments, risk)

/-- Whether a peer that was not changed has another process. -/
def peerChanged (current : Identities) (changed : List String) : Identities → Except Raised Bool
  | [] => .ok false
  | (name, identity) :: previous =>
    if name ∈ changed then peerChanged current changed previous
    else do
      let now ← item current name
      if now ≠ identity then return true else peerChanged current changed previous

/-- The changed service has a fresh process, where only one was changed. -/
def freshProcess (context : ProtocolRun) (state : JsonObject) (current : Identities) :
    List String → Program Sandbox Unit
  | [name] => do
    let now ← ask .utcNow
    let identity ← ofResult (item current name)
    let previous ← ofResult (item context.identities name)
    ofResult (ProtocolChecks.freshProtocolProcess state name identity previous context.requestedAt now)
  | _ => return ()

/-- The processes of a state that is ready for the specifications. -/
def readyIdentities (context : ProtocolRun) (wanted : JsonObject × JsonObject) (changed : List String)
    (state : JsonObject) : Program Sandbox Identities := do
  let current ← ofResult (ProtocolChecks.protocolIdentities state context.original wanted.1 wanted.2)
  let differs ← ofResult (peerChanged current changed context.identities)
  raiseIf (differs = true) (valueError "unmodified protocol peer changed process")
  freshProcess context state current changed
  return current

/-- The snapshots of `_settle`, as many as are left. -/
def snapshots (wanted : JsonObject × JsonObject) (changed : List String) (keep : Bool) (deadline : ℚ) :
    ℕ → Mutable Sandbox Progress ℤ
  | 0 => .raise (timeoutError "protocol readiness snapshot count exceeded")
  | left + 1 => do
    let now ← .lift (ask .monotonic)
    if deadline - now ≤ 0 then .raise (timeoutError "protocol readiness deadline exceeded")
    else
      let state ← .lift (ask .state)
      let _ ← .lift (ask .clock)
      record keep "runtime"
      let progress ← .get
      match ← (Mutable.lift (readyIdentities progress.context wanted changed state)).attempt with
      | .ok current =>
        let now ← .lift (ask .monotonic)
        if deadline < now then .raise (timeoutError "protocol runtime read exceeded deadline")
        else
          .modify fun p => { p with context := { p.context with latest := state, identities := current } }
          .lift (ask .clock)
      | .error x =>
        if x.isValueError then
          let _ ← .lift (ask .monotonic)
          .lift (ask .sleep)
          snapshots wanted changed keep deadline left
        else .raise x

namespace ProtocolHarness

variable (H : ProtocolHarness)

/-- `_settle`. -/
def settle (stage : ProtocolStage) (changed : List String) (keep : Bool) : Mutable Sandbox Progress ℤ := do
  let now ← .lift (ask .monotonic)
  let progress ← .get
  let wanted ← .lift (ofResult (specs progress.context stage))
  snapshots wanted changed keep (now + H.timeout) 46

/-- The two mappings are the same. -/
def sameIdentities (a b : Identities) : Bool :=
  a.length == b.length && a.all fun x => b.lookup x.1 == some x.2

/-- The observation is of this run, of these processes and after this time. -/
def inScope (runId : String) (identities : Identities) (readyAt : ℤ) (observed : ProtocolObservation) :
    Bool :=
  observed.incidentId == runId && sameIdentities observed.identities identities &&
    observed.mode == H.mode && readyAt ≤ observed.startedAt

/-- The observation has a sample and a trace that no earlier one has. -/
def freshEvidence (earlier : List (ProtocolStage × ProtocolObservation)) (observed : ProtocolObservation) :
    Bool :=
  earlier.all fun x => x.2.sampleId != observed.sampleId && x.2.traceId != observed.traceId

/-- `observations[stage] = observed`. -/
def observe (stage : ProtocolStage) (observed : ProtocolObservation) (p : Progress) : Progress :=
  { p with context := { p.context with
      observations := p.context.observations.filter (fun x => x.1 ≠ stage) ++ [(stage, observed)] } }

/-- `_stage`. -/
def stage (runId : String) (stage : ProtocolStage) (changed : List String) (keep : Bool) :
    Mutable Sandbox Progress Unit := do
  let readyAt ← H.settle stage changed keep
  let progress ← .get
  let identities := progress.context.identities
  let observed ← .lift (ask (.collectProtocol stage runId identities))
  record keep stage.name
  if !H.inScope runId identities readyAt observed then
    .raise (valueError "protocol observations disagree with runtime scope")
  else if !freshEvidence progress.context.observations observed then
    .raise (valueError "protocol stages reused sample or trace identity")
  else
    .lift (ask (.verifyProtocol stage observed))
    let _ ← H.settle stage [] keep
    .modify (observe stage observed)

/-- `_prepare`, with the store. -/
def prepare (runId : String) : Program Sandbox ProtocolRun := do
  ask (.mkdir "artifacts")
  let _ ← ask .verifyScope
  ask (.save "scope")
  let original ← ask .state
  ask (.save "original")
  ofResult (ProtocolChecks.validateRuntimeBaseline original)
  let documents ← ofResult (ProtocolChecks.deploymentMap original)
  let payments ← ofResult (item documents "payments-api")
  let paymentsVariant ← ofResult (ProtocolChecks.protocolSpec payments "payments-api")
  let risk ← ofResult (item documents "risk-sim")
  let riskVariant ← ofResult (ProtocolChecks.protocolSpec risk "risk-sim")
  let paymentsSpec ← ofResult (objectMember payments "spec")
  let riskSpec ← ofResult (objectMember risk "spec")
  let identities ← ofResult (ProtocolChecks.protocolIdentities original original paymentsSpec riskSpec)
  let variants := [("payments-api", paymentsVariant), ("risk-sim", riskVariant)]
  let out ← H.stage runId .original [] false ⟨{ original, latest := original, variants, identities }, []⟩
  ofResult out.1
  ask (.save "protocol-journal")
  return out.2.context

/-- `_transition`. -/
def transition (target : String) : Mutable Sandbox Progress Unit := do
  let progress ← .get
  let documents ← .lift (ofResult (ProtocolChecks.deploymentMap progress.context.latest))
  let current ← .lift (ofResult (item documents target))
  let requestedAt ← .lift (ask .clock)
  .modify fun p => { p with context := { p.context with requestedAt := some requestedAt } }
  let variant ← .lift (ofResult (item progress.context.variants target))
  .lift (ask (.save ("transition-" ++ target)))
  .lift (ask (.replaceSpec target current variant))

/-- What `run` does after the preparation. -/
def forward (runId : String) : Mutable Sandbox Progress Unit := do
  transition "risk-sim"
  H.stage runId .mismatch ["risk-sim"] false
  .lift (investigate H.callback)
  transition "payments-api"
  H.stage runId .matched ["payments-api"] false

/-- `_undo`. -/
def undo (context : ProtocolRun) (target : String) : Program Sandbox Unit := do
  let current ← ask (.deployment target)
  let documents ← ofResult (ProtocolChecks.deploymentMap context.original)
  let original ← ofResult (item documents target)
  let uid ← ofResult (uidOf current)
  let originalUid ← ofResult (uidOf original)
  raiseIf (pythonEqual uid originalUid = false) (cleanupUnverified "protocol Deployment identity changed")
  let spec ← ofResult (member current "spec")
  let originalSpec ← ofResult (member original "spec")
  if pythonEqual spec originalSpec then return ()
  else
    let variant ← ofResult (item context.variants target)
    raiseIf (pythonEqual spec (.obj variant) = false)
      (cleanupUnverified "protocol Deployment has unknown spec")
    let restored ← ofResult (objectValue originalSpec)
    ask (.replaceSpec target current restored)

/-- The restoration of one Deployment: what it raises is collected. -/
def restoreTarget (context : ProtocolRun) (target : String) : Mutable Sandbox Progress Unit := do
  match ← (Mutable.lift (undo context target)).attempt with
  | .ok () => record true ("cleanup-" ++ target)
  | .error x =>
    collectError (errorText (target ++ " restore") x)
    record true ("cleanup-" ++ target)

/-- The final stage: what it raises is collected. -/
def verifyFinal (runId : String) : Mutable Sandbox Progress Unit := do
  match ← (H.stage runId .final ["payments-api", "risk-sim"] true).attempt with
  | .ok () => record true "cleanup-verify"
  | .error x =>
    collectError (errorText "final verification" x)
    record true "cleanup-verify"

/-- `_recover`, where there is a run to recover. -/
def cleanup (runId : String) (context : ProtocolRun) : Mutable Sandbox Progress Unit := do
  restoreTarget context "payments-api"
  restoreTarget context "risk-sim"
  H.verifyFinal runId

/-- The latch is released, where no error was collected. -/
def release (errors : List String) : Program Sandbox (List String) :=
  if errors = [] then do
    match ← (ask .unlinkLatch).attempt with
    | .ok () => return []
    | .error x => return [errorText "latch release" x]
  else return errors

/-- The receipt is saved. -/
def saveReceipt (errors : List String) : Program Sandbox (List String) := do
  match ← (ask .saveReceipt).attempt with
  | .ok () => return errors
  | .error x => return errors ++ [errorText "receipt persistence" x]

/-- `_final_receipt`. -/
def finalReceipt (errors : List String) : Program Sandbox Unit := do
  let errors ← saveReceipt errors
  let errors ← release errors
  if errors = [] then return ()
  else
    match ← (ask .writeLatch).attempt with
    | .ok () => return ()
    | .error _ => throw (cleanupUnverified "protocol cleanup and latch persistence are unverified")

/-- The run after its start. -/
def runFrom (runId : String) : Program Sandbox Unit := do
  match ← (H.prepare runId).attempt with
  | .error x =>
    finalReceipt []
    reraise (.error x)
  | .ok context =>
    let out ← H.forward runId ⟨context, []⟩
    let cleaned ← H.cleanup runId out.2.context ⟨out.2.context, []⟩
    finalReceipt cleaned.2.errors
    reraise out.1

/-- `run`. -/
def run (caseId : String) : Program Sandbox Unit :=
  if caseId ≠ "ROLLOUT-04" then throw (valueError "protocol harness accepts only ROLLOUT-04")
  else do
    let runId ← start
    H.runFrom runId

end ProtocolHarness

end PayOps.Scenarios
