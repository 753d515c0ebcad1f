import PayOps.Remediation.Store

/-!
# The remediation broker

`propose`, `approve` and `execute` of `payops.remediation.broker`, as programs of a worker.

## The model

A broker is given by the mode it was started with; its store and its backend are the
environment it shares with the other workers. `Start` says which programs a worker may run:
any of the three methods, of a broker of any mode, with any arguments.

`except PermissionError` catches `Fault.permission` only; `except Exception` catches every
fault, a crash being no fault but a step of the network.
-/

namespace PayOps.Remediation

open Policy Process Program

variable [Platform]

/-- A broker. -/
structure RemediationBroker where
  /-- The mode it executes in. -/
  mode : OperationMode

/-- `_identity`: the refreshed identity is the subject's own, and valid now. -/
def identity (subject : String) (role : Role) (nameSpace : Identifier) : Program Worker Principal := do
  let principal ← ask (.principal subject)
  let now ← ask .clock
  match principal with
  | none => throw (.permission "IDENTITY_DENIED")
  | some p =>
    raiseIf (!identityValid principal role nameSpace now || p.subject.val ≠ subject)
      (.permission "IDENTITY_DENIED")
    return p

/-- The times after which a review no longer holds: thirty seconds after the resource was read,
and five minutes after each cited item was observed and was collected. -/
def deadlines (action : Action) (evidence : List EvidenceItem) : List Time :=
  (evidence.filter fun item => item.evidenceId ∈ action.evidenceIds).flatMap fun item =>
    [item.observedAt + seconds 300, item.collectedAt + seconds 300]

/-- `min(deadlines)`, the first of which is the resource's. -/
def policyDeadline (action : Action) (resource : ResourceSnapshot) (evidence : List EvidenceItem) :
    Time :=
  (deadlines action evidence).foldl min (resource.observedAt + seconds 30)

namespace RemediationBroker

variable (broker : RemediationBroker)

/-- `_review`: evaluate current policy, and say until when the review holds. -/
def review (action : Action) (subject : String) : Program Worker Time := do
  let principal ← identity subject .responder action.nameSpace
  let context ← ask (.context action subject)
  raiseIf (action.mode ≠ broker.mode) (.permission "BACKEND_CONTEXT_MISMATCH")
  match ← evaluate (I := Worker) action.dump { context with principal := some principal } with
  | .deny reason => throw (.permission reason)
  | .approvalRequired _ _ _ =>
    match context.incident.report with
    | none => throw (.other "AssertionError")
    | some report => return policyDeadline action context.resource report.evidence

/-- `propose`: an untrusted mapping becomes a stored proposal once policy has reviewed it. -/
def propose (value : JsonObject) (subject : String) : Program Worker ActionRecord := do
  match Action.validate value with
  | none => throw (.permission "INVALID_PROPOSAL")
  | some action =>
    let _ ← broker.review action subject
    let now ← ask .clock
    match Digest.validate (actionDigest action), Identifier.validate subject with
    | some actionId, some proposer =>
      match ActionFields.validate
        { actionId, proposal := action, proposer, createdAt := now, updatedAt := now } with
      | .error message => throw (.value message)
      | .ok record => ActionStore.create record
    | _, _ => throw (.value "invalid action record")

/-- `approve`: a second person binds a five-minute approval to the stored proposal. -/
def approve (actionId subject : String) : Program Worker ActionRecord := do
  let record ← ActionStore.get actionId
  let _ ← identity subject .approver record.proposal.nameSpace
  raiseIf (subject = record.proposer.val ∨ record.state ≠ .proposed) (.permission "APPROVAL_DENIED")
  let deadline ← broker.review record.proposal record.proposer.val
  let _ ← identity subject .approver record.proposal.nameSpace
  let now ← ask .clock
  raiseIf (deadline < now) (.permission "POLICY_EXPIRED")
  match Identifier.validate subject with
  | none => throw (.value "invalid approval")
  | some approver =>
    ActionStore.transition record .approved subject "HUMAN_APPROVED"
      (some ⟨approver, record.actionId, now, now + seconds 300⟩)

/-- `_approval_current`. -/
def approvalCurrent (approval : Approval) : Program Worker Unit := do
  let now ← ask .clock
  raiseIf (¬(approval.approvedAt ≤ now ∧ now < approval.expiresAt)) (.permission "APPROVAL_EXPIRED")

/-- `_dispatch_authority`: refresh the three identities, then check all claims at one time. -/
def dispatchAuthority (record : ActionRecord) (approval : Approval) (subject : String)
    (deadline : Time) : Program Worker Unit := do
  let executor ← identity subject .executor record.proposal.nameSpace
  let approver ← identity approval.subject.val .approver record.proposal.nameSpace
  let responder ← identity record.proposer.val .responder record.proposal.nameSpace
  let now ← ask .clock
  raiseIf (¬(identityValid (some executor) .executor record.proposal.nameSpace now ∧
    identityValid (some approver) .approver record.proposal.nameSpace now ∧
    identityValid (some responder) .responder record.proposal.nameSpace now))
    (.permission "IDENTITY_DENIED")
  approvalCurrent approval
  let last ← ask .clock
  raiseIf (deadline < last) (.permission "POLICY_EXPIRED")

/-- The first `try` of `_dispatch`: whether dispatch is still authorised. -/
def authorized (record : ActionRecord) (approval : Approval) (subject : String) (deadline : Time) :
    Program Worker Bool :=
  try do
    dispatchAuthority record approval subject deadline
    pure true
  catch
    | .permission _ => pure false
    | fault => throw fault

/-- The second `try` of `_dispatch`: the receipt of the effect, if it is one. -/
def invoke (record : ActionRecord) : Program Worker (Option EffectReceipt) :=
  try do
    let result ← ask (.execute record.proposal record.actionId.val)
    raiseIf (¬result.matches record.proposal) (.value "executor receipt precondition mismatch")
    pure (some result)
  catch _ => pure none

/-- The receipt of an effect that was not authorised. -/
def deniedReceipt (record : ActionRecord) : EffectReceipt :=
  { outcome := .failed, resourceUid := record.proposal.resourceUid,
    previousVersion := record.proposal.expectedVersion }

/-- `_dispatch`: one effect at most, and whatever came of it is recorded. -/
def dispatch (record : ActionRecord) (subject : String) (deadline : Time) :
    Program Worker ActionRecord := do
  match record.approval with
  | none => throw (.other "AssertionError")
  | some approval =>
    if ← authorized record approval subject deadline then
      match ← invoke record with
      | none => ActionStore.transition record .unknown subject "EXECUTOR_RESULT_UNKNOWN"
      | some result =>
        ActionStore.transition record result.outcome.state subject "EXECUTOR_RESULT" none (some result)
    else
      ActionStore.transition record .failed subject "DISPATCH_AUTHORITY_DENIED" none
        (some (deniedReceipt record))

/-- The checks of `execute` before its claim; they give the deadline of the review. -/
def precheck (record : ActionRecord) : Program Worker Time := do
  match record.approval with
  | none => throw (.permission "APPROVAL_REQUIRED")
  | some approval =>
    raiseIf (record.state ≠ .approved) (.permission "APPROVAL_REQUIRED")
    let now ← ask .clock
    raiseIf (¬(approval.approvedAt ≤ now ∧ now < approval.expiresAt)) (.permission "APPROVAL_REQUIRED")
    let _ ← identity approval.subject.val .approver record.proposal.nameSpace
    let deadline ← broker.review record.proposal record.proposer.val
    approvalCurrent approval
    pure deadline

/-- `execute`: commit one claim before any effect. -/
def execute (actionId subject : String) : Program Worker ActionRecord := do
  let record ← ActionStore.get actionId
  let _ ← identity subject .executor record.proposal.nameSpace
  raiseIf (record.proposal.mode ≠ broker.mode) (.permission "OPERATION_MODE_MISMATCH")
  if record.state = .executing ∨ record.state = .succeeded ∨ record.state = .failed ∨
      record.state = .unknown then
    return record
  else
    let deadline ← broker.precheck record
    let claimed ← ActionStore.transition record .executing subject "DISPATCH"
    dispatch claimed subject deadline

end RemediationBroker

/-- The calls a worker may make. -/
inductive Start : Program Worker ActionRecord → Prop
  /-- `propose`. -/
  | propose (broker : RemediationBroker) (value : JsonObject) (subject : String) :
      Start (broker.propose value subject)
  /-- `approve`. -/
  | approve (broker : RemediationBroker) (actionId subject : String) :
      Start (broker.approve actionId subject)
  /-- `execute`. -/
  | execute (broker : RemediationBroker) (actionId subject : String) :
      Start (broker.execute actionId subject)

end PayOps.Remediation
