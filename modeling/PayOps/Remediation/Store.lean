import PayOps.Remediation.Contracts
import PayOps.Process.Network
import PayOps.Faults

/-!
# The action store

The tables of `payops.remediation.store`, its transactions, and the methods of `ActionStore`
as programs.

## The model

A transaction is a function of the tables that commits or fails; a failed one is rolled back.
What the workers of the broker ask of their environment is one `Effect` each: a transaction,
a call of the trusted backend, a reading of a clock, the verification of an artifact.
`Environment` says what may be answered: the tables answer as their transactions do, or the
database raises and rolls back; the backend, the clocks and the artifacts may answer anything
and may raise anything.

A row's payload is the record it was written from: every payload is the text of a validated
record, so that comparing texts is comparing records.

## What is proved

* `ActionStore.create_raises`, `ActionStore.transition_raises` — **a call that raises leaves
  both tables as they were**.
-/

namespace PayOps.Remediation

open Policy Process Program

variable [Platform]

/-! ### The tables and their transactions -/

/-- `remediation_actions`, by its primary key, and `remediation_audit`, in insertion order. -/
structure Tables where
  /-- The payloads of the action rows. -/
  actions : String → Option ActionRecord
  /-- The payloads of the audit rows. -/
  audit : List AuditEvent

namespace Tables

/-- No rows. -/
def empty : Tables := ⟨fun _ => none, []⟩

/-- The event `_audit` inserts; it is validated before it is. -/
def auditEvent (record : ActionRecord) (actor reason : String) : Except Fault AuditEvent :=
  match Identifier.validate actor, Identifier.validate reason with
  | some actor, some reason =>
    .ok ⟨record.actionId, record.revision, record.state, actor, reason, record.updatedAt⟩
  | _, _ => .error (.value "invalid audit event")

/-- The audit table has a row with the primary key of `event`. -/
def audited (t : Tables) (event : AuditEvent) : Bool :=
  t.audit.any fun row => row.actionId == event.actionId && row.revision == event.revision

/-- The tables with `record` written to a row and `event` added. -/
def publish (t : Tables) (actionId : String) (record : ActionRecord) (event : AuditEvent) : Tables :=
  ⟨Function.update t.actions actionId (some record), t.audit ++ [event]⟩

/-- The transaction of `create`. -/
def insert (t : Tables) (record : ActionRecord) (actor reason : String) : Except Fault Tables :=
  match auditEvent record actor reason with
  | .error fault => .error fault
  | .ok event =>
    if (t.actions record.actionId.val).isSome || t.audited event then .error .duplicate
    else .ok (t.publish record.actionId.val record event)

/-- The transaction of `transition`: `UPDATE … WHERE payload = before RETURNING`, then the audit
row. -/
def update (t : Tables) (before after : ActionRecord) (actor reason : String) :
    Except Fault Tables :=
  if t.actions before.actionId.val ≠ some before then
    .error (.conflict "action changed concurrently")
  else match auditEvent after actor reason with
    | .error fault => .error fault
    | .ok event =>
      if t.audited event then .error .duplicate
      else .ok (t.publish before.actionId.val after event)

/-- `audit(action_id)`: the rows of an action, ordered by their revision. -/
def auditOf (t : Tables) (actionId : String) : List AuditEvent :=
  (t.audit.filter fun row => row.actionId.val == actionId).insertionSort fun a b =>
    a.revision ≤ b.revision

/-- The reason of the last audit event of an action. -/
def lastReason (t : Tables) (actionId : String) : Option String :=
  (t.auditOf actionId).getLast?.map fun event => event.reason.val

end Tables

/-! ### What a worker asks of its environment -/

/-- One request of a worker. -/
inductive Effect where
  /-- `backend.principal(subject)`. -/
  | principal (subject : String)
  /-- `backend.context(action, subject)`. -/
  | context (action : Action) (subject : String)
  /-- `backend.execute(action, idempotency_key)`. -/
  | execute (action : Action) (idempotencyKey : String)
  /-- The broker's clock. -/
  | clock
  /-- `utc_now()`. -/
  | utcNow
  /-- `store.verify(item)`. -/
  | verify (store : ArtifactStore) (item : EvidenceItem)
  /-- `verify_payment_window(item, store)`. -/
  | paymentWindow (store : ArtifactStore) (item : EvidenceItem)
  /-- `session.get(ActionRow, action_id)`. -/
  | select (actionId : String)
  /-- The transaction of `create`. -/
  | insert (record : ActionRecord) (actor reason : String)
  /-- The transaction of `transition`. -/
  | update (before after : ActionRecord) (actor reason : String)

/-- The reply to a request. -/
abbrev Effect.Reply : Effect → Type
  | principal _ => Option Principal
  | context _ _ => PolicyContext
  | execute _ _ => EffectReceipt
  | clock => Time
  | utcNow => Time
  | verify _ _ => Unit
  | paymentWindow _ _ => WindowStatus
  | select _ => Option ActionRecord
  | insert _ _ _ => Unit
  | update _ _ _ _ => Unit

/-- The interface of the workers. -/
abbrev Worker : Interface := ⟨Effect, Effect.Reply, Fault⟩

/-- One request. -/
def ask (e : Effect) : Program Worker e.Reply := perform (I := Worker) e

instance : Readings Worker where
  utcNow := ask .utcNow
  verify store item := ask (.verify store item)
  paymentWindow store item := ask (.paymentWindow store item)
  degrades fault := fault.isKey || fault.isValue || fault.isOs

/-- A transaction commits, or it is rolled back: by its own failure, or by one of the database. -/
inductive Transacts (t : Tables) (result : Except Fault Tables) : Except Fault Unit → Tables → Prop
  /-- Committed. -/
  | commit {t' : Tables} : result = .ok t' → Transacts t result (.ok ()) t'
  /-- Rolled back. -/
  | rollback {fault : Fault} : Transacts t result (.error fault) t

/-- The answers of the environment. -/
def answer (t : Tables) : (e : Effect) → Except Fault e.Reply → Tables → Prop
  | .select actionId, .ok row, t' => row = t.actions actionId ∧ t' = t
  | .insert record actor reason, reply, t' => Transacts t (t.insert record actor reason) reply t'
  | .update before after actor reason, reply, t' =>
    Transacts t (t.update before after actor reason) reply t'
  | _, _, t' => t' = t

/-- The environment of the workers. -/
def Environment : Machine Worker Tables := ⟨answer⟩

/-! ### The methods of the store -/

/-- The states each state may lead to. -/
def TRANSITIONS : ActionState → List ActionState
  | .proposed => [.approved]
  | .approved => [.executing]
  | .executing => [.succeeded, .failed, .unknown]
  | .succeeded => []
  | .failed => []
  | .unknown => []

namespace ActionStore

/-- `get`: a missing or foreign row is no action. -/
def get (actionId : String) : Program Worker ActionRecord := do
  match ← ask (.select actionId) with
  | none => throw (.key actionId)
  | some record =>
    raiseIf (record.actionId.val ≠ actionId) (.value "action row identity mismatch")
    return record

/-- `create`: an exact duplicate is idempotent for the same proposer only. -/
def create (record : ActionRecord) : Program Worker ActionRecord := do
  raiseIf (record.state ≠ .proposed ∨ record.revision ≠ 0) (.value "new action must be proposed")
  try
    ask (.insert record record.proposer.val "POLICY_REVIEWED")
    pure record
  catch
    | .duplicate =>
      let previous ← get record.actionId.val
      raiseIf (previous.proposer ≠ record.proposer ∨ previous.proposal ≠ record.proposal)
        (.permission "proposal belongs to another identity")
      pure previous
    | fault => throw fault

/-- The record `transition` writes. -/
def after (before : ActionRecord) (state : ActionState) (now : Time) (approval : Option Approval)
    (result : Option EffectReceipt) : ActionFields :=
  { before.toActionFields with
    state, revision := before.revision + 1, updatedAt := now
    approval := approval.or before.approval, result }

/-- `transition`: compare the whole old record, so that only one claimant can win. -/
def transition (before : ActionRecord) (state : ActionState) (actor reason : String)
    (approval : Option Approval := none) (result : Option EffectReceipt := none) :
    Program Worker ActionRecord := do
  raiseIf (state ∉ TRANSITIONS before.state) (.conflict "invalid action transition")
  let now ← ask .utcNow
  match (after before state now approval result).validate with
  | .error message => throw (.value message)
  | .ok after =>
    ask (.update before after actor reason)
    pure after

end ActionStore

/-! ### Calls that raise -/

/-- However the environment gives this answer, the tables stay as they are. -/
def Quiet (ev : Event Worker) : Prop := ∀ t t', answer t ev.effect ev.reply t' → t' = t

/-- A fault leaves the tables as they are. -/
theorem quiet_error (e : Effect) (fault : Fault) : Quiet ⟨e, .error fault⟩ := by
  intro t t' h
  cases e with
  | insert record actor reason => cases h; rfl
  | update before after actor reason => cases h; rfl
  | _ => exact h

theorem quiet_select (actionId : String) (r : Except Fault (Option ActionRecord)) :
    Quiet ⟨.select actionId, r⟩ := by
  cases r with
  | error fault => exact quiet_error _ fault
  | ok row => exact fun _ _ h => h.2

namespace ActionStore

variable {h : History Worker} {fault : Fault}

theorem get_quiet {actionId : String} {r : Except Fault ActionRecord}
    (hr : Runs (get actionId) h r) : ∀ ev ∈ h, Quiet ev := by
  have hask : Within (fun e => e = Effect.select actionId) (ask (.select actionId)) :=
    within_perform.mpr rfl
  have hget : Within (fun e => e = Effect.select actionId) (get actionId) := by
    refine hask.bind fun row => ?_
    cases row with
    | none => trivial
    | some record => exact within_raiseIf.bind fun _ => trivial
  rintro ⟨e, r⟩ hev
  obtain rfl : e = .select actionId := (hget.path hr).1 _ hev
  exact quiet_select actionId r

/-- **A `create` that raises leaves both tables as they were.** -/
theorem create_raises {record : ActionRecord} (hr : Runs (create record) h (.error fault)) :
    ∀ ev ∈ h, Quiet ev := by
  rcases runs_raiseIf_bind.mp hr with ⟨-, rfl, -⟩ | ⟨-, htry⟩
  · simp
  rcases runs_tryCatch htry with ⟨a, hok, -⟩ | ⟨x, h₁, h₂, rfl, hbody, hhandler⟩
  · cases hok
  have hquiet₁ : ∀ ev ∈ h₁, Quiet ev := by
    rcases runs_perform_bind.mp hbody with ⟨y, rfl, -⟩ | ⟨_, _, -, hdone⟩
    · simpa using quiet_error _ y
    · cases (runs_done.mp hdone).2
  have hquiet₂ : ∀ ev ∈ h₂, Quiet ev := by
    split at hhandler
    · rcases runs_bind.mp hhandler with ⟨y, -, hget⟩ | ⟨previous, g₁, g₂, rfl, hget, hrest⟩
      · exact get_quiet hget
      · rcases runs_raiseIf_bind.mp hrest with ⟨-, rfl, -⟩ | ⟨-, hdone⟩
        · simpa using get_quiet hget
        · cases (runs_done.mp hdone).2
    · obtain ⟨rfl, -⟩ := runs_fail.mp hhandler
      simp
  intro ev hev
  exact (List.mem_append.mp hev).elim (hquiet₁ ev) (hquiet₂ ev)

/-- **A `transition` that raises leaves both tables as they were.** -/
theorem transition_raises {before : ActionRecord} {state : ActionState} {actor reason : String}
    {approval : Option Approval} {result : Option EffectReceipt}
    (hr : Runs (transition before state actor reason approval result) h (.error fault)) :
    ∀ ev ∈ h, Quiet ev := by
  rcases runs_raiseIf_bind.mp hr with ⟨-, rfl, -⟩ | ⟨-, hr⟩
  · simp
  rcases runs_perform_bind.mp hr with ⟨x, rfl, -⟩ | ⟨now, h', rfl, hrest⟩
  · simpa using quiet_error _ x
  have hnow : Quiet ⟨Effect.utcNow, .ok now⟩ := fun _ _ h => h
  have hquiet : ∀ ev ∈ h', Quiet ev := by
    split at hrest
    · obtain ⟨rfl, -⟩ := runs_fail.mp hrest
      simp
    · rcases runs_perform_bind.mp hrest with ⟨x, rfl, -⟩ | ⟨_, _, -, hdone⟩
      · simpa using quiet_error _ x
      · cases (runs_done.mp hdone).2
  simpa using ⟨hnow, hquiet⟩

end ActionStore

end PayOps.Remediation
