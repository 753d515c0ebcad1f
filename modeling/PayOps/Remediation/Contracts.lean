import PayOps.Policy.Engine

/-!
# Action records and audit events

The records of `payops.remediation.contracts`. A record of an action carries its validator
`ActionRecord.consistent`, so that neither a corrupt approval nor a relabelled effect can be
built.

## What is proved

* `ActionRecord.approval_bound`, `ActionRecord.approval_lifetime`, `ActionRecord.receipt_bound` —
  what the validator guarantees of every record.
-/

namespace PayOps.Remediation

open Policy

/-- The states of an action. -/
inductive ActionState where
  /-- `PROPOSED`. -/
  | proposed
  /-- `APPROVED`. -/
  | approved
  /-- `EXECUTING`. -/
  | executing
  /-- `SUCCEEDED`. -/
  | succeeded
  /-- `FAILED`. -/
  | failed
  /-- `UNKNOWN`. -/
  | unknown
  deriving DecidableEq

/-- The outcomes an executor may report. -/
inductive Outcome where
  /-- `SUCCEEDED`. -/
  | succeeded
  /-- `FAILED`. -/
  | failed
  deriving DecidableEq

/-- An outcome as the state it leads to. -/
def Outcome.state : Outcome → ActionState
  | succeeded => .succeeded
  | failed => .failed

variable [Platform]

/-- What a second person approved, and until when. -/
structure Approval where
  /-- Who approved. -/
  subject : Identifier
  /-- What was approved. -/
  actionDigest : Digest
  /-- When it was approved. -/
  approvedAt : Time
  /-- When the approval ends. -/
  expiresAt : Time
  deriving DecidableEq

/-- What an executor reports of an effect. -/
structure EffectReceipt where
  /-- How it came out. -/
  outcome : Outcome
  /-- The resource it was applied to. -/
  resourceUid : Identifier
  /-- The version the resource had before. -/
  previousVersion : Identifier
  /-- The version it has now. -/
  resultingVersion : Option Identifier := none
  deriving DecidableEq

/-- The receipt is of the resource and the version the action asked for. -/
def EffectReceipt.matches (result : EffectReceipt) (proposal : Action) : Prop :=
  result.resourceUid = proposal.resourceUid ∧ result.previousVersion = proposal.expectedVersion

instance (result : EffectReceipt) (proposal : Action) : Decidable (result.matches proposal) :=
  inferInstanceAs (Decidable (_ ∧ _))

/-- The fields of an action record, before its validator has seen them. -/
structure ActionFields where
  /-- The digest of the proposal. -/
  actionId : Digest
  /-- What is proposed. -/
  proposal : Action
  /-- Who proposed it. -/
  proposer : Identifier
  /-- How far it has come. -/
  state : ActionState := .proposed
  /-- How many times it has changed. -/
  revision : ℕ := 0
  /-- When it was proposed. -/
  createdAt : Time
  /-- When it last changed. -/
  updatedAt : Time
  /-- The approval, once there is one. -/
  approval : Option Approval := none
  /-- The receipt, once there is one. -/
  result : Option EffectReceipt := none
  deriving DecidableEq

namespace ActionFields

/-- What `_validate_approval` raises, if it raises. -/
def approvalFailure (r : ActionFields) (approval : Approval) : Option String :=
  if approval.subject = r.proposer ∨ approval.actionDigest ≠ r.actionId then
    some "approval identity/digest mismatch"
  else if ¬(0 < approval.expiresAt - approval.approvedAt ∧
      approval.expiresAt - approval.approvedAt ≤ seconds 300) then
    some "approval lifetime outside bounds"
  else none

/-- What the check of the result raises, if it raises. -/
def resultFailure (r : ActionFields) : Option String :=
  if r.state = .succeeded ∨ r.state = .failed then
    match r.result with
    | none => some "result/state mismatch"
    | some result =>
      if result.outcome.state ≠ r.state then some "result/state mismatch"
      else if ¬result.matches r.proposal then some "result precondition mismatch"
      else none
  else if r.result.isSome then some "unexpected effect result"
  else none

/-- What `ActionRecord.consistent` raises, if it raises. -/
def failure (r : ActionFields) : Option String :=
  if r.actionId.val ≠ actionDigest r.proposal then some "action digest mismatch"
  else if ¬(r.state = .proposed ↔ r.approval = none) then some "approval/state mismatch"
  else (r.approval.bind r.approvalFailure).or r.resultFailure

end ActionFields

/-- A record of an action. -/
structure ActionRecord extends ActionFields where
  /-- `consistent`. -/
  consistent : toActionFields.failure = none
  deriving DecidableEq

/-- Validation of the fields of a record. -/
def ActionFields.validate (r : ActionFields) : Except String ActionRecord :=
  match h : r.failure with
  | none => .ok ⟨r, h⟩
  | some message => .error message

theorem ActionFields.validate_eq_ok {r : ActionFields} {record : ActionRecord} :
    r.validate = .ok record ↔ record.toActionFields = r := by
  constructor
  · intro h
    unfold ActionFields.validate at h
    split at h
    · cases h
      rfl
    · cases h
  · rintro rfl
    unfold ActionFields.validate
    split
    · rfl
    · rename_i h
      rw [record.consistent] at h
      cases h

/-! ### What every record satisfies -/

namespace ActionRecord

variable (r : ActionRecord)

/-- The validator, check by check. -/
theorem checks : r.actionId.val = actionDigest r.proposal ∧ (r.state = .proposed ↔ r.approval = none) ∧
    r.approval.bind r.approvalFailure = none ∧ r.resultFailure = none := by
  have h := r.consistent
  unfold ActionFields.failure at h
  split_ifs at h with h₁ h₂
  obtain ⟨h₃, h₄⟩ := Option.or_eq_none_iff.mp h
  exact ⟨not_not.mp h₁, h₂, h₃, h₄⟩

/-- A record is stored under the digest of its proposal. -/
theorem actionId_eq : r.actionId.val = actionDigest r.proposal := r.checks.1

variable {r} in
theorem approval_checks {a : Approval} (h : r.approval = some a) : r.approvalFailure a = none := by
  have := r.checks.2.2.1
  rwa [h] at this

variable {r} in
/-- **An approval binds the record's digest, and its subject is not the proposer.** -/
theorem approval_bound {a : Approval} (h : r.approval = some a) :
    a.subject ≠ r.proposer ∧ a.actionDigest = r.actionId := by
  have hc := approval_checks h
  unfold ActionFields.approvalFailure at hc
  split_ifs at hc with h₁
  push Not at h₁
  exact h₁

variable {r} in
/-- An approval lasts at most five minutes. -/
theorem approval_lifetime {a : Approval} (h : r.approval = some a) :
    a.approvedAt < a.expiresAt ∧ a.expiresAt ≤ a.approvedAt + seconds 300 := by
  have hc := approval_checks h
  unfold ActionFields.approvalFailure at hc
  split_ifs at hc with h₁ h₂
  exact ⟨sub_pos.mp h₂.1, sub_le_iff_le_add'.mp h₂.2⟩

variable {r} in
/-- **A receipt is of the resource and the version the action asked for.** -/
theorem receipt_bound {result : EffectReceipt} (h : r.result = some result) :
    result.outcome.state = r.state ∧ result.matches r.proposal := by
  have hc := r.checks.2.2.2
  unfold ActionFields.resultFailure at hc
  rw [h] at hc
  split_ifs at hc with h₁ h₂
  · simp only at hc
    split_ifs at hc with h₂ h₃
    exact ⟨not_not.mp h₂, h₃⟩
  · exact absurd rfl h₂

end ActionRecord

/-- One state transition, as the audit keeps it. -/
structure AuditEvent where
  /-- The action. -/
  actionId : Digest
  /-- The revision the transition led to. -/
  revision : ℕ
  /-- The state it led to. -/
  state : ActionState
  /-- Who caused it. -/
  actor : Identifier
  /-- Why. -/
  reason : Identifier
  /-- When. -/
  recordedAt : Time
  deriving DecidableEq

end PayOps.Remediation
