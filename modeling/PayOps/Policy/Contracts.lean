import PayOps.Contracts

/-!
# Actions, principals and resources

The closed action schemas of `payops.policy.contracts`, with the validation that turns an
untrusted mapping into an action and the dump that turns an action into a mapping again.

## What is proved

* `Action.validate_dump` — **round trip**: an action's dump validates to that action.
-/

namespace PayOps.Policy

/-- What a principal may do. -/
inductive Role where
  /-- `viewer`. -/
  | viewer
  /-- `responder`. -/
  | responder
  /-- `approver`. -/
  | approver
  /-- `executor`. -/
  | executor
  deriving DecidableEq

/-- Where operations take place. -/
inductive OperationMode where
  /-- `local_kind`. -/
  | localKind
  /-- `cloud_gke`. -/
  | cloudGke
  /-- `fixture_replay`. -/
  | fixtureReplay
  deriving DecidableEq

namespace OperationMode

/-- The literal of a mode. -/
def literal : OperationMode → String
  | localKind => "local_kind"
  | cloudGke => "cloud_gke"
  | fixtureReplay => "fixture_replay"

/-- The mode of a literal. -/
def ofLiteral : String → Option OperationMode
  | "local_kind" => some localKind
  | "cloud_gke" => some cloudGke
  | "fixture_replay" => some fixtureReplay
  | _ => none

@[simp] theorem ofLiteral_literal (m : OperationMode) : ofLiteral m.literal = some m := by
  cases m <;> rfl

/-- The mode as a report has it. -/
def report : OperationMode → ReportMode
  | localKind => .localKind
  | cloudGke => .cloudGke
  | fixtureReplay => .fixtureReplay

end OperationMode

variable [Platform]

/-- An authenticated identity, as the identity provider reports it. -/
structure Principal where
  /-- Who it is. -/
  subject : Identifier
  /-- What it may do. -/
  roles : List Role
  /-- Where it may do it. -/
  nameSpaces : List Identifier
  /-- When it was last verified. -/
  verifiedAt : Time
  /-- When it expires. -/
  expiresAt : Time
  /-- A disabled identity may do nothing. -/
  enabled : Bool := true
  /-- `Field(min_length=1, max_length=4)`. -/
  roles_bounded : 1 ≤ roles.length ∧ roles.length ≤ 4
  /-- `Field(min_length=1, max_length=8)`. -/
  nameSpaces_bounded : 1 ≤ nameSpaces.length ∧ nameSpaces.length ≤ 8

/-- What a resource is. -/
inductive ResourceKind where
  /-- `Deployment`. -/
  | deployment
  /-- `Traffic`. -/
  | traffic
  deriving DecidableEq

/-- The current state of the resource an action is about. -/
structure ResourceSnapshot where
  /-- Its namespace. -/
  nameSpace : Identifier
  /-- Its service. -/
  service : Identifier
  /-- Its identity. -/
  uid : Identifier
  /-- Its version. -/
  version : Identifier
  /-- When it was read. -/
  observedAt : Time
  /-- What it is. -/
  kind : ResourceKind := .deployment
  /-- Only synthetic resources may be changed. -/
  synthetic : Bool := true
  /-- The revisions a rollback may name. -/
  approvedRevisions : List Digest := []
  /-- Where it is. -/
  mode : OperationMode := .localKind

/-- What an action does, with its own parameters. -/
inductive Effect where
  /-- `restart_deployment`. -/
  | restart
  /-- `scale_deployment`, to between one and three replicas. -/
  | scale (replicas : ℤ) (bounded : 1 ≤ replicas ∧ replicas ≤ 3)
  /-- `rollback_deployment`. -/
  | rollback (revisionSha256 : Digest)
  /-- `pause_synthetic_traffic`. -/
  | pause
  deriving DecidableEq

/-- An action: the fields of `ActionBase` and what it does. -/
structure Action where
  /-- The incident that justifies it. -/
  incidentId : Identifier
  /-- The namespace of its target. -/
  nameSpace : Identifier
  /-- The service that is its target. -/
  service : Identifier
  /-- The identity of its target. -/
  resourceUid : Identifier
  /-- The version its target must have. -/
  expectedVersion : Identifier
  /-- The evidence that justifies it. -/
  evidenceIds : List Identifier
  /-- Where it takes place. -/
  mode : OperationMode
  /-- What it does. -/
  effect : Effect
  /-- `Field(min_length=1, max_length=8)`. -/
  evidence_bounded : 1 ≤ evidenceIds.length ∧ evidenceIds.length ≤ 8
  /-- `distinct_evidence`. -/
  evidence_nodup : evidenceIds.Nodup
  deriving DecidableEq

namespace Effect

/-- The discriminator. -/
def actionType : Effect → String
  | restart => "restart_deployment"
  | scale .. => "scale_deployment"
  | rollback _ => "rollback_deployment"
  | pause => "pause_synthetic_traffic"

/-- The fields of the effect, after those of the base. -/
def dump : Effect → JsonObject
  | restart => []
  | scale replicas _ => [("replicas", .int replicas)]
  | rollback revision => [("revision_sha256", .str revision.val)]
  | pause => []

/-- The names of the fields an action of this type has beyond those of the base. -/
def fieldNames : String → List String
  | "scale_deployment" => ["action_type", "replicas"]
  | "rollback_deployment" => ["action_type", "revision_sha256"]
  | _ => ["action_type"]

/-- The effect a mapping asks for; integers are strict. -/
def validate (value : JsonObject) : Option Effect := do
  match ← (← Json.field value "action_type").asStr with
  | "restart_deployment" => some restart
  | "scale_deployment" =>
    let replicas ← (← Json.field value "replicas").asInt
    if h : 1 ≤ replicas ∧ replicas ≤ 3 then some (scale replicas h) else none
  | "rollback_deployment" =>
    some (rollback (← Digest.validate (← (← Json.field value "revision_sha256").asStr)))
  | "pause_synthetic_traffic" => some pause
  | _ => none

end Effect

namespace Action

/-- The names of the fields of `ActionBase`. -/
def baseNames : List String :=
  ["incident_id", "namespace", "service", "resource_uid", "expected_version", "evidence_ids", "mode"]

/-- `model_dump(mode="json")`. -/
def dump (a : Action) : JsonObject :=
  [("incident_id", .str a.incidentId.val), ("namespace", .str a.nameSpace.val),
    ("service", .str a.service.val), ("resource_uid", .str a.resourceUid.val),
    ("expected_version", .str a.expectedVersion.val),
    ("evidence_ids", .arr (a.evidenceIds.map fun i => .str i.val)), ("mode", .str a.mode.literal),
    ("action_type", .str a.effect.actionType)] ++ a.effect.dump

/-- A field that is an identifier. -/
def identifierField (value : JsonObject) (key : String) : Option Identifier := do
  Identifier.validate (← (← Json.field value key).asStr)

/-- The field `mode`, which has a default. -/
def modeField (value : JsonObject) : Option OperationMode :=
  match Json.field value "mode" with
  | none => some .localKind
  | some v => v.asStr.bind OperationMode.ofLiteral

/-- `ACTION.validate_python(value)`: the effect is chosen by its discriminator, and no field may
be missing, malformed or unknown. -/
def validate (value : JsonObject) : Option Action := do
  let effect ← Effect.validate value
  let incidentId ← identifierField value "incident_id"
  let nameSpace ← identifierField value "namespace"
  let service ← identifierField value "service"
  let resourceUid ← identifierField value "resource_uid"
  let expectedVersion ← identifierField value "expected_version"
  let cited ← (← Json.field value "evidence_ids").asArr
  let evidenceIds ← cited.mapM fun v => v.asStr.bind Identifier.validate
  let mode ← modeField value
  if ¬value.all (fun f => f.1 ∈ baseNames ++ Effect.fieldNames effect.actionType) then none
  else if hb : 1 ≤ evidenceIds.length ∧ evidenceIds.length ≤ 8 then
    if hn : evidenceIds.Nodup then
      some ⟨incidentId, nameSpace, service, resourceUid, expectedVersion, evidenceIds, mode, effect,
        hb, hn⟩
    else none
  else none

/-! ### Round trip -/

theorem mapM_identifiers (ids : List Identifier) :
    (ids.map fun i => Json.str i.val).mapM (fun v => v.asStr.bind Identifier.validate) = some ids := by
  induction ids with
  | nil => rfl
  | cons i ids ih =>
    rw [List.map_cons, List.mapM_cons, ih]
    simp [Json.asStr]

theorem identifierField_eq {value : JsonObject} (key : String) {i : Identifier}
    (h : Json.field value key = some (.str i.val)) : identifierField value key = some i := by
  simp [identifierField, h, Json.asStr]

theorem validate_effect_dump (a : Action) : Effect.validate a.dump = some a.effect := by
  have htype : Json.field a.dump "action_type" = some (.str a.effect.actionType) := rfl
  have hown : ∀ f ∈ a.effect.dump, Json.field a.dump f.1 = some f.2 := by
    obtain ⟨_, _, _, _, _, _, _, effect, _, _⟩ := a
    cases effect <;> simp [Effect.dump] <;> rfl
  cases h : a.effect with
  | restart => simp [Effect.validate, htype, h, Effect.actionType, Json.asStr]
  | scale replicas hr =>
    have hfield := hown ("replicas", .int replicas) (by simp [h, Effect.dump])
    simp [Effect.validate, htype, h, hfield, Effect.actionType, Json.asStr, Json.asInt, hr]
  | rollback revision =>
    have hfield := hown ("revision_sha256", .str revision.val) (by simp [h, Effect.dump])
    simp [Effect.validate, htype, h, hfield, Effect.actionType, Json.asStr]
  | pause => simp [Effect.validate, htype, h, Effect.actionType, Json.asStr]

/-- **Round trip**: an action's dump validates to that action. -/
theorem validate_dump (a : Action) : validate a.dump = some a := by
  have hall : a.dump.all (fun f => f.1 ∈ baseNames ++ Effect.fieldNames a.effect.actionType) := by
    obtain ⟨_, _, _, _, _, _, _, effect, _, _⟩ := a
    cases effect <;> rfl
  have hids : Json.field a.dump "evidence_ids" =
      some (.arr (a.evidenceIds.map fun i => .str i.val)) := rfl
  have hmode : modeField a.dump = some a.mode := by
    have h : Json.field a.dump "mode" = some (.str a.mode.literal) := rfl
    simp only [modeField, h, Json.asStr, Option.bind_some, OperationMode.ofLiteral_literal]
  have h₁ := identifierField_eq (i := a.incidentId) "incident_id" (show Json.field a.dump _ = _ from rfl)
  have h₂ := identifierField_eq (i := a.nameSpace) "namespace" (show Json.field a.dump _ = _ from rfl)
  have h₃ := identifierField_eq (i := a.service) "service" (show Json.field a.dump _ = _ from rfl)
  have h₄ := identifierField_eq (i := a.resourceUid) "resource_uid" (show Json.field a.dump _ = _ from rfl)
  have h₅ := identifierField_eq (i := a.expectedVersion) "expected_version"
    (show Json.field a.dump _ = _ from rfl)
  simp only [validate, validate_effect_dump, Option.bind_eq_bind, Option.bind_some, hids, hmode,
    h₁, h₂, h₃, h₄, h₅, Json.asArr, mapM_identifiers, hall, not_true_eq_false, if_false, a.evidence_bounded,
    a.evidence_nodup, and_self, dite_true]

end Action

end PayOps.Policy
