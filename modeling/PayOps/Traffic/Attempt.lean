import PayOps.JsonPatch
import PayOps.Sandbox.SampleStore
import PayOps.Traffic.Control

/-!
# Attempts of synthetic traffic

The plan, the records and the receipts of `payops.scenarios.traffic`, and what `_response` makes of an answer.

## The model

Bytes are parsed by two parsers, of which nothing is assumed: `json.loads`, and pydantic's. The result of a simulation
is validated field by field. A latency is the difference of two readings of the performance counter.

## What is proved

* `classify_result` — what an accepted or declined outcome says of the response.
* `Workload.plan_index` — the attempts of a plan are numbered in order.

## Honest scope

The times of a workload, its seed and the metadata of a plan are left out: the clock decides by itself when a request or
a batch is out of time, and the slices of a plan come in any order.
-/

namespace PayOps.Traffic.Batch

open Sandbox (Role Processor Region Method Sample SampleId SimulationResult)
open Json (field)

/-- Bytes. -/
abbrev Bytes := List UInt8

/-- The parsers of a response. -/
class Parsing where
  /-- `json.loads(body)`; none where it raises. -/
  loads : Bytes → Option Json
  /-- `TypeAdapter(dict[str, JsonValue]).validate_json(body)`. -/
  validateObject : Bytes → Option JsonObject

/-! ### The plan -/

/-- `SliceCount`. -/
structure SliceCount where
  /-- `processor`. -/
  processor : Processor
  /-- `region`. -/
  region : Region
  /-- `payment_method`. -/
  paymentMethod : Method
  /-- `count`. -/
  count : ℕ
  /-- `Field(ge=1, le=512)`. -/
  bounded : 1 ≤ count ∧ count ≤ 512

/-- `Workload`. -/
structure Workload where
  /-- `role`. -/
  role : TrafficRole
  /-- `distribution`. -/
  distribution : List SliceCount
  /-- `concurrency`. -/
  concurrency : ℕ
  /-- `Field(ge=1, le=16)`. -/
  limited : 1 ≤ concurrency ∧ concurrency ≤ 16
  /-- `Field(min_length=1, max_length=8)`. -/
  sliced : 1 ≤ distribution.length ∧ distribution.length ≤ 8
  /-- `bounded_distribution`. -/
  bounded : (distribution.map fun item => (item.processor, item.region, item.paymentMethod)).Nodup ∧
    (distribution.map SliceCount.count).sum ≤ 512

/-- `PlannedAttempt.step`. -/
inductive PlanStep where
  /-- `sample`. -/
  | sample
  /-- `original`. -/
  | original
  /-- `identical_duplicate`. -/
  | identicalDuplicate
  /-- `conflict`. -/
  | conflict
  deriving DecidableEq

/-- `PlannedAttempt`. -/
structure PlannedAttempt where
  /-- `index`. -/
  index : ℕ
  /-- `sample`. -/
  sample : Sample
  /-- `traceparent`. -/
  traceparent : String
  /-- `step`. -/
  step : PlanStep
  deriving DecidableEq

/-- The slices of a workload, each as often as it counts. -/
def Workload.slices (workload : Workload) : List SliceCount :=
  workload.distribution.flatMap fun item => List.replicate item.count item

/-- `_plan`: the slices as they were shuffled, with the id of each sample and its trace. -/
def Workload.plan (shuffled : List SliceCount) (sampleId : ℕ → SampleId) (traceparent : ℕ → String) :
    List PlannedAttempt :=
  shuffled.zipIdx.map fun (item, index) =>
    ⟨index, ⟨sampleId index, item.processor, item.region, item.paymentMethod⟩, traceparent index, .sample⟩

/-- The plan of `run_idempotency_probe`. -/
def probePlan (sampleId : SampleId) (traceparent : ℕ → String) : List PlannedAttempt :=
  let sample : Sample := ⟨sampleId, .A, .us, .credit⟩
  [⟨0, sample, traceparent 0, .original⟩, ⟨1, sample, traceparent 1, .identicalDuplicate⟩,
    ⟨2, { sample with processor := .B }, traceparent 2, .conflict⟩]

/-- **The attempts of a plan** are numbered in order. -/
theorem Workload.plan_index (shuffled : List SliceCount) (sampleId : ℕ → SampleId) (traceparent : ℕ → String) :
    (plan shuffled sampleId traceparent).map PlannedAttempt.index = List.range shuffled.length := by
  rw [plan, List.map_map]
  show shuffled.zipIdx.map Prod.snd = _
  rw [List.zipIdx_map_snd, List.range_eq_range']

/-! ### Records -/

/-- `AttemptRecord`. -/
structure AttemptRecord where
  /-- `planned`. -/
  planned : PlannedAttempt
  /-- `started_at`. -/
  startedAt : Option Time
  /-- `completed_at`. -/
  completedAt : Time
  /-- `latency_seconds`. -/
  latencySeconds : Option ℚ
  /-- `outcome`. -/
  outcome : AttemptOutcome
  /-- `http_status`. -/
  httpStatus : Option ℕ
  /-- `error_type`. -/
  errorType : Option String
  /-- `result`. -/
  result : Option SimulationResult
  /-- `idempotency_conflict`. -/
  idempotencyConflict : Bool
  deriving DecidableEq

/-- `TrafficReceipt.status`. -/
inductive BatchStatus where
  /-- `completed`. -/
  | completed
  /-- `deadline_exceeded`. -/
  | deadlineExceeded
  /-- `cancelled`. -/
  | cancelled
  /-- `failed`. -/
  | failed
  deriving DecidableEq

/-- `TrafficReceipt`. -/
structure TrafficReceipt where
  /-- `run_id`. -/
  runId : String
  /-- `mode == "fixture_replay"`. -/
  fixtureReplay : Bool
  /-- `role`. -/
  role : TrafficRole
  /-- `started_at`. -/
  startedAt : Time
  /-- `completed_at`. -/
  completedAt : Time
  /-- `status`. -/
  status : BatchStatus
  /-- `failure`. -/
  failure : Option String
  /-- `attempts`. -/
  attempts : List AttemptRecord
  /-- `probe_verified`. -/
  probeVerified : Option Bool
  deriving DecidableEq

/-! ### Responses -/

/-- A role of traffic, as a role of the sandbox. -/
def sandboxRole : TrafficRole → Role
  | .payments => .payments
  | .webhook => .webhook

/-- `Role`, of its text. -/
def roleOf : String → Option Role
  | "payments" => some .payments
  | "risk" => some .risk
  | "ledger" => some .ledger
  | "processor" => some .processor
  | "webhook" => some .webhook
  | _ => none

/-- `SimulationResult.model_validate_json`, of a parsed mapping: no other fields, and no conversions. -/
def validateResult (fields : JsonObject) : Option SimulationResult :=
  if (fields.all fun f => f.1 ∈ ["sample_id", "role", "status", "synthetic"]) = false then none
  else match field fields "sample_id", field fields "role", field fields "status", field fields "synthetic" with
  | some (.str sampleId), some (.str role), some (.str status), synthetic =>
    if synthetic ≠ none ∧ synthetic ≠ some (.bool true) then none
    else if status = "accepted" ∨ status = "declined" then
      (roleOf role).map fun role => ⟨sampleId, role, status = "accepted"⟩
    else none
  | _, _, _, _ => none

/-- What `_response` returns. -/
structure Answer where
  /-- The outcome. -/
  outcome : AttemptOutcome
  /-- The status. -/
  status : ℕ
  /-- The result. -/
  result : Option SimulationResult
  /-- The conflict of the idempotency probe. -/
  conflict : Bool
  deriving DecidableEq

section Responses

variable [Parsing]

/-- `SimulationResult.model_validate_json(body)`. -/
def modelValidateJson (body : Bytes) : Option SimulationResult := (Parsing.validateObject body).bind validateResult

/-- `json.loads(body) == {"detail": "synthetic idempotency conflict"}`. -/
def conflictDetail (body : Bytes) : Bool :=
  match Parsing.loads body with
  | some (.obj [("detail", .str detail)]) => detail == "synthetic idempotency conflict"
  | _ => false

/-- `_classify`. -/
def classify (body : Bytes) (status : ℕ) (sample : Sample) (role : TrafficRole) : Answer :=
  if status ≠ 200 then ⟨.httpError, status, none, status == 409 && conflictDetail body⟩
  else match Parsing.validateObject body with
  | none => ⟨.invalidResponse, status, none, false⟩
  | some decoded =>
    if field decoded "synthetic" ≠ some (.bool true) then ⟨.invalidResponse, status, none, false⟩
    else match modelValidateJson body with
    | none => ⟨.invalidResponse, status, none, false⟩
    | some result =>
      if result.sampleId ≠ sample.sampleId.val ∨ result.role ≠ sandboxRole role then
        ⟨.invalidResponse, status, none, false⟩
      else ⟨if result.accepted then .accepted else .declined, status, some result, false⟩

/-- The loop of `_response`: the body, unless it is too long. -/
def readBody : Bytes → List Bytes → Option Bytes
  | body, [] => some body
  | body, chunk :: chunks => if 8192 < (body ++ chunk).length then none else readBody (body ++ chunk) chunks

/-- `_response`, of what is streamed. -/
def response (chunks : List Bytes) (status : ℕ) (sample : Sample) (role : TrafficRole) : Answer :=
  match readBody [] chunks with
  | none => ⟨.invalidResponse, status, none, false⟩
  | some body => classify body status sample role

/-- The outcome that a result is. -/
def outcomeOf (result : SimulationResult) : AttemptOutcome := if result.accepted then .accepted else .declined

/-- **An accepted or declined outcome** is that of the validated result of the sample and the role. -/
theorem classify_result {body : Bytes} {status : ℕ} {sample : Sample} {role : TrafficRole}
    (h : (classify body status sample role).outcome = .accepted ∨
      (classify body status sample role).outcome = .declined) :
    status = 200 ∧ ∃ result, modelValidateJson body = some result ∧ result.sampleId = sample.sampleId.val ∧
      result.role = sandboxRole role ∧ classify body status sample role = ⟨outcomeOf result, 200, some result, false⟩ := by
  by_cases hstatus : status = 200
  · subst hstatus
    refine ⟨rfl, ?_⟩
    rw [classify, if_neg (by simp)] at h ⊢
    cases hobject : Parsing.validateObject body with
    | none => simp [hobject] at h
    | some decoded =>
      rw [hobject] at h
      simp only at h ⊢
      split_ifs at h ⊢ with hsynthetic
      · simp at h
      · cases hresult : modelValidateJson body with
        | none => simp [hresult] at h
        | some result =>
          rw [hresult] at h
          simp only at h ⊢
          split_ifs at h ⊢ with hother
          · simp at h
          all_goals
            simp only [not_or, not_not] at hother
            exact ⟨result, rfl, hother.1, hother.2, by simp [outcomeOf, *]⟩
  · rw [classify, if_pos hstatus] at h
    simp at h

/-- The same of what is streamed. -/
theorem response_result {chunks : List Bytes} {status : ℕ} {sample : Sample} {role : TrafficRole}
    (h : (response chunks status sample role).outcome = .accepted ∨
      (response chunks status sample role).outcome = .declined) :
    status = 200 ∧ ∃ body result, readBody [] chunks = some body ∧ modelValidateJson body = some result ∧
      result.sampleId = sample.sampleId.val ∧ result.role = sandboxRole role ∧
      response chunks status sample role = ⟨outcomeOf result, 200, some result, false⟩ := by
  unfold response at h ⊢
  cases hbody : readBody [] chunks with
  | none => simp [hbody] at h
  | some body =>
    rw [hbody] at h
    obtain ⟨hstatus, result, hvalid, hid, hrole, hanswer⟩ := classify_result h
    exact ⟨hstatus, body, result, rfl, hvalid, hid, hrole, hanswer⟩

end Responses

end PayOps.Traffic.Batch
