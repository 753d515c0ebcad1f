import PayOps.Evidence.PaymentWindow
import PayOps.Evidence.Retained

/-!
# Trace logs and trace spans as evidence

`payops.evidence.trace_span`, from `TraceLog` on: the spans of a console log are published as one LOG record, and each
of them is derived from it as TRACE evidence.

## The model

The records are strict: an integer is read from an integer only. `deriveSpan` is `_derive`, and its ordinal is any
integer.
-/

namespace PayOps.Evidence.Trace

open Json (field asStr)
open FileStore (Bytes Hashing finiteFields)
open Orchestrator (Service)
open Payment (serviceOf strictTime nullable)

/-- `LOG_QUERY`. -/
def LOG_QUERY : String := "trace.console-log.v1"

/-- `TRACE_QUERY`. -/
def TRACE_QUERY : String := "trace.console-span.v1"

/-! ### Records -/

/-- `^[a-z0-9][a-z0-9.-]{0,126}$`. -/
def podNameOk (s : String) : Bool :=
  let label (c : Char) : Bool := c.isDigit || ('a' ≤ c && c ≤ 'z')
  match s.toList with
  | [] => false
  | c :: cs => label c && cs.length ≤ 126 && cs.all fun d => label d || d == '.' || d == '-'

/-- `PodIdentity`; its container is that of the sandbox. -/
structure PodIdentity [Platform] where
  /-- `pod_name`. -/
  podName : { s : String // podNameOk s = true }
  /-- `pod_uid`. -/
  podUid : Identifier
  /-- `deployment_uid`. -/
  deploymentUid : Identifier
  /-- `replica_set_uid`. -/
  replicaSetUid : Identifier
  /-- `container_id`. -/
  containerId : { s : String // 1 ≤ s.toList.length ∧ s.toList.length ≤ 200 }
  /-- `restart_count`. -/
  restartCount : ℕ
  /-- `Field(le=1000000)`. -/
  bounded : restartCount ≤ 1000000

section Model

variable [Platform]

/-- A span that a log may retain. -/
def retains (scope : TraceScope) (capturedEnd : Time) (record : CapturedSpan) : Bool :=
  (record.span.checkService scope.service).isOk && scope.contains record.span &&
    (record.span.endTime ≤ record.logStart && record.logStart ≤ record.logEnd && record.logEnd ≤ capturedEnd)

/-- `TraceLog`. -/
structure TraceLog where
  /-- `scope`. -/
  scope : TraceScope
  /-- `identity`. -/
  identity : PodIdentity
  /-- `captured_start`. -/
  capturedStart : Time
  /-- `captured_end`. -/
  capturedEnd : Time
  /-- `parsed`. -/
  parsed : ParsedLog
  /-- `consistent`. -/
  consistent : (capturedStart ≤ capturedEnd ∧ scope.finish ≤ capturedEnd) ∧
    ∀ record ∈ parsed.spans, retains scope capturedEnd record = true

/-- `^[0-9a-f]{n}$`. -/
def hexText (n : ℕ) (s : String) : Bool := s.toList.length == n && s.toList.all hexChar

/-- `identity[2:]`. -/
def bareId {n : ℕ} (s : { s : String // hexId n s = true }) : { s : String // hexText n s = true } :=
  ⟨String.ofList (s.val.toList.drop 2), by
    have h := s.property
    unfold hexId at h
    split at h
    · rename_i cs hcs
      simpa [hexText, hcs] using h
    · cases h⟩

/-- `TraceSpan`. -/
structure TraceSpan where
  /-- `scope`. -/
  scope : TraceScope
  /-- `source`. -/
  source : EvidenceItem
  /-- `ordinal`. -/
  ordinal : ℕ
  /-- `trace_id`. -/
  traceId : { s : String // hexText 32 s = true }
  /-- `span_id`. -/
  spanId : { s : String // hexText 16 s = true }
  /-- `parent_id`. -/
  parentId : Option { s : String // hexText 16 s = true }
  /-- `duration_microseconds`. -/
  durationMicroseconds : ℕ
  /-- `record`. -/
  record : CapturedSpan
  /-- `Field(lt=MAX_SPANS)`. -/
  bounded : ordinal < MAX_SPANS
  deriving DecidableEq

/-! ### Reading -/

section Reading

variable [Datetimes]

/-- A field that is a strict integer, and not negative. -/
def natField (fields : JsonObject) (key : String) : Option ℕ :=
  match field fields key with
  | some (.int n) => if 0 ≤ n then some n.toNat else none
  | _ => none

/-- A field that is a strict boolean. -/
def boolField (fields : JsonObject) (key : String) : Option Bool :=
  match field fields key with
  | some (.bool b) => some b
  | _ => none

/-- The text of a field, which must be one that passes. -/
def checkedField (ok : String → Prop) [DecidablePred ok] (fields : JsonObject) (key : String) :
    Option { s : String // ok s } :=
  (textField fields key).bind fun s => if h : ok s then some ⟨s, h⟩ else none

/-- Validation of a scope. -/
def TraceScope.validate : Json → Option TraceScope
  | .obj fields => do
    let incidentId ← identifierField fields "incident_id"
    let service ← (textField fields "service").bind serviceOf
    let start ← strictTime fields "start"
    let finish ← strictTime fields "end"
    if h : (0 < finish - start ∧ finish - start ≤ seconds 600) ∧
        (literalField fields "namespace" (.str "payops-sandbox") &&
          onlyFields fields ["incident_id", "namespace", "service", "start", "end"]) = true then
      some ⟨incidentId, service, start, finish, h.1⟩
    else none
  | _ => none

/-- Validation of the identity of a pod. -/
def PodIdentity.validate : Json → Option PodIdentity
  | .obj fields => do
    let podName ← checkedField (podNameOk · = true) fields "pod_name"
    let podUid ← identifierField fields "pod_uid"
    let deploymentUid ← identifierField fields "deployment_uid"
    let replicaSetUid ← identifierField fields "replica_set_uid"
    let containerId ← checkedField (fun s => 1 ≤ s.toList.length ∧ s.toList.length ≤ 200) fields "container_id"
    let restartCount ← natField fields "restart_count"
    if h : restartCount ≤ 1000000 ∧ (literalField fields "container" (.str "sandbox") &&
        onlyFields fields ["pod_name", "pod_uid", "deployment_uid", "replica_set_uid", "container", "container_id",
          "restart_count"]) = true then
      some ⟨podName, podUid, deploymentUid, replicaSetUid, containerId, restartCount, h.1⟩
    else none
  | _ => none

/-- The names of the fields of a span. -/
def spanNames : List String :=
  ["name", "trace_id", "span_id", "parent_id", "kind", "start_time", "end_time", "status_code", "service_name"]

/-- Validation of a span of a record, whose parent is not absent. -/
def SourceSpan.read : Json → Option SourceSpan
  | .obj fields =>
    if (field fields "parent_id").isSome && onlyFields fields spanNames then
      SourceSpan.validate (field fields "name") (field fields "trace_id") (field fields "span_id")
        (field fields "parent_id") (field fields "kind") (field fields "start_time") (field fields "end_time")
        (field fields "status_code") (field fields "service_name")
    else none
  | _ => none

/-- Validation of a captured span of a record. -/
def CapturedSpan.read : Json → Option CapturedSpan
  | .obj fields => do
    let span ← (field fields "span").bind SourceSpan.read
    let logStart ← strictTime fields "log_start"
    let logEnd ← strictTime fields "log_end"
    if onlyFields fields ["span", "log_start", "log_end"] then (CapturedSpan.validate span logStart logEnd).toOption
    else none
  | _ => none

/-- Validation of a parsed log. -/
def ParsedLog.validate : Json → Option ParsedLog
  | .obj fields => do
    let items ← (field fields "spans").bind Json.asArr
    let spans ← items.mapM CapturedSpan.read
    let rawBytes ← natField fields "raw_bytes"
    let lineCount ← natField fields "line_count"
    let partialCandidates ← natField fields "partial_candidates"
    let malformedCandidates ← natField fields "malformed_candidates"
    let excludedSpans ← natField fields "excluded_spans"
    let limitReached ← boolField fields "limit_reached"
    if h : (spans.length ≤ MAX_SPANS ∧ rawBytes ≤ MAX_LOG_BYTES ∧ lineCount ≤ MAX_LOG_LINES) ∧
        (literalField fields "sampling" (.str "bounded_sample") &&
          onlyFields fields ["spans", "raw_bytes", "line_count", "partial_candidates", "malformed_candidates",
            "excluded_spans", "limit_reached", "sampling"]) = true then
      some ⟨spans, rawBytes, lineCount, partialCandidates, malformedCandidates, excludedSpans, limitReached, h.1⟩
    else none
  | _ => none

/-- `TraceLog.model_validate_json`. -/
def TraceLog.validate (fields : JsonObject) : Option TraceLog := do
  let scope ← (field fields "scope").bind TraceScope.validate
  let identity ← (field fields "identity").bind PodIdentity.validate
  let capturedStart ← strictTime fields "captured_start"
  let capturedEnd ← strictTime fields "captured_end"
  let parsed ← (field fields "parsed").bind ParsedLog.validate
  if h : ((capturedStart ≤ capturedEnd ∧ scope.finish ≤ capturedEnd) ∧
      ∀ record ∈ parsed.spans, retains scope capturedEnd record = true) ∧
      (literalField fields "transformation" (.str "trace-console-log-v1") &&
        onlyFields fields ["transformation", "scope", "identity", "captured_start", "captured_end",
          "parsed"]) = true then
    some ⟨scope, identity, capturedStart, capturedEnd, parsed, h.1⟩
  else none

/-- The names of the fields of a trace span. -/
def traceNames : List String :=
  ["transformation", "diagnostic_only", "scope", "source", "ordinal", "trace_id", "span_id", "parent_id",
    "duration_microseconds", "record"]

/-- `TraceSpan.model_validate_json`. -/
def TraceSpan.validate (fields : JsonObject) : Option TraceSpan := do
  let scope ← (field fields "scope").bind TraceScope.validate
  let source ← (field fields "source").bind EvidenceItem.validate
  let ordinal ← natField fields "ordinal"
  let traceId ← checkedField (hexText 32 · = true) fields "trace_id"
  let spanId ← checkedField (hexText 16 · = true) fields "span_id"
  let parentId ← nullable (fun v => v.asStr.bind fun s => if h : hexText 16 s = true then
    some (⟨s, h⟩ : { s : String // hexText 16 s = true }) else none) fields "parent_id"
  let durationMicroseconds ← natField fields "duration_microseconds"
  let record ← (field fields "record").bind CapturedSpan.read
  if h : ordinal < MAX_SPANS ∧ (literalField fields "transformation" (.str "trace-console-span-v1") &&
      literalField fields "diagnostic_only" (.bool true) && onlyFields fields traceNames) = true then
    some ⟨scope, source, ordinal, traceId, spanId, parentId, durationMicroseconds, record, h.1⟩
  else none

end Reading

/-! ### Writing -/

section Writing

variable [Isoformat]

/-- The JSON of a scope. -/
def TraceScope.dump (scope : TraceScope) : Json :=
  .obj [("incident_id", .str scope.incidentId.val), ("namespace", .str "payops-sandbox"),
    ("service", .str scope.service.name), ("start", .str (Isoformat.isoformat scope.start)),
    ("end", .str (Isoformat.isoformat scope.finish))]

/-- The JSON of the identity of a pod. -/
def PodIdentity.dump (identity : PodIdentity) : Json :=
  .obj [("pod_name", .str identity.podName.val), ("pod_uid", .str identity.podUid.val),
    ("deployment_uid", .str identity.deploymentUid.val), ("replica_set_uid", .str identity.replicaSetUid.val),
    ("container", .str "sandbox"), ("container_id", .str identity.containerId.val),
    ("restart_count", .int identity.restartCount)]

/-- An identity that may be missing. -/
def dumpId {n : ℕ} {ok : ℕ → String → Bool} : Option { s : String // ok n s = true } → Json
  | none => .null
  | some s => .str s.val

/-- The JSON of a span. -/
def SourceSpan.dump (span : SourceSpan) : Json :=
  .obj [("name", .str span.name.val), ("trace_id", .str span.traceId.val), ("span_id", .str span.spanId.val),
    ("parent_id", dumpId span.parentId), ("kind", .str span.kind.text),
    ("start_time", .str (Isoformat.isoformat span.startTime)), ("end_time", .str (Isoformat.isoformat span.endTime)),
    ("status_code", .str span.statusCode.text), ("service_name", .str span.serviceName.val)]

/-- The JSON of a captured span. -/
def CapturedSpan.dump (record : CapturedSpan) : Json :=
  .obj [("span", record.span.dump), ("log_start", .str (Isoformat.isoformat record.logStart)),
    ("log_end", .str (Isoformat.isoformat record.logEnd))]

/-- The JSON of a parsed log. -/
def ParsedLog.dump (parsed : ParsedLog) : Json :=
  .obj [("spans", .arr (parsed.spans.map CapturedSpan.dump)), ("raw_bytes", .int parsed.rawBytes),
    ("line_count", .int parsed.lineCount), ("partial_candidates", .int parsed.partialCandidates),
    ("malformed_candidates", .int parsed.malformedCandidates), ("excluded_spans", .int parsed.excludedSpans),
    ("limit_reached", .bool parsed.limitReached), ("sampling", .str "bounded_sample")]

/-- `JSON_OBJECT.validate_json(capture.model_dump_json())`. -/
def TraceLog.dump (capture : TraceLog) : JsonObject :=
  [("transformation", .str "trace-console-log-v1"), ("scope", capture.scope.dump), ("identity", capture.identity.dump),
    ("captured_start", .str (Isoformat.isoformat capture.capturedStart)),
    ("captured_end", .str (Isoformat.isoformat capture.capturedEnd)), ("parsed", capture.parsed.dump)]

/-- `JSON_OBJECT.validate_json(derived.model_dump_json())`. -/
def TraceSpan.dump (derived : TraceSpan) : JsonObject :=
  [("transformation", .str "trace-console-span-v1"), ("diagnostic_only", .bool true), ("scope", derived.scope.dump),
    ("source", dumpItem derived.source), ("ordinal", .int derived.ordinal), ("trace_id", .str derived.traceId.val),
    ("span_id", .str derived.spanId.val), ("parent_id", dumpId derived.parentId),
    ("duration_microseconds", .int derived.durationMicroseconds), ("record", derived.record.dump)]

/-! ### Evidence -/

/-- The summary of a log. -/
def TraceLog.summary (capture : TraceLog) : String :=
  "Bounded console span sample: " ++ toString capture.parsed.spans.length ++ " records"

/-- The summary of a span. -/
def TraceSpan.summary (derived : TraceSpan) : String :=
  derived.record.span.name.val ++ ": " ++ toString derived.durationMicroseconds ++ " us; status " ++
    derived.record.span.statusCode.text ++ "; bounded sample"

variable [Hashing]

/-- `publish_trace_log`; `evidenceId` and `now` are drawn in `normalize`. -/
def publishTraceLog (evidenceId : Identifier) (now : Time) (capture : TraceLog) : Storing EvidenceItem := do
  let observation ← Storing.lift (Observation.make .log capture.scope.service.name capture.capturedEnd LOG_QUERY
    capture.summary capture.dump)
  normalize evidenceId now observation capture.scope.incidentId.val (some capture.capturedStart)
    (some capture.capturedEnd)

variable [Datetimes] [Numerals]

/-- The payload of an envelope, read as a record. -/
def readPayload {α : Type} (validate : JsonObject → Option α) (envelope : JsonObject) : Except Fault α :=
  match (field envelope "payload").getD .null with
  | .obj raw =>
    if finiteFields raw = false then .error (.value "Out of range float values are not JSON compliant")
    else
      match validate raw with
      | some record => .ok record
      | none => .error (.value "ValidationError")
  | _ => .error (.value "ValidationError")

/-- `_source`. -/
def sourceLog (held : Artifacts) (item : EvidenceItem) : Except Fault TraceLog := do
  let envelope ← verifyEnvelope held item
  let capture ← readPayload TraceLog.validate envelope
  if item.source ≠ .log ∨ item.query.val ≠ LOG_QUERY ∨ item.incidentId ≠ capture.scope.incidentId ∨
      item.resource.val ≠ capture.scope.service.name ∨ item.observedAt ≠ capture.capturedEnd ∨
      item.collectedAt < item.observedAt ∨ item.summary.val ≠ capture.summary then
    .error (.integrity "trace LOG source metadata disagrees")
  else .ok capture

/-- The record that an ordinal selects. -/
def selected (capture : TraceLog) (ordinal : ℤ) : Option CapturedSpan :=
  if 0 ≤ ordinal then capture.parsed.spans[ordinal.toNat]? else none

/-- `TraceSpan(…)`, of a record of a log. -/
def TraceSpan.make (capture : TraceLog) (source : EvidenceItem) (ordinal : ℤ) (record : CapturedSpan) :
    Except Fault TraceSpan :=
  if h : ordinal.toNat < MAX_SPANS then
    .ok ⟨capture.scope, source, ordinal.toNat, bareId record.span.traceId, bareId record.span.spanId,
      record.span.parentId.map bareId, (record.span.endTime - record.span.startTime).toNat, record, h⟩
  else .error (.value "ValidationError")

/-- `_derive`. -/
def deriveSpan (held : Artifacts) (source : EvidenceItem) (ordinal : ℤ) : Except Fault TraceSpan := do
  let capture ← sourceLog held source
  match selected capture ordinal with
  | some record => TraceSpan.make capture source ordinal record
  | none => .error (.integrity "trace source ordinal is unavailable")

/-- `derive_trace_span`; `evidenceId` and `now` are drawn in `normalize`. -/
def deriveTraceSpan (evidenceId : Identifier) (now : Time) (source : EvidenceItem) (ordinal : ℤ) :
    Storing EvidenceItem := do
  let held ← Storing.current
  let derived ← Storing.lift (deriveSpan held source ordinal)
  let observation ← Storing.lift (Observation.make .trace derived.scope.service.name derived.record.span.endTime
    TRACE_QUERY derived.summary derived.dump)
  normalize evidenceId now observation derived.scope.incidentId.val (some derived.scope.start)
    (some derived.scope.finish)

/-- `verify_trace_span`. -/
def verifyTraceSpan (held : Artifacts) (item : EvidenceItem) : Except Fault TraceSpan := do
  let envelope ← verifyEnvelope held item
  let derived ← readPayload TraceSpan.validate envelope
  let expected ← deriveSpan held derived.source derived.ordinal
  if derived ≠ expected ∨ item.source ≠ .trace ∨ item.query.val ≠ TRACE_QUERY ∨
      item.incidentId ≠ expected.scope.incidentId ∨ item.resource.val ≠ expected.scope.service.name ∨
      item.observedAt ≠ expected.record.span.endTime ∨ item.collectedAt < item.observedAt ∨
      item.collectedAt < expected.source.collectedAt ∨ item.summary.val ≠ expected.summary then
    .error (.integrity "derived trace disagrees with direct LOG lineage")
  else .ok expected

end Writing

end Model

end PayOps.Evidence.Trace
