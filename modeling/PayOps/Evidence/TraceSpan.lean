import PayOps.Evidence.LogContext
import PayOps.Evidence.Records
import PayOps.Orchestrator.Reasoning
import PayOps.Text.Utf8

/-!
# Spans of a console log

`payops.evidence.trace_span`, up to `parse_console_log`: spans that a service prints as JSON over several lines
are read out of its log, whose lines the kubelet stamps.

## The model

`Framing` holds the variables of the loop, and `frame` is its body. What the body does inside of `try` is
`capture`; of what it raises the `ValueError`s are counted.

## Honest scope

Python's class `\d` has digits that `datetime.fromisoformat` does not read; a timestamp with one is refused by
`LOG_STAMP` here, as a `ValueError` all the same.
-/

namespace PayOps.Evidence.Trace

open Json (field asStr isDigit digitsValue hexValue)
open FileStore (Bytes)
open Orchestrator (Service)
open Text (decodeUtf8 utf8Length)

/-- `ROLES`. -/
def ROLES : Service → String
  | .paymentsApi => "payments"
  | .riskSim => "risk"
  | .processorAdapter => "processor"
  | .ledgerSim => "ledger"
  | .webhookSim => "webhook"

/-- `MAX_LOG_BYTES`. -/
def MAX_LOG_BYTES : ℕ := 131072

/-- `MAX_LOG_LINES`. -/
def MAX_LOG_LINES : ℕ := 2000

/-- `MAX_SPANS`. -/
def MAX_SPANS : ℕ := 128

/-! ### Records -/

/-- `^0x[0-9a-f]{n}$`. -/
def hexId (n : ℕ) (s : String) : Bool :=
  match s.toList with
  | '0' :: 'x' :: cs => cs.length == n && cs.all hexChar
  | _ => false

/-- `TraceId`. -/
abbrev TraceId := { s : String // hexId 32 s = true }

/-- `SpanId`. -/
abbrev SpanId := { s : String // hexId 16 s = true }

/-- `StringConstraints(min_length=1, max_length=80)`. -/
abbrev SpanText := { s : String // 1 ≤ s.toList.length ∧ s.toList.length ≤ 80 }

/-- `int(identity, 16)`. -/
def hexNumber (s : String) : ℕ := (s.toList.drop 2).foldl (fun n c => n * 16 + (hexValue c).getD 0) 0

/-- The kind of a span. -/
inductive SpanKind where
  /-- `SpanKind.CLIENT`. -/
  | client
  /-- `SpanKind.SERVER`. -/
  | server
  deriving DecidableEq

/-- The status of a span. -/
inductive StatusCode where
  /-- `UNSET`. -/
  | unset
  /-- `OK`. -/
  | ok
  /-- `ERROR`. -/
  | error
  deriving DecidableEq

/-- The literal of a kind. -/
def SpanKind.text : SpanKind → String
  | client => "SpanKind.CLIENT"
  | server => "SpanKind.SERVER"

/-- The literal of a status. -/
def StatusCode.text : StatusCode → String
  | unset => "UNSET"
  | ok => "OK"
  | error => "ERROR"

/-- `SourceSpan.valid`. -/
def spanFailure (traceId : TraceId) (spanId : SpanId) (parentId : Option SpanId) (startTime endTime : Time) : Bool :=
  hexNumber traceId.val == 0 || hexNumber spanId.val == 0 || parentId.any (fun p => hexNumber p.val == 0) ||
    parentId == some spanId || endTime < startTime

/-- `SourceSpan`. -/
structure SourceSpan where
  /-- Its name. -/
  name : SpanText
  /-- The trace it belongs to. -/
  traceId : TraceId
  /-- Its identity in the trace. -/
  spanId : SpanId
  /-- The identity of its parent. -/
  parentId : Option SpanId
  /-- Its kind. -/
  kind : SpanKind
  /-- When it began. -/
  startTime : Time
  /-- When it ended. -/
  endTime : Time
  /-- Its status. -/
  statusCode : StatusCode
  /-- `service.name` of its resource. -/
  serviceName : SpanText
  /-- `valid`. -/
  valid : spanFailure traceId spanId parentId startTime endTime = false
  deriving DecidableEq

/-- A span ends after it begins. -/
theorem SourceSpan.ordered (span : SourceSpan) : span.startTime ≤ span.endTime := by
  have h := span.valid
  simp only [spanFailure, Bool.or_eq_false_iff, decide_eq_false_iff_not, not_lt] at h
  exact h.2

/-- A span is not its own parent. -/
theorem SourceSpan.parent_ne (span : SourceSpan) : span.parentId ≠ some span.spanId := by
  have h := span.valid
  simp only [spanFailure, Bool.or_eq_false_iff, beq_eq_false_iff_ne] at h
  exact h.1.2

/-- The names of the spans that a service emits, with their kinds. -/
def expectedKinds (service : Service) : List (String × SpanKind) :=
  ("sandbox." ++ ROLES service, .server) ::
    if service = .paymentsApi then
      ["risk", "processor", "ledger", "webhook"].map fun role => ("sandbox.call." ++ role, .client)
    else []

/-- `SourceSpan.check_service`. -/
def SourceSpan.checkService (span : SourceSpan) (service : Service) : Except Fault Unit :=
  if span.serviceName.val ≠ "payops-sandbox-" ++ ROLES service ∨
      (expectedKinds service).lookup span.name.val ≠ some span.kind then
    .error (.integrity "span disagrees with emitting service")
  else .ok ()

/-- `CapturedSpan`. -/
structure CapturedSpan where
  /-- The span. -/
  span : SourceSpan
  /-- The timestamp of its first line. -/
  logStart : Time
  /-- The timestamp of its last line. -/
  logEnd : Time
  /-- `ordered`. -/
  ordered : span.endTime ≤ logStart ∧ logStart ≤ logEnd
  deriving DecidableEq

/-- Validation of a captured span. -/
def CapturedSpan.validate (span : SourceSpan) (logStart logEnd : Time) : Except Fault CapturedSpan :=
  if h : span.endTime ≤ logStart ∧ logStart ≤ logEnd then .ok ⟨span, logStart, logEnd, h⟩
  else .error (.value "inverted log emission interval")

/-- `TraceScope`; its namespace is that of the sandbox. -/
structure TraceScope [Platform] where
  /-- The incident. -/
  incidentId : Identifier
  /-- The service that emits the spans. -/
  service : Service
  /-- `start`. -/
  start : Time
  /-- `end`. -/
  finish : Time
  /-- `bounded`. -/
  bounded : 0 < finish - start ∧ finish - start ≤ seconds 600
  deriving DecidableEq

/-- A span lies in the interval of a scope. -/
def TraceScope.contains [Platform] (scope : TraceScope) (span : SourceSpan) : Bool :=
  scope.start ≤ span.startTime && span.startTime ≤ span.endTime && span.endTime ≤ scope.finish

/-- `ParsedLog`. -/
structure ParsedLog where
  /-- The spans, in the order of their last lines. -/
  spans : List CapturedSpan
  /-- How many bytes were read. -/
  rawBytes : ℕ
  /-- How many lines they are. -/
  lineCount : ℕ
  /-- Candidates without an end, and lines without a beginning. -/
  partialCandidates : ℕ
  /-- Candidates that are no span of the service. -/
  malformedCandidates : ℕ
  /-- Spans outside of the interval. -/
  excludedSpans : ℕ
  /-- A budget was used up. -/
  limitReached : Bool
  /-- `Field(max_length=MAX_SPANS)`, `Field(le=MAX_LOG_BYTES)`, `Field(le=MAX_LOG_LINES)`. -/
  bounded : spans.length ≤ MAX_SPANS ∧ rawBytes ≤ MAX_LOG_BYTES ∧ lineCount ≤ MAX_LOG_LINES
  deriving DecidableEq

/-! ### Timestamps -/

/-- The days of a month. -/
def monthDays (year month : ℕ) : ℕ :=
  if month = 2 then if year % 4 = 0 ∧ (year % 100 ≠ 0 ∨ year % 400 = 0) then 29 else 28
  else if month ∈ [4, 6, 9, 11] then 30 else 31

/-- The days from the first of January 1970. -/
def civilDays (year month day : ℕ) : ℤ :=
  365 * (year - 1 : ℤ) + ((year - 1) / 4 : ℕ) - ((year - 1) / 100 : ℕ) + ((year - 1) / 400 : ℕ) +
    (((List.range (month - 1)).map fun m => monthDays year (m + 1)).sum : ℕ) + day - 719163

/-- `datetime(year, month, day, hour, minute, second, microsecond, UTC)`. -/
def utcTime (year month day hour minute second microsecond : ℕ) : Option Time :=
  if 1 ≤ year ∧ 1 ≤ month ∧ month ≤ 12 ∧ 1 ≤ day ∧ day ≤ monthDays year month ∧ hour < 24 ∧ minute < 60 ∧
      second < 60 then
    some (((civilDays year month day * 24 + hour) * 60 + minute) * 60000000 + second * 1000000 + microsecond)
  else none

/-- The text has the shape, in which `d` is a digit. -/
def shaped : List Char → List Char → Bool
  | [], [] => true
  | p :: ps, c :: cs => (if p = 'd' then isDigit c else c == p) && shaped ps cs
  | _, _ => false

/-- The shape of the timestamps, up to the seconds. -/
def clockShape : List Char := "dddd-dd-ddTdd:dd:dd".toList

/-- The digits of `(?:\.\d{1,9})?Z`. -/
def fractionDigits : List Char → Option (List Char)
  | ['Z'] => some []
  | '.' :: cs =>
    let digits := cs.takeWhile isDigit
    if cs.drop digits.length = ['Z'] ∧ 1 ≤ digits.length ∧ digits.length ≤ 9 then some digits else none
  | _ => none

/-- The microseconds of a fraction, whose other digits are dropped. -/
def microseconds (digits : List Char) : ℕ := digitsValue ((digits ++ List.replicate 6 '0').take 6)

/-- The pattern of a timestamp, and `datetime.fromisoformat(prefix.replace("Z", "+00:00"))`. -/
def LOG_STAMP (stamp : List Char) : Option Time :=
  if shaped clockShape (stamp.take 19) then do
    let digits ← fractionDigits (stamp.drop 19)
    let number (from_ count : ℕ) : ℕ := digitsValue ((stamp.drop from_).take count)
    utcTime (number 0 4) (number 5 2) (number 8 2) (number 11 2) (number 14 2) (number 17 2) (microseconds digits)
  else none

example : LOG_STAMP "2024-01-01T00:00:12.000000123Z".toList = some (seconds 1704067212) := by decide +kernel

/-! ### Lines -/

/-- A line of a log: its timestamp, and what the service has printed. -/
abbrev Line := Time × List Char

/-- One line of `_log_lines`. -/
def stampedLine (line : List Char) : Except Fault Line :=
  match if ' ' ∈ line then LOG_STAMP (partitionBlank line).1 else none with
  | some emitted => .ok (emitted, (partitionBlank line).2)
  | none => .error (.value "timestamped Kubernetes log line required")

/-- `_log_lines`. -/
def logLines (raw : Bytes) : Except Fault (List Line) :=
  if MAX_LOG_BYTES < raw.length then .error (.value "trace log exceeds byte budget")
  else match decodeUtf8 raw with
  | none => .error (.value "UnicodeDecodeError")
  | some text =>
    let lines := splitLines [] text
    if MAX_LOG_LINES < lines.length then .error (.value "trace log exceeds line budget")
    else lines.mapM stampedLine

/-! ### Projection -/

/-- `_depth`; `quoted` and `escaped` are the variables of the scan. -/
def depthScan (depth : ℤ) (quoted escaped : Bool) : List Char → Except Fault Unit
  | [] => .ok ()
  | c :: cs =>
    if quoted then
      if escaped then depthScan depth true false cs
      else if c = '\\' then depthScan depth true true cs
      else depthScan depth (c != '"') false cs
    else if c = '"' then depthScan depth true escaped cs
    else if c = '[' ∨ c = '{' then
      if 8 < depth + 1 then .error (.value "span JSON exceeds depth budget")
      else depthScan (depth + 1) false escaped cs
    else if c = ']' ∨ c = '}' then depthScan (depth - 1) false escaped cs
    else depthScan depth false escaped cs

section Project

variable [Platform] [Datetimes]

omit [Platform] in
/-- `SourceSpan.model_validate_json`, of the fields that `_project` names; a missing one is `None`. -/
def SourceSpan.validate (name traceId spanId parentId kind startTime endTime statusCode serviceName : Option Json) :
    Option SourceSpan := do
  let name ← name.bind asStr
  let traceId ← traceId.bind asStr
  let spanId ← spanId.bind asStr
  let parentId ← match parentId with
    | none | some .null => some none
    | some (.str s) => if h : hexId 16 s = true then some (some (⟨s, h⟩ : SpanId)) else none
    | _ => none
  let kind ← [SpanKind.client, .server].find? fun k => kind == some (.str k.text)
  let startTime ← (startTime.bind asStr).bind Datetimes.strict
  let endTime ← (endTime.bind asStr).bind Datetimes.strict
  let statusCode ← [StatusCode.unset, .ok, .error].find? fun s => statusCode == some (.str s.text)
  let serviceName ← serviceName.bind asStr
  if h : ((1 ≤ name.toList.length ∧ name.toList.length ≤ 80) ∧ hexId 32 traceId = true ∧ hexId 16 spanId = true) ∧
      1 ≤ serviceName.toList.length ∧ serviceName.toList.length ≤ 80 then
    if valid : spanFailure ⟨traceId, h.1.2.1⟩ ⟨spanId, h.1.2.2⟩ parentId startTime endTime = false then
      some ⟨⟨name, h.1.1⟩, ⟨traceId, h.1.2.1⟩, ⟨spanId, h.1.2.2⟩, parentId, kind, startTime, endTime, statusCode,
        ⟨serviceName, h.2⟩, valid⟩
    else none
  else none

/-- `json.loads` with the hooks `_pairs`, `_constant` and `_float`: a numeral that overflows raises. -/
def loadsFinite (text : List Char) : Option Json := (Json.loads text).filter FileStore.finite

omit [Platform] in
/-- `_project`, of a decoded object. -/
def projectObject (obj : JsonObject) : Except Fault SourceSpan :=
  if (field obj "parent_id").isNone then .error (.value "span parent field is missing")
  else match field obj "context", field obj "status", field obj "resource" with
  | some (.obj context), some (.obj status), some (.obj resource) =>
    match field resource "attributes" with
    | some (.obj attributes) =>
      match SourceSpan.validate (field obj "name") (field context "trace_id") (field context "span_id")
          (field obj "parent_id") (field obj "kind") (field obj "start_time") (field obj "end_time")
          (field status "status_code") (field attributes "service.name") with
      | some span => .ok span
      | none => .error (.value "ValidationError")
    | _ => .error (.value "span resource attributes are missing")
  | _, _, _ => .error (.value "span nested metadata is missing")

/-- `_project`. -/
def project (text : List Char) : Except Fault SourceSpan :=
  match loadsFinite text with
  | some (.obj obj) => projectObject obj
  | _ => .error (.value "span JSON object required")

/-! ### Framing -/

/-- The variables of the loop. -/
structure Framing where
  /-- `spans`. -/
  spans : List CapturedSpan := []
  /-- `candidate`. -/
  candidate : List (List Char) := []
  /-- `started`. -/
  started : Option Time := none
  /-- `previous`. -/
  previous : Option Time := none
  /-- `invalid_timestamps`. -/
  invalidTimestamps : Bool := false
  /-- `partial`. -/
  partials : ℕ := 0
  /-- `malformed`. -/
  malformed : ℕ := 0
  /-- `excluded`. -/
  excluded : ℕ := 0
  /-- `size`. -/
  size : ℕ := 0
  deriving DecidableEq

/-- What is done inside of `try`, up to the check of the interval. -/
def capture (scope : TraceScope) (invalid : Bool) (started : Option Time) (emitted : Time) (text : List Char) :
    Except Fault CapturedSpan := do
  if invalid then throw (.value "unordered physical log timestamps")
  depthScan 0 false false text
  let span ← project text
  span.checkService scope.service
  match started with
  | none => throw (.other "AssertionError")
  | some started => CapturedSpan.validate span started emitted

/-- `"\n".join(candidate)`. -/
def joinLines (lines : List (List Char)) : List Char := ['\n'].intercalate lines

/-- The end of a candidate. -/
def closeCandidate (scope : TraceScope) (st : Framing) (emitted : Time) : Except Fault Framing :=
  let cleared := { st with candidate := [], started := none, size := 0 }
  match capture scope st.invalidTimestamps st.started emitted (joinLines st.candidate) with
  | .ok captured =>
    if scope.contains captured.span then
      if MAX_SPANS < (st.spans ++ [captured]).length then .error (.other "OverflowError")
      else .ok { cleared with spans := st.spans ++ [captured] }
    else .ok { cleared with excluded := st.excluded + 1 }
  | .error x => if x.isValue then .ok { cleared with malformed := st.malformed + 1 } else .error x

/-- `line.lstrip().startswith(('"', "}", "]"))`. -/
def fragment (line : List Char) : Bool :=
  (line.dropWhile reSpace).head?.any fun c => c == '"' || c == '}' || c == ']'

/-- The first line of a span. -/
def opening : List Char := ['{']

/-- The last line of a span. -/
def closing : List Char := ['}']

/-- The body of the loop. -/
def frame (scope : TraceScope) (st : Framing) (line : Line) : Except Fault Framing :=
  if line.2 = opening then
    .ok { st with
      partials := st.partials + (if st.candidate = [] then 0 else 1), candidate := [line.2]
      started := some line.1, size := 1, previous := some line.1, invalidTimestamps := false }
  else if st.candidate = [] then
    .ok { st with partials := st.partials + (if fragment line.2 then 1 else 0) }
  else
    let later := { st with
      candidate := st.candidate ++ [line.2]
      invalidTimestamps := st.invalidTimestamps || st.previous.any (line.1 < ·), previous := some line.1
      size := st.size + (utf8Length line.2 + 1) }
    if 8192 < later.size then .error (.value "span object exceeds byte budget")
    else if line.2 ≠ closing then .ok later
    else closeCandidate scope later line.1

/-- `ParsedLog(…)`, after the loop. -/
def parsedLog (raw : Bytes) (lines : List Line) (st : Framing) : Except Fault ParsedLog :=
  if h : st.spans.length ≤ MAX_SPANS ∧ raw.length ≤ MAX_LOG_BYTES ∧ lines.length ≤ MAX_LOG_LINES then
    .ok ⟨st.spans, raw.length, lines.length, st.partials + (if st.candidate = [] then 0 else 1), st.malformed,
      st.excluded, raw.length == MAX_LOG_BYTES || lines.length == MAX_LOG_LINES, h⟩
  else .error (.value "ValidationError")

/-- `parse_console_log`. -/
def parseConsoleLog (raw : Bytes) (scope : TraceScope) : Except Fault ParsedLog := do
  let lines ← logLines raw
  let st ← lines.foldlM (frame scope) {}
  parsedLog raw lines st

end Project

end PayOps.Evidence.Trace
