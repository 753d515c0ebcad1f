import PayOps.Evidence.Records
import PayOps.Tools.OperationalReads

/-!
# Payment windows

`payops.evidence.payment_window`: the counters of a service in two snapshots, and what happened between them.

## The model

A float is the rational that it is, and both zeros are the same; `Floats` is what Python makes of floats, and what it
rounds is `Floats.round`. A dict with keys `Key` is the list of its items in insertion order.

## What is proved

* `required_nodup`, `required_length` — 33 series are required.
* `required_labels` — each of them is sorted, as the labels of a row are.

## Honest scope

An aware datetime is its instant. `datetime.fromtimestamp` raises for instants that are out of its range; what it raises
is a parameter.
-/

namespace PayOps.Evidence.Payment

open Json (field asStr)
open FileStore (Hashing finiteFields)
open Orchestrator (Service)
open Tools (snapshotQuery)

/-- What the code takes from Python's floats. An infinity or NaN has no value. -/
class Floats where
  /-- The float nearest to the result of an operation. -/
  round : ℚ → ℚ
  /-- `sum`, of a list of floats. -/
  sum : List ℚ → Option ℚ
  /-- `float(text)`, which may raise. -/
  parse : String → Option (Option ℚ)
  /-- `float(n)`, which may raise. -/
  ofInt : ℤ → Option ℚ
  /-- How a float is written. -/
  repr : ℚ → String
  /-- `t.timestamp()`. -/
  timestamp : Time → ℚ
  /-- `datetime.fromtimestamp(x, UTC)`. -/
  fromTimestamp : ℚ → Except Fault Time

/-! ### Series -/

/-- `Labels`. -/
abbrev Labels := List (String × String)

/-- `Key`: the name of a series, and its labels. -/
abbrev Key := String × Labels

/-- `REQUESTS`. -/
def REQUESTS : String := "payment_requests_total"

/-- `COUNT`. -/
def COUNT : String := "payment_authorization_latency_seconds_count"

/-- `SUM`. -/
def SUM : String := "payment_authorization_latency_seconds_sum"

/-- `CONFLICTS`. -/
def CONFLICTS : String := "payment_idempotency_conflicts_total"

/-- `EPOCH`. -/
def EPOCH : String := "sandbox_process_start_time_seconds"

/-- `DERIVED_QUERY`. -/
def DERIVED_QUERY : String := "payment.window.v1"

/-- `tuple(sorted(labels.items()))`; the names differ. -/
def sortLabels (labels : Labels) : Labels := labels.insertionSort fun a b => a.1 ≤ b.1

/-- The processors and the regions. -/
def dimensions : List (String × String) := ["A", "B"].flatMap fun processor => ["us", "eu"].map fun region =>
  (processor, region)

/-- The labels of a processor and a region. -/
def slice (processor region : String) : Labels := [("processor", processor), ("region", region)]

/-- The labels of a counter of requests. -/
def requestLabels (processor region method status : String) : Labels :=
  sortLabels [("processor", processor), ("region", region), ("payment_method", method), ("status", status)]

/-- `_required`. -/
def required : List Key :=
  (CONFLICTS, []) ::
    (dimensions.flatMap fun d => ["credit", "debit"].flatMap fun method =>
      ["accepted", "declined", "error"].map fun status => (REQUESTS, requestLabels d.1 d.2 method status)) ++
    dimensions.flatMap fun d => [COUNT, SUM].map fun name => (name, slice d.1 d.2)

/-- `allowed`. -/
def allowed : List Key := required ++ [(EPOCH, []), ("up", [])]

theorem required_length : required.length = 33 := by decide

theorem allowed_nodup : allowed.Nodup := by decide +kernel

theorem required_nodup : required.Nodup := allowed_nodup.of_append_left

/-- How keys are ordered: by their names, and then by their labels. -/
def keyOrder (key : Key) : List String := key.1 :: key.2.flatMap fun label => [label.1, label.2]

/-- `sorted(values.items())`; the keys differ. -/
def sortValues (values : List (Key × ℚ)) : List (Key × ℚ) :=
  values.insertionSort fun a b => keyOrder a.1 ≤ keyOrder b.1

/-! ### Windows -/

/-- `MeasurementInterval`. -/
structure MeasurementInterval [Platform] where
  /-- The incident. -/
  incidentId : Identifier
  /-- `start`. -/
  start : Time
  /-- `end`. -/
  finish : Time
  /-- `bounded`. -/
  bounded : 0 < finish - start ∧ finish - start ≤ seconds 180
  deriving DecidableEq

/-- `Delta`. -/
structure Delta where
  /-- The name of the series. -/
  metric : String
  /-- Its labels. -/
  labels : Labels
  /-- By how much it grew. -/
  value : ℚ
  /-- `Field(ge=0)`. -/
  nonneg : 0 ≤ value
  deriving DecidableEq

/-- The series of a delta. -/
def Delta.key (d : Delta) : Key := (d.metric, d.labels)

/-- `Status`. -/
inductive Status where
  /-- `complete`. -/
  | complete
  /-- `missing`. -/
  | missing
  /-- `reset`. -/
  | reset
  /-- `mixed_epoch`. -/
  | mixedEpoch
  deriving DecidableEq

/-- The literal of a status. -/
def Status.text : Status → String
  | complete => "complete"
  | missing => "missing"
  | reset => "reset"
  | mixedEpoch => "mixed_epoch"

/-- `PaymentWindow`. -/
structure PaymentWindow [Platform] where
  /-- The service. -/
  service : Service
  /-- The interval. -/
  interval : MeasurementInterval
  /-- The two snapshots. -/
  inputs : EvidenceItem × EvidenceItem
  /-- The status. -/
  status : Status
  /-- When the first snapshot was scraped. -/
  windowStart : Option Time
  /-- When the second snapshot was scraped. -/
  windowEnd : Option Time
  /-- When the process of the first snapshot began. -/
  beforeEpoch : Option ℚ
  /-- When the process of the second snapshot began. -/
  afterEpoch : Option ℚ
  /-- `request_counts`. -/
  requestCounts : List Delta
  /-- `latency`. -/
  latency : List Delta
  /-- `conflicts`. -/
  conflicts : List Delta
  deriving DecidableEq

/-- All deltas of a window. -/
def PaymentWindow.deltas [Platform] (w : PaymentWindow) : List Delta := w.requestCounts ++ w.latency ++ w.conflicts

/-! ### Values -/

/-- `fields.get(key)`. -/
def get (fields : JsonObject) (key : String) : Json := (field fields key).getD .null

/-- `_object`. -/
def object : Json → Except Fault JsonObject
  | .obj fields => .ok fields
  | _ => .error (.integrity "expected source object")

section Values

variable [Numerals] [Floats]

/-- `bool(value)`. -/
def truthy : Json → Bool
  | .null => false
  | .bool b => b
  | .int n => n != 0
  | .float r => Numerals.value r != some 0
  | .str s => s != ""
  | .arr items => !items.isEmpty
  | .obj fields => !fields.isEmpty

omit [Numerals] [Floats] in
/-- `_finite`, of a float. -/
def finiteFloat : Option ℚ → Except Fault ℚ
  | some x => if x < 0 then .error (.integrity "expected finite nonnegative value") else .ok x
  | none => .error (.integrity "expected finite nonnegative value")

/-- `_finite`. -/
def finiteValue : Json → Except Fault ℚ
  | .float r => finiteFloat (Numerals.value r)
  | .int n =>
    match Floats.ofInt n with
    | some x => finiteFloat (some x)
    | none => .error (.integrity "numeric value exceeds finite range")
  | _ => .error (.integrity "expected numeric timestamp")

/-- `_value`. -/
def value (row : JsonObject) (evaluatedAt : ℚ) : Except Fault ℚ :=
  match get row "value" with
  | .arr [stamp, .str text] => do
    let stamp ← finiteValue stamp
    if Floats.round (1 / 1000) < |Floats.round (stamp - evaluatedAt)| then
      throw (.integrity "sample timestamp disagrees with pinned evaluation")
    match Floats.parse text with
    | some x => finiteFloat x
    | none => throw (.integrity "invalid counter value")
  | _ => .error (.integrity "expected Prometheus timestamp/string pair")

omit [Floats] in
/-- `_rows`. -/
def rows (response : Json) : Except Fault (List JsonObject) := do
  let response ← object response
  if get response "status" ≠ .str "success" ∨ truthy (get response "warnings") = true then
    throw (.integrity "Prometheus query failed or warned")
  let data ← object (get response "data")
  match get data "result" with
  | .arr rows =>
    if get data "resultType" ≠ .str "vector" ∨ 128 < rows.length then
      throw (.integrity "bounded instant vector required")
    rows.mapM object
  | _ => throw (.integrity "bounded instant vector required")

/-- The labels that tell the target of a row. -/
def target (service : Service) : Labels :=
  [("job", "payops-sandbox"), ("service", service.name),
    ("instance", service.name ++ ".payops-sandbox.svc.cluster.local:8080")]

omit [Numerals] [Floats] in
/-- `_labels`. -/
def labels (row : JsonObject) (service : Service) : Except Fault JsonObject := do
  let labels ← object (get row "metric")
  if ∃ l ∈ target service, get labels l.1 ≠ .str l.2 then
    throw (.integrity "metric target is outside snapshot scope")
  if ∃ l ∈ labels, asStr l.2 = none then throw (.integrity "metric labels must be strings")
  return labels

/-- The labels that are not part of a key. -/
def dropped : List String := ["__name__", "job", "service", "instance"]

/-- The key of a row with these labels, all of them strings. -/
def rowKey (labels : JsonObject) : Key :=
  (((field labels "__name__").bind asStr).getD "None",
    sortLabels ((labels.filter fun l => l.1 ∉ dropped).map fun l => (l.1, (asStr l.2).getD "")))

/-- The body of the loop of `_metric_values`. -/
def metricStep (service : Service) (evaluatedAt : ℚ) (values : List (Key × ℚ)) (row : JsonObject) :
    Except Fault (List (Key × ℚ)) := do
  let labels ← labels row service
  if rowKey labels ∉ allowed ∨ rowKey labels ∈ values.map Prod.fst then
    throw (.integrity "unknown or duplicated metric series")
  let x ← value row evaluatedAt
  return values ++ [(rowKey labels, x)]

/-- `_metric_values`. -/
def metricValues (raw : JsonObject) (service : Service) (evaluatedAt : ℚ) : Except Fault (List (Key × ℚ)) := do
  let rows ← rows (get raw "metrics")
  rows.foldlM (metricStep service evaluatedAt) []

/-- `_watermark`. -/
def watermark (raw : JsonObject) (service : Service) (evaluatedAt : ℚ) : Except Fault (Option ℚ) := do
  match ← rows (get raw "watermark") with
  | [] => return none
  | [row] =>
    let labels ← labels row service
    -- the labels of the target are there, so that the sets differ just if there is another one
    if ∃ l ∈ labels, l.1 ∉ (target service).map Prod.fst then throw (.integrity "unexpected watermark labels")
    let mark ← value row evaluatedAt
    if evaluatedAt < mark then throw (.integrity "future scrape watermark")
    return some mark
  | _ => throw (.integrity "ambiguous scrape watermark")

/-- `Parsed`. -/
structure Parsed where
  /-- When the query was evaluated. -/
  evaluatedAt : ℚ
  /-- When the service was scraped. -/
  watermark : Option ℚ
  /-- When the process began. -/
  epoch : Option ℚ
  /-- The target is up. -/
  available : Bool
  /-- The values of the other series. -/
  values : List (Key × ℚ)
  deriving DecidableEq

/-- The fields of the payload of a snapshot. -/
def snapshotFields : List String := ["evaluated_at", "query", "watermark_query", "metrics", "watermark"]

/-- `snapshot_queries(service)[1]`. -/
def watermarkQuery (service : Service) : String :=
  "timestamp(sandbox_process_start_time_seconds\x7bjob=\"payops-sandbox\",service=\"" ++ service.name ++ "\"\x7d)"

/-- `_parse_payload`. -/
def parsePayload (payload : JsonObject) (service : Service) : Except Fault Parsed := do
  if (∃ f ∈ payload, f.1 ∉ snapshotFields) ∨ ∃ name ∈ snapshotFields, (field payload name).isNone then
    throw (.integrity "unexpected raw snapshot payload fields")
  if get payload "query" ≠ .str (snapshotQuery service) ∨
      get payload "watermark_query" ≠ .str (watermarkQuery service) then
    throw (.integrity "snapshot query provenance disagrees")
  let evaluatedAt ← finiteValue (get payload "evaluated_at")
  let values ← metricValues payload service evaluatedAt
  let mark ← watermark payload service evaluatedAt
  let epoch := values.lookup (EPOCH, [])
  if epoch.any fun e => mark.any fun w => w < e then throw (.integrity "process epoch is after its scrape")
  return ⟨evaluatedAt, mark, epoch, values.lookup ("up", []) == some 1,
    sortValues (values.filter fun v => v.1 ≠ (EPOCH, []) ∧ v.1 ≠ ("up", []))⟩

end Values

/-! ### Arithmetic -/

section Arithmetic

variable [Platform] [Floats]

/-- `_coverage`. -/
def coverage (first last : Parsed) (interval : MeasurementInterval) : Status :=
  let start := Floats.timestamp interval.start
  let finish := Floats.timestamp interval.finish
  match first.epoch, last.epoch, first.watermark, last.watermark with
  | some epoch, some epoch', some mark, some mark' =>
    if first.available = false ∨ last.available = false then .missing
    else if epoch ≠ epoch' then .mixedEpoch
    else if ¬(Floats.round (start - 15) ≤ mark ∧ mark ≤ first.evaluatedAt ∧ first.evaluatedAt ≤ start) ∨
        ¬(finish ≤ mark' ∧ mark' ≤ last.evaluatedAt ∧ last.evaluatedAt ≤ Floats.round (finish + 30)) then .missing
    else if (first.values.map Prod.fst).toFinset ≠ required.toFinset ∨
        (last.values.map Prod.fst).toFinset ≠ required.toFinset then .missing
    else if ∃ v ∈ first.values, (last.values.lookup v.1).any (· < v.2) then .reset
    else .complete
  | _, _, _, _ => .missing

omit [Platform] in
/-- `_consistent`; the counts and the sums are there, and the labels of requests name their dimensions. -/
def consistent (delta : List (Key × ℚ)) : Bool :=
  dimensions.all fun d =>
    let requests := (delta.filter fun v => v.1.1 = REQUESTS ∧ v.1.2.lookup "processor" = some d.1 ∧
      v.1.2.lookup "region" = some d.2).map Prod.snd
    let count := delta.lookup (COUNT, slice d.1 d.2)
    let duration := delta.lookup (SUM, slice d.1 d.2)
    count == Floats.sum requests && !(count == some 0 && duration != some 0)

omit [Platform] [Floats] in
/-- `Delta(metric=…, labels=…, value=…)`. -/
def makeDelta (point : Key × ℚ) : Except Fault Delta :=
  if h : 0 ≤ point.2 then .ok ⟨point.1.1, point.1.2, point.2, h⟩ else .error (.value "ValidationError")

/-- `delta`: what the values have grown by. -/
def growth (first last : Parsed) : List (Key × ℚ) :=
  last.values.map fun v => (v.1, Floats.round (v.2 - (first.values.lookup v.1).getD 0))

/-- The status and the deltas of two snapshots. -/
def settle (first last : Parsed) (interval : MeasurementInterval) : Status × List (Key × ℚ) :=
  match coverage first last interval with
  | .complete => if consistent (growth first last) then (.complete, growth first last) else (.missing, [])
  | status => (status, [])

omit [Platform] in
/-- `_date`. -/
def date : Option ℚ → Except Fault (Option Time)
  | none => .ok none
  | some x => (Floats.fromTimestamp x).map some

/-- The services. -/
def services : List Service := [.paymentsApi, .processorAdapter, .riskSim, .ledgerSim, .webhookSim]

/-- `TypeAdapter(Service).validate_python(text)`. -/
def serviceOf (text : String) : Option Service := services.find? fun service => service.name == text

variable [Numerals]

/-- `_parse`. -/
def parse (item : EvidenceItem) (payload : JsonObject) (service : Service) : Except Fault Parsed := do
  let parsed ← parsePayload payload service
  let observed := parsed.watermark.getD parsed.evaluatedAt
  if item.query.val ≠ snapshotQuery service then .error (.integrity "snapshot query provenance disagrees")
  else if Floats.timestamp item.collectedAt < parsed.evaluatedAt ∨ item.collectedAt < item.observedAt then
    .error (.integrity "snapshot timestamp is after collection")
  else if Floats.round (1 / 1000) < |Floats.round (Floats.timestamp item.observedAt - observed)| then
    .error (.integrity "observation metadata disagrees with source time")
  else .ok parsed

/-- What `_compute` makes of two snapshots that were verified and parsed. -/
def assemble (service : Service) (before after : EvidenceItem) (interval : MeasurementInterval)
    (first last : Parsed) : Except Fault PaymentWindow := do
  let (status, delta) := settle first last interval
  let points ← (sortValues delta).mapM makeDelta
  let windowStart ← date first.watermark
  let windowEnd ← date last.watermark
  return {
    service, interval, inputs := (before, after), status, windowStart, windowEnd
    beforeEpoch := first.epoch
    afterEpoch := last.epoch
    requestCounts := points.filter (·.metric = REQUESTS)
    latency := points.filter fun d => d.metric = COUNT ∨ d.metric = SUM
    conflicts := points.filter (·.metric = CONFLICTS) }

variable [Hashing] [Isoformat]

/-- `_compute`. -/
def compute (held : Artifacts) (before after : EvidenceItem) (interval : MeasurementInterval) :
    Except Fault PaymentWindow := do
  let firstPayload ← object (get (← verifyEnvelope held before) "payload")
  let lastPayload ← object (get (← verifyEnvelope held after) "payload")
  if before.evidenceId = after.evidenceId ∨ before.incidentId ≠ interval.incidentId ∨
      after.incidentId ≠ interval.incidentId ∨ before.resource ≠ after.resource ∨ before.source ≠ .prometheus ∨
      after.source ≠ .prometheus then
    throw (.integrity "raw snapshot lineage crosses ownership or source scope")
  match serviceOf before.resource.val with
  | none => throw (.value "ValidationError")
  | some service =>
    let first ← parse before firstPayload service
    let last ← parse after lastPayload service
    assemble service before after interval first last

end Arithmetic

/-! ### Records -/

section Records

variable [Platform] [Floats] [Numerals] [Datetimes]

omit [Platform] in
/-- A field that is a strict aware datetime. -/
def strictTime (fields : JsonObject) (key : String) : Option Time :=
  (textField fields key).bind Datetimes.strict

omit [Platform] [Datetimes] in
/-- A value that is a strict finite float. -/
def strictFloat : Json → Option ℚ
  | .float r => Numerals.value r
  | .int n => Floats.ofInt n
  | _ => none

/-- A field that may be null, but not absent. -/
def nullable {α : Type} (read : Json → Option α) (fields : JsonObject) (key : String) : Option (Option α) :=
  match field fields key with
  | some .null => some none
  | some v => (read v).map some
  | none => none

/-- Validation of an interval. -/
def MeasurementInterval.validate : Json → Option MeasurementInterval
  | .obj fields => do
    let incidentId ← identifierField fields "incident_id"
    let start ← strictTime fields "start"
    let finish ← strictTime fields "end"
    if h : (0 < finish - start ∧ finish - start ≤ seconds 180) ∧
        onlyFields fields ["incident_id", "start", "end"] = true then
      some ⟨incidentId, start, finish, h.1⟩
    else none
  | _ => none

/-- Validation of a label. -/
def validateLabel : Json → Option (String × String)
  | .arr [.str name, .str text] => some (name, text)
  | _ => none

omit [Platform] [Datetimes] in
/-- Validation of a delta. -/
def Delta.validate : Json → Option Delta
  | .obj fields => do
    let metric ← textField fields "metric"
    let labels ← (field fields "labels").bind Json.asArr
    let labels ← labels.mapM validateLabel
    let x ← (field fields "value").bind strictFloat
    if h : 0 ≤ x ∧ onlyFields fields ["metric", "labels", "value"] = true then some ⟨metric, labels, x, h.1⟩
    else none
  | _ => none

omit [Platform] [Datetimes] in
/-- A field that is a tuple of deltas, and empty if it is absent. -/
def deltasField (fields : JsonObject) (key : String) : Option (List Delta) :=
  match field fields key with
  | none => some []
  | some v => v.asArr.bind fun items => items.mapM Delta.validate

/-- Validation of the two snapshots. -/
def validateInputs : Json → Option (EvidenceItem × EvidenceItem)
  | .arr [before, after] => do
    let before ← EvidenceItem.validate before
    let after ← EvidenceItem.validate after
    some (before, after)
  | _ => none

/-- The names of the fields of a window. -/
def windowNames : List String :=
  ["kind", "transformation", "service", "interval", "inputs", "status", "window_start", "window_end", "before_epoch",
    "after_epoch", "request_counts", "latency", "conflicts"]

/-- `PaymentWindow.model_validate_json`. -/
def PaymentWindow.validate (fields : JsonObject) : Option PaymentWindow := do
  let service ← (textField fields "service").bind serviceOf
  let interval ← (field fields "interval").bind MeasurementInterval.validate
  let inputs ← (field fields "inputs").bind validateInputs
  let status ← [Status.complete, .missing, .reset, .mixedEpoch].find? fun status =>
    textField fields "status" == some status.text
  let windowStart ← nullable (fun v => v.asStr.bind Datetimes.strict) fields "window_start"
  let windowEnd ← nullable (fun v => v.asStr.bind Datetimes.strict) fields "window_end"
  let beforeEpoch ← nullable strictFloat fields "before_epoch"
  let afterEpoch ← nullable strictFloat fields "after_epoch"
  let requestCounts ← deltasField fields "request_counts"
  let latency ← deltasField fields "latency"
  let conflicts ← deltasField fields "conflicts"
  if literalField fields "kind" (.str "payment_slice_window") &&
      literalField fields "transformation" (.str "payment-counter-window-v1") && onlyFields fields windowNames then
    some ⟨service, interval, inputs, status, windowStart, windowEnd, beforeEpoch, afterEpoch, requestCounts, latency,
      conflicts⟩
  else none

variable [Hashing] [Isoformat]

omit [Floats] [Numerals] [Datetimes] [Hashing] [Isoformat] in
/-- The checks of `verify_payment_window` on the item, against the window that is computed. -/
def checkWindow (item : EvidenceItem) (window expected : PaymentWindow) : Except Fault Unit :=
  if item.source ≠ .payment ∨ item.query.val ≠ DERIVED_QUERY ∨ item.resource.val ≠ window.service.name ∨
      item.incidentId ≠ window.interval.incidentId ∨
      item.observedAt ≠ expected.windowEnd.getD expected.inputs.2.observedAt ∨ item.collectedAt < item.observedAt ∨
      window ≠ expected then
    .error (.integrity "derived window disagrees with verified raw lineage")
  else .ok ()

/-- `verify_payment_window`. -/
def verifyPaymentWindow (held : Artifacts) (item : EvidenceItem) : Except Fault PaymentWindow := do
  let raw ← object (get (← verifyEnvelope held item) "payload")
  if finiteFields raw = false then throw (.value "Out of range float values are not JSON compliant")
  match PaymentWindow.validate raw with
  | none => throw (.value "ValidationError")
  | some window =>
    let expected ← compute held window.inputs.1 window.inputs.2 window.interval
    checkWindow item window expected
    return expected

end Records

/-! ### Evidence -/

section Evidence

variable [Platform] [Floats] [Isoformat]

/-- A time that may be missing. -/
def dumpTime : Option Time → Json
  | none => .null
  | some t => .str (Isoformat.isoformat t)

/-- A float that may be missing. -/
def dumpFloat : Option ℚ → Json
  | none => .null
  | some x => .float (Floats.repr x)

/-- The JSON of an interval. -/
def MeasurementInterval.dump (interval : MeasurementInterval) : Json :=
  .obj [("incident_id", .str interval.incidentId.val), ("start", .str (Isoformat.isoformat interval.start)),
    ("end", .str (Isoformat.isoformat interval.finish))]

/-- The JSON of a delta. -/
def Delta.dump (d : Delta) : Json :=
  .obj [("metric", .str d.metric), ("labels", .arr (d.labels.map fun l => .arr [.str l.1, .str l.2])),
    ("value", .float (Floats.repr d.value))]

/-- `TypeAdapter(Object).validate_json(window.model_dump_json())`. -/
def PaymentWindow.dump (w : PaymentWindow) : JsonObject :=
  [("kind", .str "payment_slice_window"), ("transformation", .str "payment-counter-window-v1"),
    ("service", .str w.service.name), ("interval", w.interval.dump),
    ("inputs", .arr [dumpItem w.inputs.1, dumpItem w.inputs.2]), ("status", .str w.status.text),
    ("window_start", dumpTime w.windowStart), ("window_end", dumpTime w.windowEnd),
    ("before_epoch", dumpFloat w.beforeEpoch), ("after_epoch", dumpFloat w.afterEpoch),
    ("request_counts", .arr (w.requestCounts.map Delta.dump)), ("latency", .arr (w.latency.map Delta.dump)),
    ("conflicts", .arr (w.conflicts.map Delta.dump))]

/-- What `derive_payment_window` observes of a window. -/
def PaymentWindow.observation (w : PaymentWindow) : Except Fault Observation :=
  Observation.make .payment w.service.name (w.windowEnd.getD w.inputs.2.observedAt) DERIVED_QUERY
    ("Payment counter window: " ++ w.status.text) w.dump

variable [Numerals]

omit [Isoformat] in
/-- `snapshot_observation`; `now` is the result of `utc_now`. -/
def snapshotObservation (now : Time) (payload : JsonObject) (service : Service) : Except Fault Observation := do
  let parsed ← parsePayload payload service
  if Floats.timestamp now < parsed.evaluatedAt then
    throw (.integrity "snapshot timestamp is after collection")
  let observedAt ← Floats.fromTimestamp (parsed.watermark.getD parsed.evaluatedAt)
  Observation.make .prometheus service.name observedAt (snapshotQuery service)
    ("Payment snapshot for " ++ service.name ++ "; target available: " ++
      (if parsed.available then "True" else "False")) payload

variable [Hashing]

/-- `derive_payment_window`; `evidenceId` and `now` are drawn in `normalize`. -/
def derivePaymentWindow (evidenceId : Identifier) (now : Time) (before after : EvidenceItem)
    (interval : MeasurementInterval) : Storing EvidenceItem := do
  let held ← Storing.current
  let window ← Storing.lift (compute held before after interval)
  let observation ← Storing.lift window.observation
  normalize evidenceId now observation interval.incidentId.val (some (min before.observedAt interval.start))
    (some (max after.collectedAt interval.finish))

end Evidence

end PayOps.Evidence.Payment
