import PayOps.Evidence.TraceLog

/-!
# Trace spans that are read again

## What is proved

* `TraceSpan.validate_dump` — **main result**: a span is read again as what it was, if its times are.
-/

namespace PayOps.Evidence.Trace

open Json (field asStr sorted)
open FileStore (Hashing)
open Orchestrator (Service)
open Payment (serviceOf strictTime nullable)

variable [Platform] [Isoformat] [Datetimes]

/-- A time of a strict model is read back. -/
def TimeRead (t : Time) : Prop := Datetimes.strict (Isoformat.isoformat t) = some t

omit [Platform] [Isoformat] [Datetimes] in
theorem serviceOf_name (service : Service) : serviceOf service.name = some service := by
  cases service <;> decide

theorem TraceScope.validate_dump {scope : TraceScope} (hstart : TimeRead scope.start)
    (hfinish : TimeRead scope.finish) :
    TraceScope.validate (sorted scope.dump) = some scope := by
  obtain ⟨incidentId, service, start, finish, hbounded⟩ := scope
  rw [TraceScope.dump, sorted_obj, TraceScope.validate]
  generalize hfields : [("incident_id", Json.str incidentId.val), ("namespace", .str "payops-sandbox"),
    ("service", .str service.name), ("start", .str (Isoformat.isoformat start)),
    ("end", .str (Isoformat.isoformat finish))] = fields
  have hkeys : (fields.map Prod.fst).Nodup := by
    rw [← hfields]
    show ["incident_id", "namespace", "service", "start", "end"].Nodup
    decide
  simp only [identifierField, strictTime, textField_reread hkeys, onlyFields_reread,
    literalField_reread hkeys _ fun _ => sorted_eq_str]
  subst hfields
  simp only [TimeRead] at hstart hfinish
  simp [textField, literalField, onlyFields, Json.asStr, serviceOf_name, hstart, hfinish]
  exact ⟨sub_pos.mp hbounded.1, sub_le_iff_le_add.mp hbounded.2⟩

omit [Platform] in
/-- The fields of a span that is read again. -/
theorem SourceSpan.validate_fields {span : SourceSpan} (hstart : TimeRead span.startTime)
    (hend : TimeRead span.endTime) :
    SourceSpan.validate (some (.str span.name.val)) (some (.str span.traceId.val)) (some (.str span.spanId.val))
      (some (dumpId span.parentId)) (some (.str span.kind.text)) (some (.str (Isoformat.isoformat span.startTime)))
      (some (.str (Isoformat.isoformat span.endTime))) (some (.str span.statusCode.text))
      (some (.str span.serviceName.val)) = some span := by
  obtain ⟨⟨name, hname⟩, ⟨traceId, htrace⟩, ⟨spanId, hspan⟩, parentId, kind, startTime, endTime, statusCode,
    ⟨serviceName, hservice⟩, valid⟩ := span
  simp only [TimeRead] at hstart hend
  have hkind : ([SpanKind.client, .server].find? fun k => some (Json.str kind.text) == some (.str k.text)) =
      some kind := by
    cases kind <;> decide
  have hstatus : ([StatusCode.unset, .ok, .error].find? fun s =>
      some (Json.str statusCode.text) == some (.str s.text)) = some statusCode := by
    cases statusCode <;> decide
  have hchecks : ((1 ≤ name.toList.length ∧ name.toList.length ≤ 80) ∧ hexId 32 traceId = true ∧
      hexId 16 spanId = true) ∧ 1 ≤ serviceName.toList.length ∧ serviceName.toList.length ≤ 80 :=
    ⟨⟨hname, htrace, hspan⟩, hservice⟩
  rcases parentId with - | ⟨parent, hparent⟩
  · simp only [SourceSpan.validate, dumpId, Option.bind_some, asStr, hkind, hstatus, hstart, hend, Option.bind_eq_bind,
      dif_pos hchecks, dif_pos valid]
  · simp only [SourceSpan.validate, dumpId, Option.bind_some, asStr, hkind, hstatus, hstart, hend, Option.bind_eq_bind,
      dif_pos hchecks, dif_pos hparent, dif_pos valid]

omit [Platform] in
theorem SourceSpan.read_dump {span : SourceSpan} (hstart : TimeRead span.startTime) (hend : TimeRead span.endTime) :
    SourceSpan.read (sorted span.dump) = some span := by
  rw [SourceSpan.dump, sorted_obj, SourceSpan.read]
  generalize hfields : [("name", Json.str span.name.val), ("trace_id", .str span.traceId.val),
    ("span_id", .str span.spanId.val), ("parent_id", dumpId span.parentId), ("kind", .str span.kind.text),
    ("start_time", .str (Isoformat.isoformat span.startTime)), ("end_time", .str (Isoformat.isoformat span.endTime)),
    ("status_code", .str span.statusCode.text), ("service_name", .str span.serviceName.val)] = fields
  have hkeys : (fields.map Prod.fst).Nodup := by
    rw [← hfields]
    show spanNames.Nodup
    decide
  have hparent : sorted (dumpId span.parentId) = dumpId span.parentId := by
    cases span.parentId <;> rfl
  have honly : onlyFields fields spanNames = true := by
    rw [← hfields]
    simp [onlyFields, spanNames]
  simp only [onlyFields_reread, honly, field_reread hkeys]
  subst hfields
  simp only [field, List.find?]
  simpa [hparent, sorted] using SourceSpan.validate_fields hstart hend

omit [Platform] in
theorem CapturedSpan.read_dump {record : CapturedSpan}
    (hspan : TimeRead record.span.startTime ∧ TimeRead record.span.endTime) (hstart : TimeRead record.logStart)
    (hend : TimeRead record.logEnd) : CapturedSpan.read (sorted record.dump) = some record := by
  obtain ⟨span, logStart, logEnd, hordered⟩ := record
  rw [CapturedSpan.dump, sorted_obj, CapturedSpan.read]
  generalize hfields : [("span", span.dump), ("log_start", Json.str (Isoformat.isoformat logStart)),
    ("log_end", .str (Isoformat.isoformat logEnd))] = fields
  have hkeys : (fields.map Prod.fst).Nodup := by
    rw [← hfields]
    show ["span", "log_start", "log_end"].Nodup
    decide
  simp only [strictTime, textField_reread hkeys, onlyFields_reread, field_reread hkeys]
  subst hfields
  simp only [TimeRead] at hstart hend
  simp [textField, onlyFields, Json.asStr, SourceSpan.read_dump hspan.1 hspan.2, hstart, hend,
    CapturedSpan.validate, hordered, Except.toOption]

/-! ### Trace spans -/

/-- The times of a span that is derived. -/
def TraceSpan.times (derived : TraceSpan) : List Time :=
  [derived.scope.start, derived.scope.finish, derived.source.observedAt, derived.source.collectedAt,
    derived.record.span.startTime, derived.record.span.endTime, derived.record.logStart, derived.record.logEnd]

omit [Platform] [Isoformat] [Datetimes] in
/-- A number that is read again. -/
theorem natField_reread {fields : JsonObject} (hkeys : (fields.map Prod.fst).Nodup) {key : String} {n : ℕ}
    (h : field fields key = some (.int n)) : natField (reread fields) key = some n := by
  rw [natField, field_reread hkeys, h]
  simp [sorted]

omit [Platform] [Isoformat] [Datetimes] in
/-- A text that is read again. -/
theorem checkedField_reread {ok : String → Prop} [DecidablePred ok] {fields : JsonObject}
    (hkeys : (fields.map Prod.fst).Nodup) {key : String} {s : { s : String // ok s }}
    (h : textField fields key = some s.val) : checkedField ok (reread fields) key = some s := by
  rw [checkedField, textField_reread hkeys, h, Option.bind_some, dif_pos s.property]

omit [Datetimes] in
theorem TraceSpan.dump_keys (derived : TraceSpan) : (derived.dump.map Prod.fst).Nodup := by
  show traceNames.Nodup
  decide

omit [Datetimes] in
/-- A field of a span that is read again. -/
theorem TraceSpan.field_dump (derived : TraceSpan) {key : String} {x : Json} (h : field derived.dump key = some x) :
    field (reread derived.dump) key = some (sorted x) := by
  rw [field_reread derived.dump_keys, h]
  rfl

/-- **A span is read again** as what it was. -/
theorem TraceSpan.validate_dump [Hashing] {derived : TraceSpan} (h : Reliable derived.times) :
    TraceSpan.validate (reread derived.dump) = some derived := by
  have hkeys := derived.dump_keys
  have htime : ∀ t ∈ derived.times, TimeRead t := h.strict
  have hscope : (field (reread derived.dump) "scope").bind TraceScope.validate = some derived.scope := by
    rw [derived.field_dump (x := derived.scope.dump) rfl, Option.bind_some]
    exact TraceScope.validate_dump (htime _ (by simp [times])) (htime _ (by simp [times]))
  have hsource : (field (reread derived.dump) "source").bind EvidenceItem.validate = some derived.source := by
    rw [derived.field_dump (x := dumpItem derived.source) rfl, Option.bind_some]
    exact validate_dumpItem ⟨h.lax _ (by simp [times]), h.lax _ (by simp [times])⟩
  have hrecord : (field (reread derived.dump) "record").bind CapturedSpan.read = some derived.record := by
    rw [derived.field_dump (x := derived.record.dump) rfl, Option.bind_some]
    exact CapturedSpan.read_dump ⟨htime _ (by simp [times]), htime _ (by simp [times])⟩ (htime _ (by simp [times]))
      (htime _ (by simp [times]))
  have hordinal : natField (reread derived.dump) "ordinal" = some derived.ordinal := natField_reread hkeys rfl
  have hduration : natField (reread derived.dump) "duration_microseconds" = some derived.durationMicroseconds :=
    natField_reread hkeys rfl
  have htrace : checkedField (hexText 32 · = true) (reread derived.dump) "trace_id" = some derived.traceId :=
    checkedField_reread hkeys rfl
  have hspan : checkedField (hexText 16 · = true) (reread derived.dump) "span_id" = some derived.spanId :=
    checkedField_reread hkeys rfl
  have hparent : nullable (fun v => v.asStr.bind fun s => if h : hexText 16 s = true then
      some (⟨s, h⟩ : { s : String // hexText 16 s = true }) else none) (reread derived.dump) "parent_id" =
        some derived.parentId := by
    rw [nullable, derived.field_dump (x := dumpId derived.parentId) rfl]
    rcases derived.parentId with - | ⟨parent, hok⟩
    · rfl
    · simp [dumpId, sorted, Json.asStr, hok]
  have hliteral (key text : String) : literalField (reread derived.dump) key (.str text) =
      literalField derived.dump key (.str text) := literalField_reread hkeys key fun _ => sorted_eq_str
  have hdiagnostic : literalField (reread derived.dump) "diagnostic_only" (.bool true) = true := by
    rw [literalField_reread hkeys _ fun _ => sorted_eq_bool]
    simp [literalField, TraceSpan.dump]
  have htransformation : literalField derived.dump "transformation" (.str "trace-console-span-v1") = true := by
    simp [literalField, TraceSpan.dump]
  have honly : onlyFields derived.dump traceNames = true := by
    simp [onlyFields, TraceSpan.dump, traceNames]
  have hchecks : derived.ordinal < MAX_SPANS ∧
      (literalField (reread derived.dump) "transformation" (.str "trace-console-span-v1") &&
        literalField (reread derived.dump) "diagnostic_only" (.bool true) &&
        onlyFields (reread derived.dump) traceNames) = true := by
    refine ⟨derived.bounded, ?_⟩
    rw [hliteral, htransformation, hdiagnostic, onlyFields_reread, honly]
    rfl
  simp only [TraceSpan.validate, hscope, hsource, hordinal, htrace, hspan, hparent, hduration, hrecord,
    Option.bind_eq_bind, Option.bind_some, dif_pos hchecks]

end PayOps.Evidence.Trace
