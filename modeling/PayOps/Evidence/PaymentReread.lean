import PayOps.Evidence.Derived
import PayOps.Evidence.PaymentWindow

/-!
# Payment windows that are read again

## What is proved

* `PaymentWindow.validate_dump` — a window is read again as what it was, if its times and its floats are.
* `compute_of`, `verifyPaymentWindow_of` — what is computed, and what passes.
-/

namespace PayOps.Evidence.Payment

open Json (field sorted)
open FileStore (Hashing finiteFields)
open Orchestrator (Service)

variable [Platform] [Floats] [Numerals] [Isoformat] [Datetimes]

/-- A float is read back from its representation. -/
def FloatRead (x : ℚ) : Prop := Numerals.value (Floats.repr x) = some x

/-- A time of a strict model is read back. -/
def TimeRead (t : Time) : Prop := Datetimes.strict (Isoformat.isoformat t) = some t

omit [Platform] [Isoformat] [Datetimes] in
theorem Delta.validate_dump {d : Delta} (h : FloatRead d.value) : Delta.validate (sorted d.dump) = some d := by
  obtain ⟨metric, labels, x, hnonneg⟩ := d
  rw [Delta.dump, sorted_obj, Delta.validate]
  have hlabels : (labels.map fun l => Json.arr [.str l.1, .str l.2]).mapM validateLabel = some labels := by
    rw [List.mapM_map]
    exact (mapM_some fun l _ => rfl).trans (by simp)
  have hsorted : Json.sortedItems (labels.map fun l => .arr [.str l.1, .str l.2]) =
      labels.map fun l => .arr [.str l.1, .str l.2] := by
    rw [Json.sortedItems_map, List.map_map]
    rfl
  generalize hfields : [("metric", Json.str metric), ("labels", .arr (labels.map fun l => .arr [.str l.1, .str l.2])),
    ("value", .float (Floats.repr x))] = fields
  have hkeys : (fields.map Prod.fst).Nodup := by
    rw [← hfields]
    show ["metric", "labels", "value"].Nodup
    decide
  simp only [textField_reread hkeys, onlyFields_reread, field_reread hkeys]
  subst hfields
  simp only [FloatRead] at h
  simp [textField, onlyFields, Json.asStr, Json.asArr, hsorted, hlabels, strictFloat, sorted, h, hnonneg]

omit [Floats] [Numerals] in
theorem MeasurementInterval.validate_dump {interval : MeasurementInterval} (hstart : TimeRead interval.start)
    (hfinish : TimeRead interval.finish) : MeasurementInterval.validate (sorted interval.dump) = some interval := by
  obtain ⟨incidentId, start, finish, hbounded⟩ := interval
  rw [MeasurementInterval.dump, sorted_obj, MeasurementInterval.validate]
  generalize hfields : [("incident_id", Json.str incidentId.val), ("start", .str (Isoformat.isoformat start)),
    ("end", .str (Isoformat.isoformat finish))] = fields
  have hkeys : (fields.map Prod.fst).Nodup := by
    rw [← hfields]
    show ["incident_id", "start", "end"].Nodup
    decide
  simp only [identifierField, strictTime, textField_reread hkeys, onlyFields_reread]
  subst hfields
  simp only [TimeRead] at hstart hfinish
  simp [textField, onlyFields, Json.asStr, hstart, hfinish]
  exact ⟨sub_pos.mp hbounded.1, sub_le_iff_le_add.mp hbounded.2⟩

omit [Platform] [Isoformat] [Datetimes] in
theorem deltas_dump {ds : List Delta} (h : ∀ d ∈ ds, FloatRead d.value) :
    ((ds.map Delta.dump).map sorted).mapM Delta.validate = some ds := by
  rw [List.map_map, List.mapM_map]
  exact (mapM_some fun d hd => Delta.validate_dump (h d hd)).trans (by simp)

/-- What is read back of a window. -/
structure PaymentWindow.Reads (w : PaymentWindow) : Prop where
  /-- The times of the interval. -/
  interval : TimeRead w.interval.start ∧ TimeRead w.interval.finish
  /-- The times of the snapshots. -/
  inputs : TimesRead w.inputs.1 ∧ TimesRead w.inputs.2
  /-- The times of the scrapes. -/
  scraped : (∀ t ∈ w.windowStart, TimeRead t) ∧ ∀ t ∈ w.windowEnd, TimeRead t
  /-- The beginnings of the process. -/
  process : (∀ x ∈ w.beforeEpoch, FloatRead x) ∧ ∀ x ∈ w.afterEpoch, FloatRead x
  /-- The values. -/
  deltas : ∀ d ∈ w.deltas, FloatRead d.value

omit [Platform] [Floats] [Numerals] in
/-- A time that may be missing. -/
theorem nullable_time {fields : JsonObject} {key : String} {t : Option Time} (hfield : field fields key = some (dumpTime t))
    (h : ∀ s ∈ t, TimeRead s) : nullable (fun v => v.asStr.bind Datetimes.strict) fields key = some t := by
  rw [nullable, hfield]
  cases t with
  | none => rfl
  | some s => simp [dumpTime, Json.asStr, show Datetimes.strict (Isoformat.isoformat s) = some s from h s rfl]

omit [Platform] [Isoformat] [Datetimes] in
/-- A float that may be missing. -/
theorem nullable_float {fields : JsonObject} {key : String} {x : Option ℚ} (hfield : field fields key = some (dumpFloat x))
    (h : ∀ y ∈ x, FloatRead y) : nullable strictFloat fields key = some x := by
  rw [nullable, hfield]
  cases x with
  | none => rfl
  | some y => simp [dumpFloat, strictFloat, show Numerals.value (Floats.repr y) = some y from h y rfl]

omit [Platform] [Numerals] [Isoformat] [Datetimes] in
theorem sorted_dumpFloat (x : Option ℚ) : sorted (dumpFloat x) = dumpFloat x := by cases x <;> rfl

omit [Platform] [Floats] [Numerals] [Datetimes] in
theorem sorted_dumpTime (t : Option Time) : sorted (dumpTime t) = dumpTime t := by cases t <;> rfl

omit [Platform] [Floats] [Numerals] [Isoformat] [Datetimes] in
theorem serviceOf_name (service : Service) : serviceOf service.name = some service := by
  cases service <;> decide

omit [Numerals] [Datetimes] in
/-- The names of the fields of a window. -/
theorem PaymentWindow.dump_keys (w : PaymentWindow) : (w.dump.map Prod.fst).Nodup := by
  show windowNames.Nodup
  decide

omit [Numerals] [Datetimes] in
/-- A field of a window that is read again. -/
theorem PaymentWindow.field_dump (w : PaymentWindow) {key : String} {x : Json} (h : field w.dump key = some x) :
    field (reread w.dump) key = some (sorted x) := by
  rw [field_reread w.dump_keys, h]
  rfl

omit [Datetimes] in
/-- Deltas are read again. -/
theorem PaymentWindow.deltasField_dump (w : PaymentWindow) {key : String} {ds : List Delta}
    (h : field w.dump key = some (.arr (ds.map Delta.dump))) (hds : ∀ d ∈ ds, FloatRead d.value) :
    deltasField (reread w.dump) key = some ds := by
  rw [deltasField, w.field_dump h, sorted, Json.sortedItems_map]
  exact deltas_dump hds

/-- **A window is read again** as what it was. -/
theorem PaymentWindow.validate_dump {w : PaymentWindow} (h : w.Reads) :
    PaymentWindow.validate (reread w.dump) = some w := by
  have htext (key : String) : textField (reread w.dump) key = textField w.dump key := textField_reread w.dump_keys key
  have hservice : (textField (reread w.dump) "service").bind serviceOf = some w.service := by
    rw [htext]
    exact serviceOf_name w.service
  have hinterval : (field (reread w.dump) "interval").bind MeasurementInterval.validate = some w.interval := by
    rw [w.field_dump (x := w.interval.dump) rfl]
    exact MeasurementInterval.validate_dump h.interval.1 h.interval.2
  have hinputs : (field (reread w.dump) "inputs").bind validateInputs = some w.inputs := by
    have hsorted : sorted (.arr [dumpItem w.inputs.1, dumpItem w.inputs.2]) =
        .arr [sorted (dumpItem w.inputs.1), sorted (dumpItem w.inputs.2)] := rfl
    rw [w.field_dump (x := .arr [dumpItem w.inputs.1, dumpItem w.inputs.2]) rfl, hsorted, Option.bind_some,
      validateInputs, validate_dumpItem h.inputs.1, validate_dumpItem h.inputs.2]
    rfl
  have hstatus : ([Status.complete, .missing, .reset, .mixedEpoch].find? fun status =>
      textField (reread w.dump) "status" == some status.text) = some w.status := by
    rw [htext, show textField w.dump "status" = some w.status.text from rfl]
    cases w.status <;> decide
  have hstart : nullable (fun v => v.asStr.bind Datetimes.strict) (reread w.dump) "window_start" = some w.windowStart :=
    nullable_time ((w.field_dump rfl).trans (congrArg some (sorted_dumpTime _))) h.scraped.1
  have hend : nullable (fun v => v.asStr.bind Datetimes.strict) (reread w.dump) "window_end" = some w.windowEnd :=
    nullable_time ((w.field_dump rfl).trans (congrArg some (sorted_dumpTime _))) h.scraped.2
  have hbefore : nullable strictFloat (reread w.dump) "before_epoch" = some w.beforeEpoch :=
    nullable_float ((w.field_dump rfl).trans (congrArg some (sorted_dumpFloat _))) h.process.1
  have hafter : nullable strictFloat (reread w.dump) "after_epoch" = some w.afterEpoch :=
    nullable_float ((w.field_dump rfl).trans (congrArg some (sorted_dumpFloat _))) h.process.2
  have hrequests : deltasField (reread w.dump) "request_counts" = some w.requestCounts :=
    w.deltasField_dump rfl fun d hd => h.deltas d (by simp [PaymentWindow.deltas, hd])
  have hlatency : deltasField (reread w.dump) "latency" = some w.latency :=
    w.deltasField_dump rfl fun d hd => h.deltas d (by simp [PaymentWindow.deltas, hd])
  have hconflicts : deltasField (reread w.dump) "conflicts" = some w.conflicts :=
    w.deltasField_dump rfl fun d hd => h.deltas d (by simp [PaymentWindow.deltas, hd])
  have hliteral (key text : String) : literalField (reread w.dump) key (.str text) = literalField w.dump key (.str text) :=
    literalField_reread w.dump_keys key fun _ => sorted_eq_str
  have hkind : literalField w.dump "kind" (.str "payment_slice_window") = true := by
    simp [literalField, PaymentWindow.dump]
  have htransformation : literalField w.dump "transformation" (.str "payment-counter-window-v1") = true := by
    simp [literalField, PaymentWindow.dump]
  have honly : onlyFields w.dump windowNames = true := by
    simp [onlyFields, PaymentWindow.dump, windowNames]
  simp only [PaymentWindow.validate, hservice, hinterval, hinputs, hstatus, hstart, hend, hbefore, hafter, hrequests,
    hlatency, hconflicts, hliteral, hkind, htransformation, onlyFields_reread, honly, Option.bind_eq_bind,
    Option.bind_some, Bool.and_self, if_true]

/-! ### What is computed again -/

section Verify

variable [Hashing]

omit [Datetimes] in
/-- **What `_compute` makes** of two snapshots that are verified and parsed. -/
theorem compute_of {held : Artifacts} {before after : EvidenceItem} {interval : MeasurementInterval}
    {envelope envelope' payload payload' : JsonObject} {service : Service} {first last : Parsed}
    (hbefore : verifyEnvelope held before = .ok envelope) (hafter : verifyEnvelope held after = .ok envelope')
    (hpayload : object (get envelope "payload") = .ok payload)
    (hpayload' : object (get envelope' "payload") = .ok payload')
    (hlineage : ¬(before.evidenceId = after.evidenceId ∨ before.incidentId ≠ interval.incidentId ∨
      after.incidentId ≠ interval.incidentId ∨ before.resource ≠ after.resource ∨ before.source ≠ .prometheus ∨
      after.source ≠ .prometheus))
    (hservice : serviceOf before.resource.val = some service) (hfirst : parse before payload service = .ok first)
    (hlast : parse after payload' service = .ok last) :
    compute held before after interval = assemble service before after interval first last := by
  simp only [compute, hbefore, hafter, hpayload, hpayload', hservice, if_neg hlineage, hfirst, hlast, bind, Except.bind]

/-- **What passes `verify_payment_window`**: a window that is read, and is the one that is computed. -/
theorem verifyPaymentWindow_of {held : Artifacts} {item : EvidenceItem} {envelope raw : JsonObject} {w : PaymentWindow}
    (henvelope : verifyEnvelope held item = .ok envelope) (hraw : object (get envelope "payload") = .ok raw)
    (hfinite : finiteFields raw = true) (hread : PaymentWindow.validate raw = some w)
    (hcompute : compute held w.inputs.1 w.inputs.2 w.interval = .ok w) (hcheck : checkWindow item w w = .ok ()) :
    verifyPaymentWindow held item = .ok w := by
  have hnot : ¬finiteFields raw = false := by simp [hfinite]
  simp only [verifyPaymentWindow, henvelope, hraw, if_neg hnot, hread, hcompute, hcheck, bind, Except.bind, pure,
    Except.pure]

end Verify

end PayOps.Evidence.Payment
