import PayOps.Evidence.Records
import PayOps.JsonReread

/-!
# Evidence that is read again

What becomes of a record between its publication as evidence and its verification: its keys are put in order, and
pydantic reads it.

## What is proved

* `textField_reread`, `field_reread` — the fields of a record whose keys are in order.
* `validate_dumpItem` — **main result**: an item is read again as what it was, if its times are.
-/

namespace PayOps.Evidence

open Json (field arrange sorted sortedFields field_sorted)

/-! ### Sorted records -/

/-- A record as it is read again: its keys are in order. -/
abbrev reread (fields : JsonObject) : JsonObject := arrange (sortedFields fields)

theorem sorted_obj (fields : JsonObject) : sorted (.obj fields) = .obj (reread fields) := by rw [sorted]

theorem onlyFields_reread (fields : JsonObject) (names : List String) :
    onlyFields (reread fields) names = onlyFields fields names := by
  unfold onlyFields reread arrange
  rw [(List.perm_insertionSort _ _).all_eq, Json.sortedFields_map, List.all_map]
  rfl

section Fields

variable {fields : JsonObject} (hkeys : (fields.map Prod.fst).Nodup) (key : String)

include hkeys

theorem field_reread : field (reread fields) key = (field fields key).map sorted := field_sorted hkeys key

theorem textField_reread : textField (reread fields) key = textField fields key := by
  unfold textField
  rw [field_reread hkeys]
  cases field fields key with
  | none => rfl
  | some v => cases v <;> simp [sorted, Json.asStr]

/-- A literal that is no list or mapping. -/
theorem literalField_reread {v : Json} (hv : ∀ x, sorted x = v ↔ x = v) :
    literalField (reread fields) key v = literalField fields key v := by
  unfold literalField
  rw [field_reread hkeys]
  cases field fields key with
  | none => rfl
  | some x => simp [hv]

end Fields

theorem sorted_eq_str {x : Json} {text : String} : sorted x = .str text ↔ x = .str text := by
  cases x <;> simp [sorted]

theorem sorted_eq_bool {x : Json} {b : Bool} : sorted x = .bool b ↔ x = .bool b := by
  cases x <;> simp [sorted]

theorem mapM_some {α β : Type} {f : α → Option β} {xs : List α} {g : α → β} (h : ∀ x ∈ xs, f x = some (g x)) :
    xs.mapM f = some (xs.map g) := by
  induction xs with
  | nil => rfl
  | cons x xs ih =>
    rw [List.mapM_cons, h x (by simp), ih fun y hy => h y (by simp [hy])]
    rfl

section Items

variable [Platform] [Isoformat] [Datetimes]

omit [Platform] [Isoformat] [Datetimes] in
theorem sourceOf_text (source : Source) : sourceOf (sourceText source) = some source := by
  cases source <;> decide

/-- The times of an item are read back. -/
def TimesRead (item : EvidenceItem) : Prop :=
  Datetimes.lax (.str (Isoformat.isoformat item.observedAt)) = some item.observedAt ∧
    Datetimes.lax (.str (Isoformat.isoformat item.collectedAt)) = some item.collectedAt

/-- **An item is read again** as what it was. -/
theorem validate_dumpItem {item : EvidenceItem} (h : TimesRead item) :
    EvidenceItem.validate (sorted (dumpItem item)) = some item := by
  obtain ⟨evidenceId, incidentId, source, observedAt, collectedAt, query, resource, artifactUri, artifactSha256,
    summary⟩ := item
  obtain ⟨hobserved, hcollected⟩ := h
  rw [dumpItem, sorted_obj, EvidenceItem.validate]
  generalize hfields : [("evidence_id", Json.str evidenceId.val), ("incident_id", .str incidentId.val),
    ("source", .str (sourceText source)), ("observed_at", .str (Isoformat.isoformat observedAt)),
    ("collected_at", .str (Isoformat.isoformat collectedAt)), ("query", .str query.val),
    ("resource", .str resource.val), ("artifact_uri", .str artifactUri.val),
    ("artifact_sha256", .str artifactSha256.val), ("summary", .str summary.val),
    ("untrusted_text", .bool true)] = fields
  have hkeys : (fields.map Prod.fst).Nodup := by
    rw [← hfields]
    show itemNames.Nodup
    decide
  simp only [identifierField, summaryField, timeField, textField_reread hkeys, onlyFields_reread, field_reread hkeys,
    literalField_reread hkeys _ fun _ => sorted_eq_bool]
  simp only at hobserved hcollected
  subst hfields
  simp [textField, literalField, onlyFields, itemNames, sorted, Json.asStr, sourceOf_text, hobserved, hcollected,
    validate_val]

end Items

end PayOps.Evidence
