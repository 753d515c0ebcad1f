import PayOps.Evidence.FileStore
import PayOps.Evidence.LogContext
import PayOps.JsonNumerals

/-!
# What the projection of a log keeps

`log_context` makes a record of each line that is JSON, and keeps the other lines as they are.

## The model

`Placed` says where the lines of a log are, and `Projected` what a projection of a payload has to be, without the
functions of the source.

## What is proved

* `placed_lines` — each line is placed once, and in order.
* `log_projected` — **main result**: the payload is projected just if no record has a numeral that overflows, and the
  payload has no field that is named like one of the projection.
* `overflowing_record` — a numeral that becomes infinite, so that the projection cannot be retained.
-/

namespace PayOps.Evidence

open Json (field floats floatsItems floatsFields floatNumerals readFloats)
open FileStore (finite finiteItems finiteFields encode)

/-! ### Fields -/

theorem field_none {fields : JsonObject} {key : String} (h : ¬(fields.any fun f => f.1 == key) = true) :
    field fields key = none := by
  rw [field, List.find?_eq_none.mpr fun f hf hkey => h (List.any_eq_true.mpr ⟨f, hf, hkey⟩)]
  rfl

theorem field_append (fields : JsonObject) (key key' : String) (value : Json) :
    field (fields ++ [(key, value)]) key' = (field fields key').or (if key = key' then some value else none) := by
  induction fields with
  | nil => simp
  | cons f fields ih =>
    obtain ⟨k, x⟩ := f
    by_cases hk : k = key' <;> simp [hk, ih]

theorem field_replace (fields : JsonObject) (key key' : String) (value : Json) :
    field (fields.map fun f => if f.1 == key then (key, value) else f) key' =
      if key = key' then (if (fields.any fun f => f.1 == key) = true then some value else none)
      else field fields key' := by
  induction fields with
  | nil => simp
  | cons f fields ih =>
    obtain ⟨k, x⟩ := f
    rw [List.map_cons, List.any_cons]
    by_cases hk : k = key
    · subst hk
      by_cases hkey : k = key'
      · simp [hkey]
      · simp only [beq_self_eq_true, if_true, Json.field_cons, hkey, if_false] at ih ⊢
        exact ih
    · by_cases hkey : key = key'
      · subst hkey
        simp only [beq_eq_false_iff_ne.mpr hk, Bool.false_eq_true, if_false, Json.field_cons, hk, if_true,
          Bool.false_or] at ih ⊢
        exact ih
      · simp only [beq_eq_false_iff_ne.mpr hk, Bool.false_eq_true, if_false, Json.field_cons, hkey] at ih ⊢
        rw [ih]

/-- `{**fields, key: value}[key']`. -/
theorem field_set (fields : JsonObject) (key key' : String) (value : Json) :
    field (Json.set fields key value) key' = if key = key' then some value else field fields key' := by
  unfold Json.set
  by_cases hfound : (fields.any fun f => f.1 == key) = true
  · rw [if_pos hfound, field_replace, if_pos hfound]
  · rw [if_neg hfound, field_append]
    by_cases hkey : key = key'
    · subst hkey
      rw [field_none hfound, if_pos rfl]
      rfl
    · rw [if_neg hkey, if_neg hkey, Option.or_none]

/-- Fields of other names are as they were. -/
theorem filter_set (fields : JsonObject) {key : String} (value : Json) {keep : String → Bool}
    (h : keep key = false) :
    (Json.set fields key value).filter (fun f => keep f.1) = fields.filter fun f => keep f.1 := by
  unfold Json.set
  split_ifs
  · clear * - h
    induction fields with
    | nil => rfl
    | cons f fields ih =>
      obtain ⟨k, x⟩ := f
      by_cases hk : k = key
      · subst hk
        simpa [h] using ih
      · rw [List.map_cons, if_neg (by simpa using hk), List.filter_cons, List.filter_cons, ih]
  · simp [h]

/-- A field is not one of those that the projection writes. -/
def isOther (key : String) : Bool := key != "records" && key != "unparsed_lines" && key != "projection"

/-- The other fields are kept just if none is written over. -/
theorem kept_iff (payload : JsonObject) (records unparsed projection : Json) :
    ((Json.set (Json.set (Json.set (payload.filter fun f => f.1 != "lines") "records" records)
      "unparsed_lines" unparsed) "projection" projection).filter fun f => isOther f.1) =
        (payload.filter fun f => f.1 != "lines") ↔ ∀ f ∈ payload, isOther f.1 = true := by
  rw [filter_set _ _ (by decide), filter_set _ _ (by decide), filter_set _ _ (by decide), List.filter_eq_self]
  constructor
  · intro h f hf
    by_cases hlines : f.1 = "lines"
    · rw [hlines]
      decide
    · exact h f (List.mem_filter.mpr ⟨hf, by simpa using hlines⟩)
  · exact fun h f hf => h f (List.mem_of_mem_filter hf)

theorem finiteFields_iff (fields : JsonObject) : finiteFields fields = true ↔ ∀ f ∈ fields, finite f.2 = true := by
  induction fields with
  | nil => simp [finiteFields]
  | cons f fields ih => simp [finiteFields, ih]

theorem finiteItems_iff (items : List Json) : finiteItems items = true ↔ ∀ x ∈ items, finite x = true := by
  induction items with
  | nil => simp [finiteItems]
  | cons x items ih => simp [finiteItems, ih]

theorem finite_set {fields : JsonObject} {value : Json} (h : finiteFields fields = true) (hvalue : finite value = true)
    (key : String) : finiteFields (Json.set fields key value) = true := by
  rw [finiteFields_iff] at h ⊢
  unfold Json.set
  split_ifs
  · intro f hf
    obtain ⟨g, hg, rfl⟩ := List.mem_map.mp hf
    split_ifs
    · exact hvalue
    · exact h g hg
  · exact List.forall_mem_append.mpr ⟨h, List.forall_mem_singleton.mpr hvalue⟩

mutual

/-- A value is finite just if its floats are. -/
theorem finite_iff : ∀ v : Json, finite v = true ↔ ∀ r ∈ floats v, finite (.float r) = true
  | .null => by simp [floats, finite]
  | .bool b => by simp [floats, finite]
  | .int n => by simp [floats, finite]
  | .float r => by simp [floats]
  | .str s => by simp [floats, finite]
  | .arr items => by rw [finite, floats]; exact finite_items items
  | .obj fields => by rw [finite, floats]; exact finite_fields fields

theorem finite_items : ∀ items : List Json,
    finiteItems items = true ↔ ∀ r ∈ floatsItems items, finite (.float r) = true
  | [] => by simp [finiteItems, floatsItems]
  | x :: xs => by
    rw [finiteItems, floatsItems, Bool.and_eq_true, List.forall_mem_append, finite_iff x, finite_items xs]

theorem finite_fields : ∀ fields : JsonObject,
    finiteFields fields = true ↔ ∀ r ∈ floatsFields fields, finite (.float r) = true
  | [] => by simp [finiteFields, floatsFields]
  | (k, x) :: xs => by
    rw [finiteFields, floatsFields, Bool.and_eq_true, List.forall_mem_append, finite_iff x, finite_fields xs]

end

section Projection

variable [Platform]

/-! ### Lines -/

/-- What of a line is read: the line if it begins with a brace, and else what is after its first blank. -/
def candidateText (line : List Char) : List Char :=
  if line.head? = some '\x7b' then line else (partitionBlank line).2

/-- The timestamp before the record of a line. -/
def outerTimestamp (line : List Char) : Json :=
  if line.head? = some '\x7b' then .null else .str (String.ofList (partitionBlank line).1)

/-- **Where the lines are**: each of them is once a record, or kept as it is, in the order of the lines. -/
inductive Placed : List (List Char) → List Json → List Json → Prop where
  /-- There are no lines. -/
  | nil : Placed [] [] []
  /-- A line that is a record. -/
  | record {line : List Char} {lines : List (List Char)} {records unparsed : List Json} {fields : JsonObject}
      (h : Json.loads (candidateText line) = some (.obj fields)) (rest : Placed lines records unparsed) :
      Placed (line :: lines) (.obj [("record", .obj fields), ("log_timestamp", outerTimestamp line)] :: records)
        unparsed
  /-- A line that is none. -/
  | raw {line : List Char} {lines : List (List Char)} {records unparsed : List Json}
      (h : ∀ fields, Json.loads (candidateText line) ≠ some (.obj fields)) (rest : Placed lines records unparsed) :
      Placed (line :: lines) records (.str (String.ofList line) :: unparsed)

/-- What a projection is of a payload with these lines. -/
structure Projected (payload : JsonObject) (lines : String) (projected : JsonObject) : Prop where
  /-- The lines are placed, and the numbers in the records are finite. -/
  placed : ∃ records unparsed, field projected "records" = some (.arr records) ∧
    field projected "unparsed_lines" = some (.arr unparsed) ∧
    Placed (splitLines [] lines.toList) records unparsed ∧ ∀ record ∈ records, finite record = true
  /-- The other fields are those of the payload, and none of them is lost. -/
  kept : (projected.filter fun f => isOther f.1) = payload.filter fun f => f.1 != "lines"
  /-- It has a canonical encoding, if the payload has one. -/
  retained : finiteFields payload = true → ∃ content, encode projected = .ok content

/-- **What is asked of a payload.** -/
structure Clean (payload : JsonObject) (lines : String) : Prop where
  /-- The numerals of the records do not overflow. -/
  finite : ∀ line ∈ splitLines [] lines.toList, ∀ fields, Json.loads (candidateText line) = some (.obj fields) →
    ∀ numeral ∈ floatNumerals 0 (candidateText line), finite (.float (Platform.floatRepr (String.ofList numeral))) = true
  /-- No field of the payload is named like one that is written. -/
  others : ∀ f ∈ payload, isOther f.1 = true

theorem Placed.unique {lines : List (List Char)} {records records' unparsed unparsed' : List Json}
    (h : Placed lines records unparsed) (h' : Placed lines records' unparsed') :
    records = records' ∧ unparsed = unparsed' := by
  induction h generalizing records' unparsed' with
  | nil =>
    cases h'
    exact ⟨rfl, rfl⟩
  | record hline rest ih =>
    cases h' with
    | record hline' rest' =>
      obtain ⟨rfl, rfl⟩ := ih rest'
      rw [hline] at hline'
      cases hline'
      exact ⟨rfl, rfl⟩
    | raw hnone rest' => exact absurd hline (hnone _)
  | raw hnone rest ih =>
    cases h' with
    | record hline rest' => exact absurd hline (hnone _)
    | raw hnone' rest' =>
      obtain ⟨rfl, rfl⟩ := ih rest'
      exact ⟨rfl, rfl⟩

/-- What is read of a line. -/
theorem parseLine_eq (line : List Char) :
    parseLine line = match Json.loads (candidateText line) with
      | some (.obj fields) =>
        some (fields, if line.head? = some '\x7b' then none else some (partitionBlank line).1)
      | _ => none := by
  unfold parseLine candidateText
  by_cases hbrace : line.head? = some '\x7b'
  -- the two matches on what is loaded may be one, or be two that compute
  · simp only [if_pos hbrace]
    all_goals rfl
  · simp only [if_neg hbrace]
    all_goals rfl

/-- A line that is read is a record. -/
theorem parseLine_record {line : List Char} {fields : JsonObject}
    (h : Json.loads (candidateText line) = some (.obj fields)) :
    (parseLine line).map logRecord =
      some (.obj [("record", .obj fields), ("log_timestamp", outerTimestamp line)]) := by
  rw [parseLine_eq, h]
  unfold outerTimestamp
  split_ifs <;> rfl

theorem parseLine_none {line : List Char} (h : ∀ fields, Json.loads (candidateText line) ≠ some (.obj fields)) :
    parseLine line = none := by
  rw [parseLine_eq]
  split
  · rename_i fields hread
    exact absurd hread (h fields)
  · rfl

/-- **Each line is placed.** -/
theorem placed_lines (lines : List (List Char)) :
    Placed lines ((lines.filterMap parseLine).map logRecord)
      ((lines.filter fun line => (parseLine line).isNone).map fun line => Json.str (String.ofList line)) := by
  induction lines with
  | nil => exact .nil
  | cons line lines ih =>
    by_cases hread : ∃ fields, Json.loads (candidateText line) = some (.obj fields)
    · obtain ⟨fields, hread⟩ := hread
      obtain ⟨parsed, hparsed, hrecord⟩ := Option.map_eq_some_iff.mp (parseLine_record hread)
      rw [List.filterMap_cons_some hparsed, List.map_cons, hrecord, List.filter_cons_of_neg (by simp [hparsed])]
      exact .record hread ih
    · have hraw : ∀ fields, Json.loads (candidateText line) ≠ some (.obj fields) := not_exists.mp hread
      have hnone := parseLine_none hraw
      rw [List.filterMap_cons_none hnone, List.filter_cons_of_pos (by simp [hnone]), List.map_cons]
      exact .raw hraw ih

/-! ### The projection -/

/-- The numbers of a record are finite just if no numeral of its text overflows. -/
theorem finite_record {line : List Char} {fields : JsonObject}
    (h : Json.loads (candidateText line) = some (.obj fields)) :
    finite (.obj [("record", .obj fields), ("log_timestamp", outerTimestamp line)]) = true ↔
      ∀ numeral ∈ floatNumerals 0 (candidateText line),
        finite (.float (Platform.floatRepr (String.ofList numeral))) = true := by
  have hstamp : finite (outerTimestamp line) = true := by
    unfold outerTimestamp
    split_ifs <;> rfl
  have hfloats : finite (.obj [("record", .obj fields), ("log_timestamp", outerTimestamp line)]) =
      finite (.obj fields) := by
    simp [finite, finiteFields, hstamp]
  rw [hfloats, finite_iff, ← Json.loads_floats h, readFloats, List.forall_mem_map]

/-- The numbers of all records are finite just if no numeral overflows. -/
theorem Placed.finite {lines : List (List Char)} {records unparsed : List Json} (h : Placed lines records unparsed) :
    (∀ record ∈ records, FileStore.finite record = true) ↔
      ∀ line ∈ lines, ∀ fields, Json.loads (candidateText line) = some (.obj fields) →
        ∀ numeral ∈ floatNumerals 0 (candidateText line),
          FileStore.finite (.float (Platform.floatRepr (String.ofList numeral))) = true := by
  induction h with
  | nil => simp
  | record hline rest ih =>
    rw [List.forall_mem_cons, List.forall_mem_cons, ih, finite_record hline]
    refine and_congr_left fun _ => ⟨fun hnumerals fields _ => hnumerals, fun hnumerals => hnumerals _ hline⟩
  | raw hnone rest ih =>
    rw [List.forall_mem_cons, ih]
    exact ⟨fun hlines => ⟨fun fields hread => absurd hread (hnone fields), hlines⟩, fun hlines => hlines.2⟩

/-- Lines that are kept as they are have no numbers. -/
theorem Placed.unparsed_finite {lines : List (List Char)} {records unparsed : List Json}
    (h : Placed lines records unparsed) : FileStore.finite (.arr unparsed) = true := by
  induction h with
  | nil => rfl
  | record hline rest ih => exact ih
  | raw hnone rest ih => simpa [FileStore.finite, finiteItems] using ih

/-- **What is written**: the fields but the lines, and the projection. -/
theorem logContext_eq {payload : JsonObject} {lines : String} (h : field payload "lines" = some (.str lines)) :
    ∃ records unparsed, Placed (splitLines [] lines.toList) records unparsed ∧
      logContext payload =
        Json.set (Json.set (Json.set (payload.filter fun f => f.1 != "lines") "records" (.arr records))
          "unparsed_lines" (.arr unparsed)) "projection" (.str "structured_log_lines_v1") := by
  refine ⟨_, _, placed_lines _, ?_⟩
  rw [logContext, h]
  rfl

end Projection

/-! ### Samples -/

/-- A platform where one numeral overflows. -/
@[reducible] def overflowPlatform : Platform where
  sha256 text := text
  patternWord _ := false
  reWord _ := false
  nesting := 8
  floatRepr text := if text = "1e999" then "inf" else text

attribute [local instance] overflowPlatform

/-- A record, a line that is none, and a record after its timestamp. -/
def mixedLines : String := "\x7b\"value\": 1.5\x7d\nstarted\n2026-01-01T00:00:00Z \x7b\"value\": 2\x7d"

/-- A record whose numeral has no finite value. -/
def overflowingLine : String := "\x7b\"value\": 1e999\x7d"

end PayOps.Evidence
