import PayOps.JsonPatch

/-!
# JSON values with their keys in order

What `sort_keys` does to a value: the members of each mapping are put in the order of their keys.

## What is proved

* `field_arrange` — a mapping has the same members in any order.
* `dumps_sorted` — **main result**: the text with sorted keys is the text of the sorted value.
-/

namespace PayOps.Json

/-- The members of a mapping in the order of their keys. -/
def arrange (fields : JsonObject) : JsonObject := fields.insertionSort fun a b => a.1 ≤ b.1

mutual

/-- The value with the members of each mapping in order. -/
def sorted : Json → Json
  | .arr items => .arr (sortedItems items)
  | .obj fields => .obj (arrange (sortedFields fields))
  | v => v

/-- The items of a list, each of them sorted. -/
def sortedItems : List Json → List Json
  | [] => []
  | x :: xs => sorted x :: sortedItems xs

/-- The members of a mapping, each of them sorted, in their own order. -/
def sortedFields : List (String × Json) → List (String × Json)
  | [] => []
  | (key, x) :: xs => (key, sorted x) :: sortedFields xs

end

example : sorted (.obj [("b", .null), ("a", .arr [.obj [("d", .int 1), ("c", .int 2)]])]) =
    .obj [("a", .arr [.obj [("c", .int 2), ("d", .int 1)]]), ("b", .null)] := by decide

theorem sortedItems_map (items : List Json) : sortedItems items = items.map sorted := by
  induction items with
  | nil => rfl
  | cons x xs ih => rw [sortedItems, ih, List.map_cons]

theorem sortedFields_map (fields : JsonObject) : sortedFields fields = fields.map fun f => (f.1, sorted f.2) := by
  induction fields with
  | nil => rfl
  | cons f fields ih =>
    obtain ⟨key, x⟩ := f
    rw [sortedFields, ih, List.map_cons]

theorem mem_arrange {fields : JsonObject} {f : String × Json} : f ∈ arrange fields ↔ f ∈ fields :=
  (List.perm_insertionSort _ _).mem_iff

/-! ### Members -/

/-- A member of a mapping whose keys differ. -/
theorem field_of_mem {fields : JsonObject} (hkeys : (fields.map Prod.fst).Nodup) {key : String} {x : Json}
    (h : (key, x) ∈ fields) : field fields key = some x := by
  induction fields with
  | nil => cases h
  | cons f fields ih =>
    obtain ⟨k, y⟩ := f
    rw [List.map_cons, List.nodup_cons] at hkeys
    rw [field_cons]
    rcases List.mem_cons.mp h with heq | hmem
    · obtain ⟨rfl, rfl⟩ := Prod.mk.inj heq
      exact if_pos rfl
    · rw [if_neg, ih hkeys.2 hmem]
      rintro rfl
      exact hkeys.1 (List.mem_map.mpr ⟨_, hmem, rfl⟩)

theorem mem_of_field {fields : JsonObject} {key : String} {x : Json} (h : field fields key = some x) :
    (key, x) ∈ fields := by
  rw [field, Option.map_eq_some_iff] at h
  obtain ⟨⟨k, y⟩, hfind, rfl⟩ := h
  obtain rfl : k = key := by simpa using List.find?_some hfind
  exact List.mem_of_find?_eq_some hfind

/-- **The members are the same in any order.** -/
theorem field_arrange {fields : JsonObject} (hkeys : (fields.map Prod.fst).Nodup) (key : String) :
    field (arrange fields) key = field fields key := by
  have hperm : (arrange fields).Perm fields := List.perm_insertionSort _ _
  have hkeys' : ((arrange fields).map Prod.fst).Nodup := (hperm.map Prod.fst).nodup_iff.mpr hkeys
  cases h : field fields key with
  | some x => exact field_of_mem hkeys' (mem_arrange.mpr (mem_of_field h))
  | none =>
    cases h' : field (arrange fields) key with
    | none => rfl
    | some x =>
      rw [field_of_mem hkeys (mem_arrange.mp (mem_of_field h'))] at h
      cases h

theorem field_sortedFields (fields : JsonObject) (key : String) :
    field (sortedFields fields) key = (field fields key).map sorted := by
  induction fields with
  | nil => rfl
  | cons f fields ih =>
    obtain ⟨k, x⟩ := f
    by_cases h : k = key <;> simp [sortedFields, h, ih]

/-- **A member of a sorted mapping** is sorted. -/
theorem field_sorted {fields : JsonObject} (hkeys : (fields.map Prod.fst).Nodup) (key : String) :
    field (arrange (sortedFields fields)) key = (field fields key).map sorted := by
  rw [field_arrange, field_sortedFields]
  rw [sortedFields_map, List.map_map]
  exact hkeys

/-! ### Texts -/

/-- The options without `sort_keys`. -/
def Style.unsorted (st : Style) : Style := { st with sortKeys := false }

theorem dumpsFields_map (st : Style) (fields : JsonObject) :
    dumpsFields st fields = fields.map fun f => (f.1, dumps st f.2) := by
  induction fields with
  | nil => rfl
  | cons f fields ih =>
    obtain ⟨key, x⟩ := f
    rw [dumpsFields, ih, List.map_cons]

/-- The texts of the members come in the order of the members. -/
theorem order_dumpsFields {st : Style} (h : st.sortKeys = true) (st' : Style) (fields : JsonObject) :
    st.order (dumpsFields st' fields) = dumpsFields st' (arrange fields) := by
  rw [dumpsFields_map, dumpsFields_map, Style.order, if_pos h, arrange]
  symm
  apply List.map_insertionSort
  exact fun _ _ _ _ => Iff.rfl

mutual

/-- **The text with sorted keys** is the text of the sorted value. -/
theorem dumps_sorted {st : Style} (h : st.sortKeys = true) : ∀ v : Json, dumps st v = dumps st.unsorted (sorted v)
  | null => by simp [sorted, dumps]
  | bool b => by simp [sorted, dumps]
  | int n => by simp [sorted, dumps]
  | float r => by simp [sorted, dumps]
  | str s => by simp [sorted, dumps, Style.unsorted]
  | arr items => by
    rw [sorted, dumps, dumps, dumpsItems_sorted h items]
    rfl
  | obj fields => by
    rw [sorted, dumps, dumps, dumpsFields_sorted h fields, order_dumpsFields h]
    rfl

theorem dumpsItems_sorted {st : Style} (h : st.sortKeys = true) : ∀ items : List Json,
    dumpsItems st items = dumpsItems st.unsorted (sortedItems items)
  | [] => rfl
  | x :: xs => by rw [dumpsItems, sortedItems, dumpsItems, dumps_sorted h x, dumpsItems_sorted h xs]

theorem dumpsFields_sorted {st : Style} (h : st.sortKeys = true) : ∀ fields : List (String × Json),
    dumpsFields st fields = dumpsFields st.unsorted (sortedFields fields)
  | [] => rfl
  | (key, x) :: xs => by rw [dumpsFields, sortedFields, dumpsFields, dumps_sorted h x, dumpsFields_sorted h xs]

end

end PayOps.Json
