import PayOps.JsonPretty
import PayOps.JsonSorted

/-!
# JSON texts that are read back

`json.loads` of what `json.dumps` writes without an indentation, with the keys of mappings in order or not.

## What is proved

* `Printable.loads_dumps` — `json.loads` inverts `json.dumps`.
* `loads_dumps_sorted` — **main result**: with sorted keys, what is read is the sorted value.
* `dumps_of_sorted` — the sorted value has the same text.
* `sorted_of_alike` — values that differ in the order of their members only are sorted to the same.
-/

namespace PayOps.Json

/-! ### Reading -/

/-- The separators are a comma and a colon, and white space. -/
structure Style.Spaced (st : Style) (blanks colon : List Char) : Prop where
  /-- After an item. -/
  item : st.item.toList = ',' :: blanks
  /-- After a key. -/
  key : st.key.toList = ':' :: colon
  /-- There is only white space. -/
  blank : Blank blanks ∧ Blank colon

theorem dumpsItems_map (st : Style) (items : List Json) : dumpsItems st items = items.map (dumps st) := by
  induction items with
  | nil => rfl
  | cons x xs ih => rw [dumpsItems, ih, List.map_cons]

section Reading

variable [Platform] {st : Style} {blanks colon : List Char}

omit [Platform] in
theorem dumps_arr (h : st.Spaced blanks colon) (items : List Json) :
    dumps st (.arr items) = '[' :: ((',' :: blanks).intercalate (items.map (dumps st)) ++ [']']) := by
  rw [dumps, h.item, dumpsItems_map]
  rfl

omit [Platform] in
theorem dumps_obj (h : st.Spaced blanks colon) (hsort : st.sortKeys = false) (fields : JsonObject) :
    dumps st (.obj fields) =
      '\x7b' :: ((',' :: blanks).intercalate (fields.map (fieldText st.ensureAscii colon (dumps st))) ++ ['\x7d']) := by
  have horder (items : List (String × List Char)) : st.order items = items := by
    rw [Style.order, hsort]
    rfl
  have htexts : (fun f : String × List Char => quote st.ensureAscii f.1 ++ ':' :: colon ++ f.2) ∘
      (fun f : String × Json => (f.1, dumps st f.2)) = fieldText st.ensureAscii colon (dumps st) := rfl
  rw [dumps, h.item, h.key, horder, dumpsFields_map, List.map_map, htexts]
  rfl

/-- What a text begins with. -/
theorem Printable.head_dumps (h : st.Spaced blanks colon) {depth : ℕ} {v : Json} (hv : Printable depth v) :
    ∃ c cs, dumps st v = c :: cs ∧ leading c = true := by
  cases hv with
  | null => exact ⟨_, _, by rw [dumps]; rfl, rfl⟩
  | bool b => cases b <;> exact ⟨_, _, by rw [dumps]; rfl, rfl⟩
  | int hn =>
    rw [dumps]
    exact leading_number (scanNumber_int hn)
  | float hr =>
    rw [dumps]
    exact leading_number hr
  | str s => exact ⟨_, _, by rw [dumps]; rfl, rfl⟩
  | arr _ => exact ⟨_, _, dumps_arr h _, rfl⟩
  | obj _ _ => exact ⟨_, _, by rw [dumps]; rfl, rfl⟩

/-- **A value is read back** from a text that goes on after it. -/
theorem Printable.scan_dumps (h : st.Spaced blanks colon) (hsort : st.sortKeys = false) {bound depth : ℕ} {v : Json}
    (hv : Printable bound v) (hdepth : bound ≤ depth) : Scans (dumps st) depth v := by
  have hnone : Blank [] := by simp [Blank]
  induction hv generalizing depth with
  | null =>
    intro fuel rest hfuel _
    obtain ⟨fuel, rfl⟩ : ∃ k, fuel = k + 1 := ⟨fuel - 1, by simp [dumps] at hfuel; omega⟩
    simp [dumps, scanValue]
  | bool b =>
    intro fuel rest hfuel _
    obtain ⟨fuel, rfl⟩ : ∃ k, fuel = k + 1 := ⟨fuel - 1, by cases b <;> simp [dumps] at hfuel <;> omega⟩
    cases b <;> simp [dumps, scanValue]
  | int hn =>
    apply scans_number
    rw [dumps]
    exact scanNumber_int hn
  | float hr =>
    apply scans_number
    rw [dumps]
    exact hr
  | str s => exact scans_str (by rw [dumps])
  | @arr bound items hitems ih =>
    intro fuel rest hfuel _
    obtain ⟨depth, rfl⟩ : ∃ k, depth = k + 1 := ⟨depth - 1, by omega⟩
    rw [dumps_arr h] at hfuel ⊢
    simp only [List.length_cons, List.length_append, List.length_nil] at hfuel
    obtain ⟨fuel, rfl⟩ : ∃ k, fuel = k + 1 := ⟨fuel - 1, by omega⟩
    cases items with
    | nil => rfl
    | cons x xs =>
      have hscan : ∀ y ∈ x :: xs, Scans (dumps st) depth y := fun y hy => ih y hy (Nat.le_of_succ_le_succ hdepth)
      have hread := scanValue_items h.blank.1 hnone hnone hscan (fun y hy => (hitems y hy).head_dumps h) rest
        (show _ < fuel by omega)
      simpa using hread
  | @obj bound fields hkeys hfields ih =>
    intro fuel rest hfuel _
    obtain ⟨depth, rfl⟩ : ∃ k, depth = k + 1 := ⟨depth - 1, by omega⟩
    rw [dumps_obj h hsort] at hfuel ⊢
    simp only [List.length_cons, List.length_append, List.length_nil] at hfuel
    obtain ⟨fuel, rfl⟩ : ∃ k, fuel = k + 1 := ⟨fuel - 1, by omega⟩
    cases fields with
    | nil => rfl
    | cons f fs =>
      have hscan : ∀ g ∈ f :: fs, Scans (dumps st) depth g.2 := fun g hg => ih g hg (Nat.le_of_succ_le_succ hdepth)
      have hread := scanValue_fields st.ensureAscii h.blank.1 h.blank.2 hnone hnone hkeys hscan
        (fun g hg => (hfields g hg).head_dumps h) rest (show _ < fuel by omega)
      simpa using hread

/-- **`json.loads` inverts `json.dumps`**, of a value that is not nested too deep. -/
theorem Printable.loads_dumps (h : st.Spaced blanks colon) (hsort : st.sortKeys = false) {v : Json}
    (hv : Printable Platform.nesting v) : loads (dumps st v) = some v := by
  obtain ⟨c, cs, htext, hc⟩ := hv.head_dumps h
  have hskip : skip (dumps st v) = dumps st v := by
    rw [htext]
    exact skip_leading hc cs
  have hscan := hv.scan_dumps h hsort le_rfl (2 * (dumps st v).length + 1) [] (by omega) (by rintro c ⟨⟩)
  rw [List.append_nil] at hscan
  rw [loads, hskip, hscan]
  rfl

end Reading

/-! ### Sorted values -/

/-- Keys come in order. -/
def keyLe (f g : String × Json) : Prop := f.1 ≤ g.1

instance : DecidableRel keyLe := fun f g => inferInstanceAs (Decidable (f.1 ≤ g.1))

instance : IsTrans (String × Json) keyLe := ⟨fun _ _ _ hfg hgh => le_trans (α := String) hfg hgh⟩

instance : Std.Total keyLe := ⟨fun f g => le_total f.1 g.1⟩

theorem arrange_eq (fields : JsonObject) : arrange fields = fields.insertionSort keyLe := rfl

theorem arrange_arrange (fields : JsonObject) : arrange (arrange fields) = arrange fields := by
  rw [arrange_eq, arrange_eq]
  exact (List.pairwise_insertionSort keyLe fields).insertionSort_eq

theorem sortedFields_arrange (fields : JsonObject) : sortedFields (arrange fields) = arrange (sortedFields fields) := by
  rw [sortedFields_map, sortedFields_map, arrange, arrange]
  apply List.map_insertionSort
  exact fun _ _ _ _ => Iff.rfl

mutual

/-- A sorted value is in order. -/
theorem sorted_sorted : ∀ v : Json, sorted (sorted v) = sorted v
  | null => rfl
  | bool _ => rfl
  | int _ => rfl
  | float _ => rfl
  | str _ => rfl
  | arr items => by rw [sorted, sorted, sortedItems_sorted items]
  | obj fields => by rw [sorted, sorted, sortedFields_arrange, sortedFields_sorted fields, arrange_arrange]

theorem sortedItems_sorted : ∀ items : List Json, sortedItems (sortedItems items) = sortedItems items
  | [] => rfl
  | x :: xs => by rw [sortedItems, sortedItems, sorted_sorted x, sortedItems_sorted xs]

theorem sortedFields_sorted : ∀ fields : List (String × Json),
    sortedFields (sortedFields fields) = sortedFields fields
  | [] => rfl
  | (key, x) :: xs => by rw [sortedFields, sortedFields, sorted_sorted x, sortedFields_sorted xs]

end

/-- **The sorted value has the same text** with its keys in order. -/
theorem dumps_of_sorted {st : Style} (h : st.sortKeys = true) (v : Json) : dumps st (sorted v) = dumps st v := by
  rw [dumps_sorted h, dumps_sorted h v, sorted_sorted]

theorem map_fst_sortedFields (fields : JsonObject) : (sortedFields fields).map Prod.fst = fields.map Prod.fst := by
  rw [sortedFields_map, List.map_map]
  rfl

/-- The keys of a mapping, in order. -/
theorem nodup_arrange {fields : JsonObject} (h : (fields.map Prod.fst).Nodup) :
    ((arrange (sortedFields fields)).map Prod.fst).Nodup := by
  have hperm : (arrange (sortedFields fields)).Perm (sortedFields fields) := List.perm_insertionSort _ _
  rw [(hperm.map Prod.fst).nodup_iff, map_fst_sortedFields]
  exact h

/-- A sorted value is printable. -/
theorem Printable.sorted [Platform] {bound : ℕ} {v : Json} (h : Printable bound v) :
    Printable bound (Json.sorted v) := by
  induction h with
  | null => exact .null
  | bool b => exact .bool b
  | int h => exact .int h
  | float h => exact .float h
  | str s => exact .str s
  | @arr bound items h ih =>
    refine .arr fun x hx => ?_
    rw [sortedItems_map] at hx
    obtain ⟨y, hy, rfl⟩ := List.mem_map.mp hx
    exact ih y hy
  | @obj bound fields hkeys h ih =>
    refine .obj (nodup_arrange hkeys) fun f hf => ?_
    rw [mem_arrange, sortedFields_map] at hf
    obtain ⟨g, hg, rfl⟩ := List.mem_map.mp hf
    exact ih g hg

/-- **With sorted keys the sorted value is read.** -/
theorem loads_dumps_sorted [Platform] {st : Style} {blanks colon : List Char} (h : st.Spaced blanks colon)
    (hsort : st.sortKeys = true) {v : Json} (hv : Printable Platform.nesting v) :
    loads (dumps st v) = some (sorted v) := by
  have hspaced : st.unsorted.Spaced blanks colon := ⟨h.item, h.key, h.blank⟩
  rw [dumps_sorted hsort]
  exact hv.sorted.loads_dumps hspaced rfl

/-- What can be printed does not depend on how deep a reader follows it. -/
theorem Printable.follow [here : Platform] {bound : ℕ} {v : Json} (h : Printable bound v) (depth : ℕ) :
    @Printable { here with nesting := depth } bound v := by
  let reader : Platform := { here with nesting := depth }
  induction h with
  | null => exact @Printable.null reader _
  | bool b => exact @Printable.bool reader _ b
  | int h => exact @Printable.int reader _ _ h
  | float h => exact @Printable.float reader _ _ h
  | str s => exact @Printable.str reader _ s
  | arr _ ih => exact @Printable.arr reader _ _ ih
  | obj hkeys _ ih => exact @Printable.obj reader _ _ hkeys ih

/-- **Values with one text** are sorted to the same, however deep they are. -/
theorem sorted_of_dumps [here : Platform] {st : Style} {blanks colon : List Char} (h : st.Spaced blanks colon)
    (hsort : st.sortKeys = true) {bound : ℕ} {x y : Json} (hx : Printable bound x) (hy : Printable bound y)
    (hsame : dumps st x = dumps st y) : sorted x = sorted y := by
  -- a reader that follows both values
  have hreadx := @loads_dumps_sorted { here with nesting := bound } _ _ _ h hsort _ (hx.follow bound)
  have hready := @loads_dumps_sorted { here with nesting := bound } _ _ _ h hsort _ (hy.follow bound)
  rw [hsame] at hreadx
  exact Option.some.inj (hreadx.symm.trans hready)

/-! ### Values that are alike -/

/-- The same value, whatever the order of the members of its mappings. -/
def alike (x y : Json) : Bool := equal (fun a b => decide (a = b)) x y

example : alike (.obj [("a", .int 1), ("b", .arr [.null])]) (.obj [("b", .arr [.null]), ("a", .int 1)]) = true := by
  decide

example : alike (.int 1) (.float "1.0") = false := by decide

/-- Mappings with the same members in order. -/
theorem arrange_of_perm {xs ys : JsonObject} (hkeys : (ys.map Prod.fst).Nodup) (h : xs.Perm ys) :
    arrange xs = arrange ys := by
  have hperm : (arrange xs).Perm (arrange ys) :=
    (List.perm_insertionSort _ _).trans (h.trans (List.perm_insertionSort _ _).symm)
  refine List.Perm.eq_of_pairwise ?_ (List.pairwise_insertionSort keyLe xs) (List.pairwise_insertionSort keyLe ys) hperm
  rintro ⟨k, x⟩ ⟨l, y⟩ hx hy hkl hlk
  obtain rfl : k = l := le_antisymm (α := String) hkl hlk
  have hmem : (k, x) ∈ ys := mem_arrange.mp (hperm.mem_iff.mp hx)
  have hfield := field_of_mem hkeys hmem
  rw [field_of_mem hkeys (mem_arrange.mp hy)] at hfield
  rw [Option.some.inj hfield]

/-- Two mappings whose members are sorted to the same have the same members in order. -/
theorem arrange_of_fields {xs ys : JsonObject} (hxs : (xs.map Prod.fst).Nodup) (hys : (ys.map Prod.fst).Nodup)
    (h : ∀ key, field (sortedFields xs) key = field (sortedFields ys) key) :
    arrange (sortedFields xs) = arrange (sortedFields ys) := by
  rw [← map_fst_sortedFields] at hxs hys
  refine arrange_of_perm hys ((List.perm_ext_iff_of_nodup hxs.of_map hys.of_map).mpr ?_)
  rintro ⟨key, x⟩
  constructor
  · intro hx
    exact mem_of_field ((h key).symm.trans (field_of_mem hxs hx))
  · intro hx
    exact mem_of_field ((h key).trans (field_of_mem hys hx))

/-- **Values that are alike** are sorted to the same. -/
theorem sorted_of_alike [Platform] {bound bound' : ℕ} {x y : Json} (hx : Printable bound x) (hy : Printable bound' y)
    (h : alike x y = true) : sorted x = sorted y := by
  induction hx generalizing y bound' with
  | null => cases y <;> simp_all [alike, equal]
  | bool b => cases y <;> simp_all [alike, equal]
  | int hn => cases y <;> simp_all [alike, equal]
  | float hr => cases y <;> simp_all [alike, equal]
  | str s => cases y <;> simp_all [alike, equal]
  | @arr bound xs hxs ih =>
    cases hy with
    | @arr _ ys hys =>
      rw [sorted, sorted, sortedItems_map, sortedItems_map]
      simp only [alike, equal] at h
      congr 1
      apply List.ext_getElem?
      intro i
      rw [List.getElem?_map, List.getElem?_map]
      have hitem := equalItems_getElem? h i
      cases hx : xs[i]? with
      | none =>
        rw [hx] at hitem
        cases hy : ys[i]? with
        | none => rfl
        | some y =>
          rw [hy] at hitem
          cases hitem
      | some x =>
        rw [hx] at hitem
        cases hy : ys[i]? with
        | none =>
          rw [hy] at hitem
          cases hitem
        | some y =>
          rw [hy] at hitem
          obtain ⟨hequal⟩ := hitem
          have hsame := ih x (List.mem_of_getElem? hx) (hys y (List.mem_of_getElem? hy)) hequal
          exact congrArg some hsame
    | _ => simp [alike, equal] at h
  | @obj bound xs hkeys hxs ih =>
    cases hy with
    | @obj _ ys hkeys' hys =>
      simp only [alike, equal, Bool.and_eq_true] at h
      rw [sorted, sorted, arrange_of_fields hkeys hkeys' fun key => ?_]
      rw [field_sortedFields, field_sortedFields]
      cases hx : field xs key with
      | some x =>
        obtain ⟨y, hy, hequal⟩ := equalFields_field h.1 hx
        rw [hy, Option.map_some, Option.map_some, ih _ (mem_of_field hx) (hys _ (mem_of_field hy)) hequal]
      | none =>
        cases hy : field ys key with
        | none => rfl
        | some y =>
          have hfound := List.all_eq_true.mp h.2 _ (mem_of_field hy)
          rw [hx] at hfound
          cases hfound
    | _ => simp [alike, equal] at h

end PayOps.Json
