import PayOps.Platform

/-!
# JSON values and their texts

`JsonValue` of the source and `json.dumps`.

## The model

A mapping is the list of its items in insertion order, its keys all different. A float is
given by its shortest representation, which is all `json.dumps` reads of it.
`Json.dumps` is parameterised by the options the code passes: the separators,
`ensure_ascii` and `sort_keys`.

## What is proved

* `dumps_weight`, `dumps_length` — the weight of a value bounds the length of its text.
-/

namespace PayOps

/-- A JSON value. -/
inductive Json where
  /-- `None`. -/
  | null
  /-- A boolean. -/
  | bool (b : Bool)
  /-- An integer. -/
  | int (n : ℤ)
  /-- A float, by its representation. -/
  | float (repr : String)
  /-- A string. -/
  | str (s : String)
  /-- A list. -/
  | arr (items : List Json)
  /-- A mapping. -/
  | obj (fields : List (String × Json))

/-- `dict[str, JsonValue]`. -/
abbrev JsonObject := List (String × Json)

namespace Json

/-! ### Equality -/

mutual

/-- Equality of values. -/
def same : Json → Json → Bool
  | null, null => true
  | bool a, bool b => a == b
  | int a, int b => a == b
  | float a, float b => a == b
  | str a, str b => a == b
  | arr xs, arr ys => sameItems xs ys
  | obj xs, obj ys => sameFields xs ys
  | _, _ => false

/-- Equality of lists. -/
def sameItems : List Json → List Json → Bool
  | [], [] => true
  | x :: xs, y :: ys => same x y && sameItems xs ys
  | _, _ => false

/-- Equality of mappings. -/
def sameFields : List (String × Json) → List (String × Json) → Bool
  | [], [] => true
  | (k, x) :: xs, (l, y) :: ys => k == l && same x y && sameFields xs ys
  | _, _ => false

end

mutual

theorem same_iff : ∀ x y : Json, same x y = true ↔ x = y
  | null, y => by cases y <;> simp [same]
  | bool a, y => by cases y <;> simp [same]
  | int a, y => by cases y <;> simp [same]
  | float a, y => by cases y <;> simp [same]
  | str a, y => by cases y <;> simp [same]
  | arr xs, y => by
    cases y with
    | arr ys => simp [same, sameItems_iff xs ys]
    | _ => simp [same]
  | obj xs, y => by
    cases y with
    | obj ys => simp [same, sameFields_iff xs ys]
    | _ => simp [same]

theorem sameItems_iff : ∀ xs ys : List Json, sameItems xs ys = true ↔ xs = ys
  | [], ys => by cases ys <;> simp [sameItems]
  | x :: xs, ys => by
    cases ys with
    | nil => simp [sameItems]
    | cons y ys => simp [sameItems, same_iff x y, sameItems_iff xs ys]

theorem sameFields_iff : ∀ xs ys : List (String × Json), sameFields xs ys = true ↔ xs = ys
  | [], ys => by cases ys <;> simp [sameFields]
  | (k, x) :: xs, ys => by
    cases ys with
    | nil => simp [sameFields]
    | cons y ys =>
      obtain ⟨l, y⟩ := y
      simp [sameFields, same_iff x y, sameFields_iff xs ys, and_assoc]

end

instance : DecidableEq Json := fun x y => decidable_of_iff _ (same_iff x y)

/-! ### Fields -/

/-- `value.get(key)`. -/
def field (fields : JsonObject) (key : String) : Option Json :=
  (fields.find? fun f => f.1 == key).map Prod.snd

/-- The value as a string, if it is one. -/
def asStr : Json → Option String
  | str s => some s
  | _ => none

/-- The value as an integer, if it is one; a boolean is none. -/
def asInt : Json → Option ℤ
  | int n => some n
  | _ => none

/-- The value as a list, if it is one. -/
def asArr : Json → Option (List Json)
  | arr xs => some xs
  | _ => none

/-! ### Texts -/

/-- One hexadecimal digit, in lower case. -/
def hexDigit (n : ℕ) : Char := Nat.digitChar (n % 16)

/-- `\uXXXX`. -/
def unicodeEscape (n : ℕ) : List Char :=
  ['\\', 'u', hexDigit (n / 4096), hexDigit (n / 256), hexDigit (n / 16), hexDigit n]

/-- A character of a string literal. With `ensure_ascii` characters beyond `~` are escaped,
those beyond the basic plane as a surrogate pair. -/
def escapeChar (ensureAscii : Bool) (c : Char) : List Char :=
  if c = '"' then ['\\', '"']
  else if c = '\\' then ['\\', '\\']
  else if c = '\n' then ['\\', 'n']
  else if c = '\r' then ['\\', 'r']
  else if c = '\t' then ['\\', 't']
  else if c.toNat = 8 then ['\\', 'b']
  else if c.toNat = 12 then ['\\', 'f']
  else if c.toNat < 32 then unicodeEscape c.toNat
  else if ensureAscii && 127 ≤ c.toNat then
    if c.toNat < 0x10000 then unicodeEscape c.toNat
    else unicodeEscape (0xD800 + (c.toNat - 0x10000) / 1024) ++
      unicodeEscape (0xDC00 + (c.toNat - 0x10000) % 1024)
  else [c]

/-- A string literal. -/
def quote (ensureAscii : Bool) (s : String) : List Char :=
  '"' :: s.toList.flatMap (escapeChar ensureAscii) ++ ['"']

/-- The options of `json.dumps`. -/
structure Style where
  /-- The first of `separators`. -/
  item : String
  /-- The second of `separators`. -/
  key : String
  /-- `ensure_ascii`. -/
  ensureAscii : Bool
  /-- `sort_keys`. -/
  sortKeys : Bool

/-- The default options. -/
def Style.default : Style := ⟨", ", ": ", true, false⟩

/-- `separators=(",", ":")`. -/
def Style.compact : Style := ⟨",", ":", true, false⟩

/-- `sort_keys=True, separators=(",", ":")`. -/
def Style.canonical : Style := ⟨",", ":", true, true⟩

/-- The text of a pydantic record: compact separators, and no escapes beyond those of JSON. -/
def Style.record : Style := ⟨",", ":", false, false⟩

/-- `sort_keys=True, separators=(",", ":"), ensure_ascii=False`. -/
def Style.canonicalUtf8 : Style := ⟨",", ":", false, true⟩

/-- The items of a mapping in the order they are written. -/
def Style.order (st : Style) (items : List (String × List Char)) : List (String × List Char) :=
  if st.sortKeys then items.insertionSort fun a b => a.1 ≤ b.1 else items

mutual

/-- `json.dumps(value)` with the options `st`. -/
def dumps (st : Style) : Json → List Char
  | null => "null".toList
  | bool b => (if b then "true" else "false").toList
  | int n => (toString n).toList
  | float r => r.toList
  | str s => quote st.ensureAscii s
  | arr items => '[' :: st.item.toList.intercalate (dumpsItems st items) ++ [']']
  | obj fields => '{' :: st.item.toList.intercalate ((st.order (dumpsFields st fields)).map fun f =>
      quote st.ensureAscii f.1 ++ st.key.toList ++ f.2) ++ ['}']

/-- The texts of the items of a list. -/
def dumpsItems (st : Style) : List Json → List (List Char)
  | [] => []
  | x :: xs => dumps st x :: dumpsItems st xs

/-- The texts of the values of a mapping, with their keys. -/
def dumpsFields (st : Style) : List (String × Json) → List (String × List Char)
  | [] => []
  | (key, x) :: xs => (key, dumps st x) :: dumpsFields st xs

end

/-- `json.dumps(value)` as a string. -/
def text (st : Style) (value : Json) : String := String.ofList (dumps st value)

example : text .canonical (.obj [("b", .arr [.int (-3), .null]), ("a", .str "\"é")]) =
    "\x7b\"a\":\"\\\"\\u00e9\",\"b\":[-3,null]\x7d" := by decide

/-! ### How long a text is -/

mutual

/-- A bound on the length of the compact text of a value. -/
def weight : Json → ℕ
  | null => 4
  | bool _ => 5
  | int n => (toString n).toList.length
  | float r => r.toList.length
  | str s => 2 + 12 * s.toList.length
  | arr items => 2 + weightItems items
  | obj fields => 2 + weightFields fields

/-- The same of the items of a list, with a separator each. -/
def weightItems : List Json → ℕ
  | [] => 0
  | x :: xs => weight x + 1 + weightItems xs

/-- The same of the items of a mapping. -/
def weightFields : List (String × Json) → ℕ
  | [] => 0
  | (key, x) :: xs => 2 + 12 * key.toList.length + 1 + weight x + 1 + weightFields xs

end

theorem escapeChar_length (ensureAscii : Bool) (c : Char) : (escapeChar ensureAscii c).length ≤ 12 := by
  unfold escapeChar
  split_ifs <;> simp [unicodeEscape]

theorem quote_length (ensureAscii : Bool) (s : String) : (quote ensureAscii s).length ≤ 2 + 12 * s.toList.length := by
  have hflat : ∀ cs : List Char, (cs.flatMap (escapeChar ensureAscii)).length ≤ 12 * cs.length := by
    intro cs
    induction cs with
    | nil => simp
    | cons c cs ih =>
      have hc := escapeChar_length ensureAscii c
      simp only [List.flatMap_cons, List.length_append, List.length_cons]
      omega
  have hs := hflat s.toList
  simp only [quote, List.cons_append, List.length_cons, List.length_append, List.length_nil]
  omega

theorem intercalate_length (c : Char) (texts : List (List Char)) :
    ([c].intercalate texts).length ≤ (texts.map fun t => t.length + 1).sum := by
  induction texts with
  | nil => simp
  | cons t texts ih =>
    cases texts with
    | nil => simp
    | cons t' texts =>
      rw [List.intercalate_cons_cons]
      simp only [List.length_append, List.length_singleton, List.map_cons, List.sum_cons] at ih ⊢
      omega

/-- The order of the items changes nothing that depends on each of them. -/
theorem Style.order_perm (st : Style) (items : List (String × List Char)) : (st.order items).Perm items := by
  unfold Style.order
  split_ifs
  · exact List.perm_insertionSort _ _
  · exact List.Perm.refl _

/-- The separators are of one character. -/
def Style.Tight (st : Style) : Prop := st.item.toList = [','] ∧ st.key.toList = [':']

mutual

/-- **The weight of a value bounds its text**, whose separators are of one character. -/
theorem dumps_weight {st : Style} (hst : st.Tight) : ∀ x : Json, (dumps st x).length ≤ weight x
  | null => by rw [dumps]; exact le_of_eq rfl
  | bool b => by cases b <;> rw [dumps] <;> decide
  | int n => by rw [dumps, weight]
  | float r => by rw [dumps, weight]
  | str s => by rw [dumps, weight]; exact quote_length _ s
  | arr items => by
    have hitems := dumpsItems_weight hst items
    have hjoined := intercalate_length ',' (dumpsItems st items)
    rw [dumps, weight, hst.1]
    simp only [List.cons_append, List.length_cons, List.length_append, List.length_nil]
    omega
  | obj fields => by
    have hfields := dumpsFields_weight hst fields
    have hjoined := intercalate_length ',' ((st.order (dumpsFields st fields)).map fun f =>
      quote st.ensureAscii f.1 ++ [':'] ++ f.2)
    rw [List.map_map, ((st.order_perm _).map _).sum_eq] at hjoined
    rw [dumps, weight, hst.1, hst.2]
    simp only [List.cons_append, List.length_cons, List.length_append, List.length_nil]
    have := hjoined.trans hfields
    omega

theorem dumpsItems_weight {st : Style} (hst : st.Tight) : ∀ items : List Json,
    ((dumpsItems st items).map fun t => t.length + 1).sum ≤ weightItems items
  | [] => by simp [dumpsItems, weightItems]
  | x :: xs => by
    have hx := dumps_weight hst x
    have hxs := dumpsItems_weight hst xs
    simp only [dumpsItems, weightItems, List.map_cons, List.sum_cons]
    omega

theorem dumpsFields_weight {st : Style} (hst : st.Tight) : ∀ fields : List (String × Json),
    ((dumpsFields st fields).map fun f =>
      (quote st.ensureAscii f.1 ++ [':'] ++ f.2).length + 1).sum ≤ weightFields fields
  | [] => by simp [dumpsFields, weightFields]
  | (key, x) :: xs => by
    have hquote := quote_length st.ensureAscii key
    have hx := dumps_weight hst x
    have hxs := dumpsFields_weight hst xs
    simp only [dumpsFields, weightFields, List.map_cons, List.sum_cons, List.length_append,
      List.length_singleton] at hxs ⊢
    omega

end

/-- **The weight of a value bounds its compact text.** -/
theorem dumps_length (x : Json) : (dumps .compact x).length ≤ weight x := dumps_weight ⟨rfl, rfl⟩ x

end Json

end PayOps
