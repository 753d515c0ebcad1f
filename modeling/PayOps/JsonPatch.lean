import PayOps.Json

/-!
# Paths, equality and patches of JSON documents

JSON pointers, the equality of documents, and the operations `test` and `replace` of a JSON patch
(RFC 6902, RFC 6901).

## The model

A path is the list of its reference tokens; a token names a member of a mapping or an index of a list.
Equality disregards the order of the members of a mapping. It is parameterised by the equality of
scalars, in which RFC 6902 and Python differ: for Python `True == 1`. The value of a float is that of
its representation (`Numerals`).

A patch is applied as a whole or not at all. Of the operations those are modelled that are used here;
any other operation fails.

## What is proved

* `equal_lookup` — **equal documents have equal values at every path**.
* `AgreesOff.member`, `AgreesOff.put`, `AgreesOff.item` — what an update of a nested value leaves alone.
-/

namespace PayOps

/-- The values of floats. -/
class Numerals where
  /-- The value of a representation; NaN and the infinities have none. -/
  value : String → Option ℚ

namespace Json

/-! ### Members -/

@[simp] theorem field_nil (key : String) : field [] key = none := rfl

@[simp] theorem field_cons (k : String) (x : Json) (fields : JsonObject) (key : String) :
    field ((k, x) :: fields) key = if k = key then some x else field fields key := by
  by_cases h : k = key <;> simp [field, h]

/-- `fields[key] = value`. -/
def setField : JsonObject → String → Json → JsonObject
  | [], key, value => [(key, value)]
  | (k, x) :: fields, key, value =>
    if k = key then (k, value) :: fields else (k, x) :: setField fields key value

@[simp] theorem field_setField (fields : JsonObject) (key key' : String) (value : Json) :
    field (setField fields key value) key' = if key = key' then some value else field fields key' := by
  induction fields with
  | nil => simp [setField]
  | cons f fields ih =>
    obtain ⟨k, x⟩ := f
    by_cases hk : k = key
    · subst hk
      by_cases hkey : k = key' <;> simp [setField, hkey]
    · by_cases hkey : k = key'
      · subst hkey
        simp [setField, hk, Ne.symm hk]
      · simp [setField, hk, hkey, ih]

/-! ### Equality -/

/-- The number that a value is. -/
def number [Numerals] : Json → Option ℚ
  | int n => some n
  | float r => Numerals.value r
  | _ => none

/-- Two numbers are the same. -/
def sameNumber : Option ℚ → Option ℚ → Bool
  | some a, some b => a == b
  | _, _ => false

/-- Equality of scalars for RFC 6902. -/
def scalarEqual [Numerals] : Json → Json → Bool
  | null, null => true
  | bool a, bool b => a == b
  | str a, str b => a == b
  | x, y => sameNumber (number x) (number y)

/-- The number that a value is in Python, where a boolean is one. -/
def pythonNumber [Numerals] : Json → Option ℚ
  | bool b => some (if b then 1 else 0)
  | x => number x

/-- Equality of scalars in Python. -/
def pythonScalarEqual [Numerals] : Json → Json → Bool
  | null, null => true
  | str a, str b => a == b
  | x, y => sameNumber (pythonNumber x) (pythonNumber y)

section Equal

variable (scalar : Json → Json → Bool)

mutual

/-- Equality of documents, given that of scalars. -/
def equal : Json → Json → Bool
  | arr xs, arr ys => equalItems xs ys
  | obj xs, obj ys => equalFields xs ys && ys.all fun f => (field xs f.1).isSome
  | arr _, _ => false
  | obj _, _ => false
  | x, y => scalar x y

/-- Equality of lists. -/
def equalItems : List Json → List Json → Bool
  | [], [] => true
  | x :: xs, y :: ys => equal x y && equalItems xs ys
  | _, _ => false

/-- The members of the first mapping are members of the second. -/
def equalFields : List (String × Json) → JsonObject → Bool
  | [], _ => true
  | (key, x) :: xs, ys =>
    (match field ys key with
      | some y => equal x y
      | none => false) && equalFields xs ys

end

variable {scalar}

theorem equalItems_getElem? {xs ys : List Json} (h : equalItems scalar xs ys = true) (i : ℕ) :
    Option.Rel (fun x y => equal scalar x y = true) xs[i]? ys[i]? := by
  induction xs generalizing ys i with
  | nil =>
    cases ys with
    | nil => exact .none
    | cons y ys => simp [equalItems] at h
  | cons x xs ih =>
    cases ys with
    | nil => simp [equalItems] at h
    | cons y ys =>
      simp only [equalItems, Bool.and_eq_true] at h
      cases i with
      | zero => exact .some h.1
      | succ i => simpa using ih h.2 i

theorem equalFields_field {xs ys : JsonObject} (h : equalFields scalar xs ys = true) {key : String}
    {x : Json} (hx : field xs key = some x) : ∃ y, field ys key = some y ∧ equal scalar x y = true := by
  induction xs with
  | nil => cases hx
  | cons f xs ih =>
    obtain ⟨k, x'⟩ := f
    simp only [equalFields, Bool.and_eq_true] at h
    rw [field_cons] at hx
    split_ifs at hx with hk
    · subst hk
      obtain rfl := Option.some.inj hx
      cases hy : field ys k with
      | none => simp [hy] at h
      | some y => exact ⟨y, rfl, by simpa [hy] using h.1⟩
    · exact ih h.2 hx

end Equal

/-- `x == y` in Python. -/
def pythonEqual [Numerals] (x y : Json) : Bool := equal pythonScalarEqual x y

section PythonEqual

variable [Numerals]

/-- Only a string equals a string. -/
theorem pythonEqual_str {x : Json} {text : String} (h : pythonEqual x (.str text) = true) : x = .str text := by
  cases x with
  | str s =>
    have hsame : (s == text) = true := by simpa [pythonEqual, equal, pythonScalarEqual] using h
    rw [beq_iff_eq.mp hsame]
  | _ => simp [pythonEqual, equal, pythonScalarEqual, pythonNumber, sameNumber, number] at h

/-- Of equal mappings, each field of the second is one of the first. -/
theorem pythonEqual_field {x : Json} {fields : JsonObject} (h : pythonEqual x (.obj fields) = true) :
    ∃ found, x = .obj found ∧ ∀ key v, field fields key = some v →
      ∃ v', field found key = some v' ∧ pythonEqual v' v = true := by
  cases x with
  | obj found =>
    refine ⟨found, rfl, fun key v hv => ?_⟩
    simp only [pythonEqual, equal, Bool.and_eq_true, List.all_eq_true] at h
    have hmem : ∃ f ∈ fields, f.1 = key := by
      rw [field, Option.map_eq_some_iff] at hv
      obtain ⟨f, hf, -⟩ := hv
      exact ⟨f, List.mem_of_find?_eq_some hf, by simpa using List.find?_some hf⟩
    obtain ⟨f, hf, rfl⟩ := hmem
    obtain ⟨v', hv'⟩ := Option.isSome_iff_exists.mp (h.2 f hf)
    obtain ⟨w, hw, hsame⟩ := equalFields_field h.1 hv'
    obtain rfl := Option.some.inj (hv.symm.trans hw)
    exact ⟨v', hv', hsame⟩
  | _ => simp [pythonEqual, equal, pythonScalarEqual, pythonNumber, sameNumber, number] at h

end PythonEqual

/-! ### Paths -/

/-- The number that digits denote, after those that denote `n`. -/
def decimal (n : ℕ) (digits : List Char) : ℕ := digits.foldl (fun n c => 10 * n + (c.toNat - 48)) n

theorem le_decimal (n : ℕ) (digits : List Char) : n ≤ decimal n digits := by
  induction digits generalizing n with
  | nil => exact le_rfl
  | cons c digits ih =>
    have := ih (10 * n + (c.toNat - 48))
    show n ≤ decimal (10 * n + (c.toNat - 48)) digits
    omega

/-- A token as an index of a list: without leading zeros. -/
def arrayIndex (token : String) : Option ℕ :=
  if token = "0" then some 0
  else match token.toList with
    | c :: cs =>
      if 49 ≤ c.toNat ∧ c.toNat ≤ 57 ∧ cs.all Char.isDigit = true then some (decimal (c.toNat - 48) cs)
      else none
    | [] => none

theorem arrayIndex_eq_zero {token : String} (h : arrayIndex token = some 0) : token = "0" := by
  unfold arrayIndex at h
  split_ifs at h with hzero
  · exact hzero
  · split at h
    · rename_i c cs _
      split_ifs at h with hdigits
      have := le_decimal (c.toNat - 48) cs
      have hvalue := Option.some.inj h
      omega
    · cases h

/-- The value that a token refers to. -/
def child : Json → String → Option Json
  | obj fields, token => field fields token
  | arr items, token => (arrayIndex token).bind fun i => items[i]?
  | _, _ => none

/-- The value at a path. -/
def lookup : List String → Json → Option Json
  | [], value => some value
  | token :: path, value => (child value token).bind (lookup path)

@[simp] theorem lookup_nil (x : Json) : lookup [] x = some x := rfl

@[simp] theorem lookup_cons (token : String) (path : List String) (x : Json) :
    lookup (token :: path) x = (child x token).bind (lookup path) := rfl

theorem lookup_member (key : String) (fields : JsonObject) :
    lookup [key] (obj fields) = field fields key := by
  show (field fields key).bind (lookup []) = field fields key
  cases field fields key <;> rfl

/-- **Equal documents have equal values at every path.** -/
theorem equal_lookup {scalar : Json → Json → Bool}
    (hscalar : ∀ x y, scalar x y = true → (∀ token, child x token = none) ∧ ∀ token, child y token = none)
    {x y : Json} (h : equal scalar x y = true) (path : List String) :
    Option.Rel (fun a b => equal scalar a b = true) (lookup path x) (lookup path y) := by
  induction path generalizing x y with
  | nil => exact .some h
  | cons token path ih =>
    have hchild : Option.Rel (fun a b => equal scalar a b = true) (child x token) (child y token) := by
      unfold equal at h
      split at h
      · rename_i xs ys
        cases hindex : arrayIndex token with
        | none => simp [child, hindex]
        | some i => simpa [child, hindex] using equalItems_getElem? h i
      · rename_i xs ys
        rw [Bool.and_eq_true, List.all_eq_true] at h
        show Option.Rel _ (field xs token) (field ys token)
        cases hx : field xs token with
        | some x' =>
          obtain ⟨y', hy, heq⟩ := equalFields_field h.1 hx
          rw [hy]
          exact .some heq
        | none =>
          cases hy : field ys token with
          | none => exact .none
          | some y' =>
            -- A member of the second mapping is one of the first.
            obtain ⟨f, hf, rfl⟩ := Option.map_eq_some_iff.mp hy
            have hmem := h.2 f (List.mem_of_find?_eq_some hf)
            have hkey : f.1 = token := by simpa using List.find?_some hf
            rw [hkey, hx] at hmem
            cases hmem
      · cases h
      · cases h
      · obtain ⟨hx, hy⟩ := hscalar _ _ h
        rw [hx, hy]
        exact .none
    rw [lookup_cons, lookup_cons]
    generalize child x token = cx, child y token = cy at hchild
    cases hchild with
    | none => exact .none
    | some heq => exact ih heq

/-- A scalar has no children. -/
theorem scalarEqual_leaf [Numerals] (x y : Json) (h : scalarEqual x y = true) :
    (∀ token, child x token = none) ∧ ∀ token, child y token = none := by
  constructor <;> intro token <;> cases x <;> cases y <;>
    first | rfl | simp [scalarEqual, sameNumber, number] at h

theorem pythonScalarEqual_leaf [Numerals] (x y : Json) (h : pythonScalarEqual x y = true) :
    (∀ token, child x token = none) ∧ ∀ token, child y token = none := by
  constructor <;> intro token <;> cases x <;> cases y <;>
    first | rfl | simp [pythonScalarEqual, sameNumber, pythonNumber, number] at h

/-! ### What is left alone -/

/-- The two values are the same at every path that neither leads to `path` nor goes on from it. -/
def AgreesOff (path : List String) (x y : Json) : Prop :=
  ∀ q, ¬path <+: q → ¬q <+: path → lookup q y = lookup q x

theorem AgreesOff.refl (path : List String) (x : Json) : AgreesOff path x x := fun _ _ _ => rfl

/-- A member is replaced by one that agrees with it; a missing member counts as an empty mapping. -/
theorem AgreesOff.member {path : List String} {fields : JsonObject} {key : String} {value : Json}
    (h : AgreesOff path ((field fields key).getD (obj [])) value) :
    AgreesOff (key :: path) (obj fields) (obj (setField fields key value)) := by
  intro q hq hq'
  cases q with
  | nil => exact absurd List.nil_prefix hq'
  | cons token q =>
    show (field (setField fields key value) token).bind (lookup q) = (field fields token).bind (lookup q)
    rw [field_setField]
    split_ifs with htoken
    · subst htoken
      rw [List.cons_prefix_cons] at hq hq'
      have hvalue := h q (fun hp => hq ⟨rfl, hp⟩) fun hp => hq' ⟨rfl, hp⟩
      rw [Option.bind_some, hvalue]
      cases hfield : field fields key with
      | some x => rfl
      | none =>
        cases q with
        | nil => exact absurd ⟨rfl, List.nil_prefix⟩ hq'
        | cons token' q => rfl
    · rfl

/-- A member is set, whatever it was. -/
theorem AgreesOff.put (fields : JsonObject) (key : String) (value : Json) :
    AgreesOff [key] (obj fields) (obj (setField fields key value)) := by
  intro q hq hq'
  cases q with
  | nil => exact absurd List.nil_prefix hq'
  | cons token q =>
    show (field (setField fields key value) token).bind (lookup q) = (field fields token).bind (lookup q)
    rw [field_setField, if_neg]
    rintro rfl
    exact hq (List.cons_prefix_cons.mpr ⟨rfl, List.nil_prefix⟩)

/-- The only item of a list is replaced by one that agrees with it. -/
theorem AgreesOff.item {path : List String} {x y : Json} (h : AgreesOff path x y) :
    AgreesOff ("0" :: path) (arr [x]) (arr [y]) := by
  intro q hq hq'
  cases q with
  | nil => exact absurd List.nil_prefix hq'
  | cons token q =>
    rw [lookup_cons, lookup_cons]
    show ((arrayIndex token).bind fun i => [y][i]?).bind _ = ((arrayIndex token).bind fun i => [x][i]?).bind _
    cases hindex : arrayIndex token with
    | none => rfl
    | some i =>
      cases i with
      | succ i => rfl
      | zero =>
        obtain rfl := arrayIndex_eq_zero hindex
        rw [List.cons_prefix_cons] at hq hq'
        exact h q (fun hp => hq ⟨rfl, hp⟩) fun hp => hq' ⟨rfl, hp⟩

/-! ### Patches -/

/-- `~1` is a slash, and `~0` a tilde. -/
def unescapeToken : List Char → List Char
  | '~' :: '1' :: cs => '/' :: unescapeToken cs
  | '~' :: '0' :: cs => '~' :: unescapeToken cs
  | c :: cs => c :: unescapeToken cs
  | [] => []

/-- The tokens between the slashes. -/
def splitTokens : List Char → List (List Char)
  | [] => [[]]
  | c :: cs =>
    if c = '/' then [] :: splitTokens cs
    else match splitTokens cs with
      | token :: tokens => (c :: token) :: tokens
      | [] => [[c]]

/-- A JSON pointer. -/
def pointer (s : String) : Option (List String) :=
  match s.toList with
  | [] => some []
  | '/' :: cs => some ((splitTokens cs).map fun token => String.ofList (unescapeToken token))
  | _ => none

/-- The value at a path, which must be there, is replaced. -/
def replaceAt : List String → Json → Json → Option Json
  | [], value, _ => some value
  | token :: path, value, obj fields => do
    let x ← field fields token
    let y ← replaceAt path value x
    return obj (setField fields token y)
  | token :: path, value, arr items => do
    let i ← arrayIndex token
    let x ← items[i]?
    let y ← replaceAt path value x
    return arr (items.set i y)
  | _, _, _ => none

/-- The operations of a patch. -/
inductive Operation where
  /-- `test`. -/
  | test (path : List String) (value : Json)
  /-- `replace`. -/
  | replace (path : List String) (value : Json)

/-- An operation, from its document. -/
def operation : Json → Option Operation
  | obj fields => do
    let path ← pointer (← (← field fields "path").asStr)
    let value ← field fields "value"
    match ← (← field fields "op").asStr with
    | "test" => some (.test path value)
    | "replace" => some (.replace path value)
    | _ => none
  | _ => none

/-- What an operation makes of a document; none if it fails. -/
def Operation.apply [Numerals] (doc : Json) : Operation → Option Json
  | test path value => (lookup path doc).bind fun target =>
    if equal scalarEqual target value then some doc else none
  | replace path value => replaceAt path value doc

/-- A patch, applied to a document; none if an operation fails, and then the document stays as it is. -/
def applyPatch [Numerals] (patch : List Json) (doc : Json) : Option Json :=
  patch.foldlM (fun doc op => (operation op).bind (Operation.apply doc)) doc

example [Numerals] : applyPatch [obj [("op", str "replace"), ("path", str "/a~1b/0"), ("value", int 2)]]
    (obj [("a/b", arr [int 1, null])]) = some (obj [("a/b", arr [int 2, null])]) := by rfl

end Json

end PayOps
