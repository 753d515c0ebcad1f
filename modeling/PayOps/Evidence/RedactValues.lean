import PayOps.Evidence.RedactTwice
import PayOps.Faults
import PayOps.Json

/-!
# Redaction of values

`redact` of `payops.evidence.redact`, on any JSON value, and on its own results.

## The model

`SENSITIVE_KEY` is a list of words. Beyond depth 16, `redact` raises.

## What is proved

* `sensitive_redactText` — redaction makes no text sensitive, and so no name of a mapping.
* `redact_twice` — **main result**: for a text, and for a value that is redacted, redacting again changes nothing if
  and only if each text that was redacted is settled.
-/

namespace PayOps.Evidence

open Text

section Values

variable [Platform] {K : List (List Char)} {find : Scanner Char}

/-! ### Sensitive words -/

/-- The words of `SENSITIVE_KEY`. -/
def sensitiveWords : List (List (Option Char)) :=
  ["password".toList.map some, "secret".toList.map some, "token".toList.map some, "authorization".toList.map some,
    "cookie".toList.map some, "apikey".toList.map some, "api".toList.map some ++ none :: "key".toList.map some,
    "credential".toList.map some]

/-- A word of `SENSITIVE_KEY` is in the text. -/
def sensitiveIn : List Char → Bool
  | [] => false
  | c :: cs => (sensitiveWords.any fun w => fits w (c :: cs)) || sensitiveIn cs

/-- `SENSITIVE_KEY.search(text)`. -/
def sensitive (text : String) : Bool := sensitiveIn text.toList

/-- No word of `SENSITIVE_KEY` begins in the text, whatever follows it. -/
def mute : List Char → Bool
  | [] => true
  | c :: cs => (sensitiveWords.all fun w => !agrees w ((c :: cs).map foldCase)) && mute cs

/-- The keyword is the word. -/
def covers : List (Option Char) → List Char → Bool
  | [], _ => true
  | _ :: _, [] => false
  | a :: w, c :: k => (match a with | some a => a == c | none => c != '\n') && covers w k

omit [Platform] in
theorem fits_of_covers {w : List (Option Char)} {k cs : List Char} (hw : covers w k = true)
    (hk : k <+: cs.map foldCase) : fits w cs = true := by
  induction w generalizing k cs with
  | nil => rfl
  | cons a w ih =>
    cases k with
    | nil => cases hw
    | cons b k =>
      cases cs with
      | nil => exact absurd (List.prefix_nil.mp hk) (List.cons_ne_nil _ _)
      | cons c cs =>
        simp only [covers, Bool.and_eq_true] at hw
        rw [List.map_cons, List.cons_prefix_cons] at hk
        obtain ⟨rfl, hk⟩ := hk
        simp only [fits, Bool.and_eq_true]
        refine ⟨?_, ih hw.2 hk⟩
        cases a with
        | some a => exact beq_iff_eq.mpr (beq_iff_eq.mp hw.1).symm
        | none =>
          refine bne_iff_ne.mpr ?_
          rintro rfl
          exact absurd hw.1 (by decide)

omit [Platform] in
theorem sensitiveIn_append (cs : List Char) {rest : List Char} (h : sensitiveIn rest = true) :
    sensitiveIn (cs ++ rest) = true := by
  induction cs with
  | nil => exact h
  | cons c cs ih =>
    rw [List.cons_append, sensitiveIn, ih, Bool.or_true]

omit [Platform] in
theorem sensitiveIn_mute {cs rest : List Char} (hmute : mute cs = true) (h : sensitiveIn (cs ++ rest) = true) :
    sensitiveIn rest = true := by
  induction cs with
  | nil => exact h
  | cons c cs ih =>
    simp only [mute, Bool.and_eq_true] at hmute
    rw [List.cons_append, sensitiveIn, Bool.or_eq_true] at h
    rcases h with h | h
    · obtain ⟨w, hw, hfits⟩ := List.any_eq_true.mp h
      have hnone := List.all_eq_true.mp hmute.1 w hw
      rw [agrees_of_fits hfits (by rw [← List.cons_append, List.map_append]; exact List.prefix_append _ _)] at hnone
      cases hnone
    · exact ih hmute.2 h

/-- A sensitive word of a text in which a symbol was passed was in it before. -/
theorem sensitiveIn_plain (hopen : Opens K find)
    (hsealed : sensitiveWords.all (fun w => w.head?.any fun a => sealed K a w.tail) = true)
    {x : Char} {xs : List Char}
    (ih : sensitiveIn (sub find (some x) 0 xs) = true → sensitiveIn xs = true)
    (h : sensitiveIn (x :: sub find (some x) 0 xs) = true) : sensitiveIn (x :: xs) = true := by
  rw [sensitiveIn, Bool.or_eq_true] at h ⊢
  refine h.imp (fun hany => ?_) ih
  obtain ⟨w, hw, hfits⟩ := List.any_eq_true.mp hany
  have hword := List.all_eq_true.mp hsealed w hw
  cases w with
  | nil => cases hword
  | cons a w =>
    simp only [fits, Bool.and_eq_true] at hfits
    refine List.any_eq_true.mpr ⟨a :: w, hw, ?_⟩
    simp only [fits, Bool.and_eq_true]
    exact ⟨hfits.1, (word_sub hopen hword hfits.1 hfits.2).1⟩

/-- `BEARER` makes no text sensitive. -/
theorem sensitive_bearer (prev : Option Char) (cs : List Char) :
    sensitiveIn (sub bearer prev 0 cs) = true → sensitiveIn cs = true := by
  refine cuts_bearer.induction (P := fun prev cs => sensitiveIn (sub bearer prev 0 cs) = true →
    sensitiveIn cs = true) ?_ ?_ ?_ prev cs
  · exact fun _ h => h
  · intro prev x xs hnone ih h
    rw [sub_plain hnone] at h
    exact sensitiveIn_plain opens_bearer (by decide) ih h
  · intro prev x c rest text hmatch ih h
    rw [sub_matched hmatch] at h
    obtain ⟨-, -, -, -, -, rfl⟩ := bearer_eq_some hmatch
    rw [unit_eq] at h
    exact sensitiveIn_append (x :: c) (ih (sensitiveIn_mute (by decide) h))

/-- `ASSIGNMENT` makes no text sensitive: a text that it changes was so. -/
theorem sensitive_assignment (prev : Option Char) (cs : List Char) :
    sensitiveIn (sub assignment prev 0 cs) = true → sensitiveIn cs = true := by
  refine cuts_assignment.induction (P := fun prev cs => sensitiveIn (sub assignment prev 0 cs) = true →
    sensitiveIn cs = true) ?_ ?_ ?_ prev cs
  · exact fun _ h => h
  · intro prev x xs hnone ih h
    rw [sub_plain hnone] at h
    exact sensitiveIn_plain opens_assignment (by decide) ih h
  · intro prev x c rest text hmatch _ _
    obtain ⟨-, k, hk, -, hstart, -⟩ := opens_assignment _ _ _ _ hmatch
    have hall : keywords.all (fun k => sensitiveWords.any fun w => covers w k) = true := by decide
    obtain ⟨w, hw, hcovers⟩ := List.any_eq_true.mp (List.all_eq_true.mp hall k hk)
    rw [sensitiveIn, Bool.or_eq_true]
    exact .inl (List.any_eq_true.mpr ⟨w, hw, fits_of_covers hcovers hstart⟩)

/-- **Redaction makes no text sensitive.** -/
theorem sensitive_redactText {text : String} (h : sensitive (redactText text) = true) : sensitive text = true := by
  rw [sensitive, redactText, String.toList_ofList] at h
  exact sensitive_bearer none _ (sensitive_assignment none _ h)

/-! ### Values -/

/-- The name of a mapping is sensitive. -/
def sensitiveName (fields : JsonObject) : Bool :=
  match fields.find? fun field => field.1 == "name" with
  | some (_, .str name) => sensitive name
  | _ => false

/-- The value of a key is hidden as a whole, in a mapping whose name may be sensitive. -/
def hides (sensitiveName : Bool) (key : String) : Bool :=
  sensitive key || (sensitiveName && (key == "value" || key == "valueFrom"))

mutual

/-- `redact`. -/
def redact (depth : ℕ) (value : Json) : Except Fault Json :=
  if 16 < depth then .error (.value "telemetry nesting exceeds budget")
  else match value with
    | .obj fields => do
      let fields ← redactFields depth (sensitiveName fields) fields
      return .obj fields
    | .arr items => do
      let items ← redactItems depth items
      return .arr items
    | .str text => return .str (redactText text)
    | value => return value

/-- The items of a list. -/
def redactItems (depth : ℕ) : List Json → Except Fault (List Json)
  | [] => return []
  | item :: items => do
    let item ← redact (depth + 1) item
    let items ← redactItems depth items
    return item :: items

/-- The items of a mapping. -/
def redactFields (depth : ℕ) (sensitiveName : Bool) : JsonObject → Except Fault JsonObject
  | [] => return []
  | (key, item) :: fields => do
    let item ← (if hides sensitiveName key then .ok (.str "[REDACTED]") else redact (depth + 1) item)
    let fields ← redactFields depth sensitiveName fields
    return (key, item) :: fields

end

mutual

/-- The texts of a value that are given to `redact_text`. -/
def texts : Json → List String
  | .obj fields => textsOfFields (sensitiveName fields) fields
  | .arr items => textsOfItems items
  | .str text => [text]
  | _ => []

/-- Those of the items of a list. -/
def textsOfItems : List Json → List String
  | [] => []
  | item :: items => texts item ++ textsOfItems items

/-- Those of the items of a mapping. -/
def textsOfFields (sensitiveName : Bool) : JsonObject → List String
  | [] => []
  | (key, item) :: fields =>
    (if hides sensitiveName key then [] else texts item) ++ textsOfFields sensitiveName fields

end

/-- No match of `ASSIGNMENT` in a text, after `BEARER`, ends where a bare value would go on. -/
def Settled (text : String) : Prop := ∀ rest ∈ rests assignment none 0 (redactBearer text.toList), Ends rest

theorem redactText_hidden : redactText "[REDACTED]" = "[REDACTED]" := by
  have hchars : "[REDACTED]".toList = '[' :: ['R', 'E', 'D', 'A', 'C', 'T', 'E', 'D', ']'] := by decide
  have hall : hidden.all (fun c => foldCase c != 'b') = true := by decide
  have htame : Tame bearer none (hidden ++ []) := Tame.append
    (fun prev c hc zs => bearer_none (bne_iff_ne.mp (List.all_eq_true.mp hall c hc))) trivial
  rw [List.append_nil] at htame
  have hbearer : redactBearer "[REDACTED]".toList = hidden := by
    rw [hchars]
    exact sub_of_tame cuts_bearer none hidden htame
  have hassigned : sub assignment none 0 hidden = hidden := by
    have hquiet := sub_quiet '[' ['R', 'E', 'D', 'A', 'C', 'T', 'E', 'D', ']'] [] rfl
    rw [List.append_nil] at hquiet
    rw [hidden, sub_plain (assignment_none (by decide)), hquiet]
    rfl
  rw [redactText, hbearer, hassigned]
  rfl

omit [Platform] in
theorem except_bind_ok {α β : Type} {x : Except Fault α} {f : α → Except Fault β} {b : β} :
    x.bind f = .ok b ↔ ∃ a, x = .ok a ∧ f a = .ok b := by
  cases x with
  | error e => exact ⟨fun h => (by cases h), fun ⟨a, ha, _⟩ => (by cases ha)⟩
  | ok a => exact ⟨fun h => ⟨a, rfl, h⟩, fun ⟨a', ha, h⟩ => by cases ha; exact h⟩

theorem redactItems_cons {depth : ℕ} {item : Json} {items out : List Json} :
    redactItems depth (item :: items) = .ok out ↔ ∃ item' items', redact (depth + 1) item = .ok item' ∧
      redactItems depth items = .ok items' ∧ out = item' :: items' := by
  rw [redactItems]
  constructor
  · intro h
    obtain ⟨item', hitem, hrest⟩ := except_bind_ok.mp h
    obtain ⟨items', hitems, hout⟩ := except_bind_ok.mp hrest
    exact ⟨item', items', hitem, hitems, (Except.ok.inj hout).symm⟩
  · rintro ⟨item', items', hitem, hitems, rfl⟩
    exact except_bind_ok.mpr ⟨item', hitem, except_bind_ok.mpr ⟨items', hitems, rfl⟩⟩

/-- What becomes of the item of a key. -/
def FieldRedacted (depth : ℕ) (sensitiveName : Bool) (key : String) (item item' : Json) : Prop :=
  (hides sensitiveName key = true → item' = .str "[REDACTED]") ∧
    (hides sensitiveName key = false → redact (depth + 1) item = .ok item')

theorem redactFields_cons {depth : ℕ} {name : Bool} {key : String} {item : Json} {fields out : JsonObject} :
    redactFields depth name ((key, item) :: fields) = .ok out ↔ ∃ item' fields',
      FieldRedacted depth name key item item' ∧ redactFields depth name fields = .ok fields' ∧
        out = (key, item') :: fields' := by
  have hfield : ∀ item', (if hides name key = true then .ok (.str "[REDACTED]") else redact (depth + 1) item :
      Except Fault Json) = .ok item' ↔ FieldRedacted depth name key item item' := by
    intro item'
    unfold FieldRedacted
    cases hides name key with
    | true => simp [eq_comm]
    | false => simp
  rw [redactFields]
  constructor
  · intro h
    obtain ⟨item', hitem, hrest⟩ := except_bind_ok.mp h
    obtain ⟨fields', hfields, hout⟩ := except_bind_ok.mp hrest
    exact ⟨item', fields', (hfield item').mp hitem, hfields, (Except.ok.inj hout).symm⟩
  · rintro ⟨item', fields', hitem, hfields, rfl⟩
    exact except_bind_ok.mpr ⟨item', (hfield item').mpr hitem, except_bind_ok.mpr ⟨fields', hfields, rfl⟩⟩

theorem redact_obj {depth : ℕ} {fields : JsonObject} {v : Json} : redact depth (.obj fields) = .ok v ↔
    depth ≤ 16 ∧ ∃ fields', redactFields depth (sensitiveName fields) fields = .ok fields' ∧ v = .obj fields' := by
  rw [redact]
  split_ifs with hdepth
  · exact ⟨fun h => (by cases h), fun h => absurd h.1 (by omega)⟩
  · constructor
    · intro h
      obtain ⟨fields', hfields, hout⟩ := except_bind_ok.mp h
      exact ⟨by omega, fields', hfields, (Except.ok.inj hout).symm⟩
    · rintro ⟨-, fields', hfields, rfl⟩
      exact except_bind_ok.mpr ⟨fields', hfields, rfl⟩

theorem redact_arr {depth : ℕ} {items : List Json} {v : Json} : redact depth (.arr items) = .ok v ↔
    depth ≤ 16 ∧ ∃ items', redactItems depth items = .ok items' ∧ v = .arr items' := by
  rw [redact]
  split_ifs with hdepth
  · exact ⟨fun h => (by cases h), fun h => absurd h.1 (by omega)⟩
  · constructor
    · intro h
      obtain ⟨items', hitems, hout⟩ := except_bind_ok.mp h
      exact ⟨by omega, items', hitems, (Except.ok.inj hout).symm⟩
    · rintro ⟨-, items', hitems, rfl⟩
      exact except_bind_ok.mpr ⟨items', hitems, rfl⟩

theorem redact_str {depth : ℕ} {text : String} {v : Json} : redact depth (.str text) = .ok v ↔
    depth ≤ 16 ∧ v = .str (redactText text) := by
  rw [redact]
  split_ifs with hdepth
  · exact ⟨fun h => (by cases h), fun h => absurd h.1 (by omega)⟩
  · exact ⟨fun h => ⟨by omega, (Except.ok.inj h).symm⟩, fun h => by rw [h.2]; rfl⟩

/-- What has no parts stays as it is. -/
theorem redact_plain {depth : ℕ} {v v' : Json} (hobj : ∀ fields, v ≠ .obj fields) (harr : ∀ items, v ≠ .arr items)
    (hstr : ∀ text, v ≠ .str text) : redact depth v = .ok v' ↔ depth ≤ 16 ∧ v' = v := by
  have hdef : redact depth v =
      if 16 < depth then .error (.value "telemetry nesting exceeds budget") else .ok v := by
    cases v with
    | obj fields => exact absurd rfl (hobj fields)
    | arr items => exact absurd rfl (harr items)
    | str text => exact absurd rfl (hstr text)
    | _ => rfl
  rw [hdef]
  split_ifs with hdepth
  · exact ⟨fun h => (by cases h), fun h => absurd h.1 (by omega)⟩
  · exact ⟨fun h => ⟨by omega, (Except.ok.inj h).symm⟩, fun h => by rw [h.2]⟩

/-- **Only a text becomes a text.** -/
theorem redact_text_of {depth : ℕ} {v : Json} {text : String} (h : redact depth v = .ok (.str text)) :
    ∃ s, v = .str s ∧ text = redactText s ∧ depth ≤ 16 := by
  cases v with
  | str s =>
    obtain ⟨hdepth, heq⟩ := redact_str.mp h
    exact ⟨s, rfl, Json.str.inj heq, hdepth⟩
  | obj fields =>
    obtain ⟨-, fields', -, heq⟩ := redact_obj.mp h
    cases heq
  | arr items =>
    obtain ⟨-, items', -, heq⟩ := redact_arr.mp h
    cases heq
  | _ => cases ((redact_plain (by simp) (by simp) (by simp)).mp h).2

omit [Platform] in
theorem name_shown (name : Bool) : hides name "name" = false := by
  cases name <;> decide

/-- **Redaction makes no name sensitive.** -/
theorem sensitiveName_redacted {depth : ℕ} {name : Bool} {fields fields' : JsonObject}
    (h : redactFields depth name fields = .ok fields') (hname : sensitiveName fields' = true) :
    sensitiveName fields = true := by
  induction fields generalizing fields' with
  | nil =>
    rw [redactFields] at h
    cases h
    exact hname
  | cons field fields ih =>
    obtain ⟨key, item⟩ := field
    obtain ⟨item', rest, hitem, hrest, rfl⟩ := redactFields_cons.mp h
    unfold sensitiveName at hname ⊢
    by_cases hkey : key = "name"
    · subst hkey
      rw [List.find?_cons_of_pos (by rfl)] at hname ⊢
      have hshown := hitem.2 (name_shown name)
      cases item' with
      | str text =>
        obtain ⟨s, rfl, rfl, -⟩ := redact_text_of hshown
        exact sensitive_redactText hname
      | _ => cases hname
    · have hneg : ¬(key == "name") = true := by simpa using hkey
      rw [List.find?_cons_of_neg (by exact hneg)] at hname ⊢
      exact ih hrest hname

/-- A mapping with a sensitive name is not at the last depth: its name was redacted below it. -/
theorem sensitiveName_depth {depth : ℕ} {name : Bool} {fields fields' : JsonObject}
    (h : redactFields depth name fields = .ok fields') (hname : sensitiveName fields = true) : depth < 16 := by
  induction fields generalizing fields' with
  | nil => cases hname
  | cons field fields ih =>
    obtain ⟨key, item⟩ := field
    obtain ⟨item', rest, hitem, hrest, rfl⟩ := redactFields_cons.mp h
    unfold sensitiveName at hname
    by_cases hkey : key = "name"
    · subst hkey
      rw [List.find?_cons_of_pos (by rfl)] at hname
      have hshown := hitem.2 (name_shown name)
      cases item with
      | str text => exact (redact_str.mp hshown).1
      | _ => cases hname
    · have hneg : ¬(key == "name") = true := by simpa using hkey
      rw [List.find?_cons_of_neg (by exact hneg)] at hname
      exact ih hrest hname

omit [Platform] in
theorem bind_error {α β : Type} {x : Except Fault α} {f : α → Except Fault β} {e : Fault}
    (h : x.bind f = .error e) : x = .error e ∨ ∃ a, x = .ok a ∧ f a = .error e := by
  cases x with
  | error e' => exact .inl (congrArg _ (Except.error.inj h))
  | ok a => exact .inr ⟨a, rfl, h⟩

mutual

/-- What `redact` raises is a `ValueError`. -/
theorem redact_fault : ∀ (v : Json) {depth : ℕ} {x : Fault}, redact depth v = .error x → x.isValue = true
  | v, depth, x, h => by
    unfold redact at h
    split_ifs at h with hdeep
    · cases h
      rfl
    · cases v with
      | obj fields =>
        rcases bind_error h with hfields | ⟨out, -, hout⟩
        · exact redactFields_fault fields hfields
        · cases hout
      | arr items =>
        rcases bind_error h with hitems | ⟨out, -, hout⟩
        · exact redactItems_fault items hitems
        · cases hout
      | _ => cases h

theorem redactItems_fault : ∀ (items : List Json) {depth : ℕ} {x : Fault},
    redactItems depth items = .error x → x.isValue = true
  | [], _, _, h => by cases h
  | item :: items, depth, x, h => by
    rcases bind_error h with hitem | ⟨out, -, hrest⟩
    · exact redact_fault item hitem
    · rcases bind_error hrest with hitems | ⟨outs, -, hout⟩
      · exact redactItems_fault items hitems
      · cases hout

theorem redactFields_fault : ∀ (fields : JsonObject) {depth : ℕ} {name : Bool} {x : Fault},
    redactFields depth name fields = .error x → x.isValue = true
  | [], _, _, _, h => by cases h
  | (key, item) :: fields, depth, name, x, h => by
    rcases bind_error h with hitem | ⟨out, -, hrest⟩
    · cases hhides : hides name key with
      | true =>
        rw [hhides] at hitem
        cases hitem
      | false =>
        rw [hhides] at hitem
        exact redact_fault item hitem
    · rcases bind_error hrest with hfields | ⟨outs, -, hout⟩
      · exact redactFields_fault fields hfields
      · cases hout

end

mutual

/-- Redacting a value again. -/
theorem redact_again : ∀ (v : Json) {depth : ℕ} {v' : Json}, redact depth v = .ok v' →
    (redact depth v' = .ok v' ↔ ∀ text ∈ texts v, Settled text)
  | .obj fields, depth, v', h => by
    obtain ⟨hdepth, fields', hfields, rfl⟩ := redact_obj.mp h
    have hagain := redactFields_again fields (fun hname => sensitiveName_redacted hfields hname)
      (fun hname => sensitiveName_depth hfields hname) hfields
    rw [texts, ← hagain, redact_obj]
    exact ⟨fun ⟨_, fields'', hf, heq⟩ => by cases heq; exact hf, fun hf => ⟨hdepth, fields', hf, rfl⟩⟩
  | .arr items, depth, v', h => by
    obtain ⟨hdepth, items', hitems, rfl⟩ := redact_arr.mp h
    rw [texts, ← redactItems_again items hitems, redact_arr]
    exact ⟨fun ⟨_, items'', hi, heq⟩ => by cases heq; exact hi, fun hi => ⟨hdepth, items', hi, rfl⟩⟩
  | .str text, depth, v', h => by
    obtain ⟨hdepth, rfl⟩ := redact_str.mp h
    have htwice : redactText (redactText text) = redactText text ↔ Settled text := redactText_twice
    rw [texts, redact_str]
    simp only [List.mem_singleton, forall_eq, ← htwice]
    exact ⟨fun h => (Json.str.inj h.2).symm, fun h => ⟨hdepth, by rw [h]⟩⟩
  | .null, depth, v', h => by
    obtain ⟨hdepth, rfl⟩ := (redact_plain (by simp) (by simp) (by simp)).mp h
    exact iff_of_true h (by simp [texts])
  | .bool b, depth, v', h => by
    obtain ⟨hdepth, rfl⟩ := (redact_plain (by simp) (by simp) (by simp)).mp h
    exact iff_of_true h (by simp [texts])
  | .int n, depth, v', h => by
    obtain ⟨hdepth, rfl⟩ := (redact_plain (by simp) (by simp) (by simp)).mp h
    exact iff_of_true h (by simp [texts])
  | .float repr, depth, v', h => by
    obtain ⟨hdepth, rfl⟩ := (redact_plain (by simp) (by simp) (by simp)).mp h
    exact iff_of_true h (by simp [texts])

/-- Redacting the items of a list again. -/
theorem redactItems_again : ∀ (items : List Json) {depth : ℕ} {items' : List Json},
    redactItems depth items = .ok items' →
      (redactItems depth items' = .ok items' ↔ ∀ text ∈ textsOfItems items, Settled text)
  | [], depth, items', h => by
    rw [redactItems] at h
    cases h
    exact iff_of_true (by rw [redactItems]; rfl) (by simp [textsOfItems])
  | item :: items, depth, out, h => by
    obtain ⟨item', items', hitem, hitems, rfl⟩ := redactItems_cons.mp h
    rw [textsOfItems, List.forall_mem_append, ← redact_again item hitem, ← redactItems_again items hitems,
      redactItems_cons]
    exact ⟨fun ⟨i, is, hi, his, heq⟩ => by cases heq; exact ⟨hi, his⟩, fun ⟨hi, his⟩ => ⟨_, _, hi, his, rfl⟩⟩

/-- Redacting the items of a mapping again, when its name has not become sensitive. -/
theorem redactFields_again : ∀ (fields : JsonObject) {depth : ℕ} {name name' : Bool} {fields' : JsonObject},
    (name' = true → name = true) → (name = true → depth < 16) → redactFields depth name fields = .ok fields' →
      (redactFields depth name' fields' = .ok fields' ↔ ∀ text ∈ textsOfFields name fields, Settled text)
  | [], depth, name, name', fields', _, _, h => by
    rw [redactFields] at h
    cases h
    exact iff_of_true (by rw [redactFields]; rfl) (by simp [textsOfFields])
  | (key, item) :: fields, depth, name, name', out, hname, hdepth, h => by
    obtain ⟨item', fields', hitem, hfields, rfl⟩ := redactFields_cons.mp h
    have hfirst : FieldRedacted depth name' key item' item' ↔
        ∀ text ∈ (if hides name key = true then [] else texts item), Settled text := by
      cases hhides : hides name key with
      | false =>
        have hshown : hides name' key = false := by
          cases name' with
          | false =>
            rw [hides, Bool.or_eq_false_iff] at hhides ⊢
            exact ⟨hhides.1, rfl⟩
          | true => exact hname rfl ▸ hhides
        rw [if_neg (by simp), ← redact_again item (hitem.2 hhides)]
        exact ⟨fun hf => hf.2 hshown, fun hr => ⟨fun hc => absurd hc (by simp [hshown]), fun _ => hr⟩⟩
      | true =>
        obtain rfl := hitem.1 hhides
        refine iff_of_true ⟨fun _ => rfl, fun hshown => ?_⟩ (by simp)
        rw [hides, Bool.or_eq_false_iff] at hshown
        rw [hides, hshown.1, Bool.false_or, Bool.and_eq_true] at hhides
        exact redact_str.mpr ⟨hdepth hhides.1, by rw [redactText_hidden]⟩
    rw [textsOfFields, List.forall_mem_append, ← hfirst, ← redactFields_again fields hname hdepth hfields,
      redactFields_cons]
    exact ⟨fun ⟨i, fs, hi, hfs, heq⟩ => by cases heq; exact ⟨hi, hfs⟩, fun ⟨hi, hfs⟩ => ⟨_, _, hi, hfs, rfl⟩⟩

end

/-- **Redaction is idempotent exactly where it is settled**: a text that was redacted is redacted to itself if and
only if in what `BEARER` leaves of the text every match of `ASSIGNMENT` ends with it, or before white space, a comma
or a semicolon; and a value that is redacted, if and only if this holds of every text of it that is redacted. -/
theorem redact_twice :
    (∀ text, redactText (redactText text) = redactText text ↔ Settled text) ∧
      ∀ (v v' : Json), redact 0 v = .ok v' → (redact 0 v' = .ok v' ↔ ∀ text ∈ texts v, Settled text) :=
  ⟨fun _ => redactText_twice, fun v _ h => redact_again v h⟩

end Values

/-! ### A mark that is followed by a word -/

section Sample

attribute [local instance] textPlatform

/-- **What follows a closing mark is taken for a part of the value** when the text is redacted again. -/
theorem redact_text_joined : ¬∀ text, redactText (redactText text) = redactText text := by
  intro h
  have hjoined := h "token=\"a\"b"
  revert hjoined
  decide +kernel

/-- A container with a sensitive variable. -/
def sampleContainer : Json :=
  .obj [("name", .str "API token"), ("value", .str "abc"), ("note", .str "secret: x, Bearer y")]

/-- What becomes of it. -/
def redactedContainer : Json :=
  .obj [("name", .str "API token"), ("value", .str "[REDACTED]"),
    ("note", .str "secret=[REDACTED], Bearer [REDACTED]")]

theorem sampleContainer_redacted : redact 0 sampleContainer = .ok redactedContainer := by decide +kernel

/-- It is redacted to itself again. -/
theorem redact_twice_container : redact 0 redactedContainer = .ok redactedContainer := by
  refine (redact_twice.2 sampleContainer redactedContainer sampleContainer_redacted).mpr fun text htext => ?_
  have htexts : texts sampleContainer = ["API token", "secret: x, Bearer y"] := by decide +kernel
  rw [htexts] at htext
  simp only [List.mem_cons, List.not_mem_nil, or_false] at htext
  rcases htext with rfl | rfl
  · exact (redact_twice.1 _).mp (by decide +kernel)
  · exact (redact_twice.1 _).mp (by decide +kernel)

end Sample

end PayOps.Evidence
