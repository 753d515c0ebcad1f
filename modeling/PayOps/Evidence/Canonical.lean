import PayOps.Evidence.LogProjection
import PayOps.Evidence.SpanRecovery
import PayOps.JsonReread
import PayOps.OperatorHost.Knowledge

/-!
# The canonical encoding of artifacts

`ArtifactStore.write` of `payops.evidence.artifacts`, and `decode` of `payops.orchestrator.openai_wire`, which reads
what was written.

## The model

`Held` says which values a Python object holds: a mapping has each key once, and a float is known by its
representation. `Accepted` is what `write` checks of a payload before it publishes its encoding.

## What is proved

* `Held.printable` — an accepted payload is written in numerals and literals that are read back.
* `Accepted.decoded` — what is decoded is the sorted payload.
* `canonical_encoding_stable` — **main result**: what is decoded is written as before, and payloads whose decoded values
  are the same have one digest.

## Honest scope

`repr` of a float is a parameter; what is used of it is that `float` inverts it. Two values are the same if they have
the same type: `1`, `1.0` and `True` are three values of JSON, which Python's `==` does not distinguish.
-/

namespace PayOps.Evidence.FileStore

open Json (Printable Style alike arrange scanNumber sortedFields)
open OperatorHost (decode withinDepth itemsWithin fieldsWithin)

/-! ### Payloads -/

mutual

/-- `int.__repr__` converts each integer of the value: it has at most 4300 digits, which is Python's default bound. -/
def convertible : Json → Bool
  | .int n => (Nat.toDigits 10 n.natAbs).length ≤ 4300
  | .arr items => convertibleItems items
  | .obj fields => convertibleFields fields
  | _ => true

/-- The same of the items of a list. -/
def convertibleItems : List Json → Bool
  | [] => true
  | x :: xs => convertible x && convertibleItems xs

/-- The same of the members of a mapping. -/
def convertibleFields : List (String × Json) → Bool
  | [] => true
  | (_, x) :: xs => convertible x && convertibleFields xs

end

/-- What `write` checks of a payload, and the bytes that it publishes. -/
structure Accepted [Hashing] (payload : JsonObject) (content : Bytes) : Prop where
  /-- Every integer is converted. -/
  converted : convertibleFields payload = true
  /-- Every float is finite, and this is the text. -/
  encoded : encode payload = .ok content
  /-- The text is within the budget. -/
  budget : content.length ≤ MAX_ARTIFACT_BYTES
  /-- `path_for`. -/
  named : digestOk (Hashing.hexdigest content) = true

section Model

variable [Platform]

/-- A value that Python holds. -/
inductive Held : Json → Prop where
  /-- `None`. -/
  | null : Held .null
  /-- A boolean. -/
  | bool (b : Bool) : Held (.bool b)
  /-- An integer. -/
  | int (n : ℤ) : Held (.int n)
  /-- A float, by its representation. -/
  | float {r : String} (h : r ∈ ["nan", "inf", "-inf"] ∨ ∃ numeral, r = Platform.floatRepr numeral) : Held (.float r)
  /-- A string. -/
  | str (s : String) : Held (.str s)
  /-- A list. -/
  | arr {items : List Json} (h : ∀ x ∈ items, Held x) : Held (.arr items)
  /-- A mapping. -/
  | obj {fields : JsonObject} (hkeys : (fields.map Prod.fst).Nodup) (h : ∀ f ∈ fields, Held f.2) : Held (.obj fields)

/-- `float` inverts `repr`: the representation of a finite float is a numeral with a fraction or an exponent, and
denotes this float. -/
def ReprInverts : Prop :=
  ∀ numeral, finite (.float (Platform.floatRepr numeral)) = true →
    scanNumber (Platform.floatRepr numeral).toList = some (.float (Platform.floatRepr numeral), [])

/-! ### What is written -/

omit [Platform] in
theorem convertibleItems_iff (items : List Json) :
    convertibleItems items = true ↔ ∀ x ∈ items, convertible x = true := by
  induction items with
  | nil => simp [convertibleItems]
  | cons x xs ih => simp [convertibleItems, ih]

omit [Platform] in
theorem convertibleFields_iff (fields : JsonObject) :
    convertibleFields fields = true ↔ ∀ f ∈ fields, convertible f.2 = true := by
  induction fields with
  | nil => simp [convertibleFields]
  | cons f fs ih => simp [convertibleFields, ih]

omit [Platform] in
theorem itemsWithin_iff (room : ℕ) (items : List Json) :
    itemsWithin room items = true ↔ ∀ x ∈ items, withinDepth room x = true := by
  induction items with
  | nil => simp [itemsWithin]
  | cons x xs ih => simp [itemsWithin, ih]

omit [Platform] in
theorem fieldsWithin_iff (room : ℕ) (fields : JsonObject) :
    fieldsWithin room fields = true ↔ ∀ f ∈ fields, withinDepth room f.2 = true := by
  induction fields with
  | nil => simp [fieldsWithin]
  | cons f fs ih => simp [fieldsWithin, ih]

/-- **An accepted value is printable**: its numbers are read back. -/
theorem Held.printable (hrepr : ReprInverts) {v : Json} (h : Held v) (hfinite : finite v = true)
    (hconvertible : convertible v = true) {room : ℕ} (hroom : withinDepth room v = true) : Printable room v := by
  induction h generalizing room with
  | null => exact .null
  | bool b => exact .bool b
  | int n => exact .int (by simpa [convertible] using hconvertible)
  | @float r h =>
    rcases h with hspecial | ⟨numeral, rfl⟩
    · simp only [List.mem_cons, List.not_mem_nil, or_false] at hspecial
      rcases hspecial with rfl | rfl | rfl <;> cases hfinite
    · exact .float (hrepr numeral hfinite)
  | str s => exact .str s
  | @arr items h ih =>
    cases room with
    | zero => simp [withinDepth] at hroom
    | succ room =>
      rw [finite, finiteItems_iff] at hfinite
      rw [convertible, convertibleItems_iff] at hconvertible
      rw [withinDepth, itemsWithin_iff] at hroom
      exact .arr fun x hx => ih x hx (hfinite x hx) (hconvertible x hx) (hroom x hx)
  | @obj fields hkeys h ih =>
    cases room with
    | zero => simp [withinDepth] at hroom
    | succ room =>
      rw [finite, finiteFields_iff] at hfinite
      rw [convertible, convertibleFields_iff] at hconvertible
      rw [withinDepth, fieldsWithin_iff] at hroom
      exact .obj hkeys fun f hf => ih f hf (hfinite f hf) (hconvertible f hf) (hroom f hf)

theorem printable_convertible {bound : ℕ} {v : Json} (h : Printable bound v) : convertible v = true := by
  induction h with
  | null => rfl
  | bool b => rfl
  | int h => simpa [convertible] using h
  | float h => rfl
  | str s => rfl
  | arr h ih =>
    rw [convertible, convertibleItems_iff]
    exact ih
  | obj hkeys h ih =>
    rw [convertible, convertibleFields_iff]
    exact ih

/-- The order of the members changes no depth. -/
theorem Held.withinDepth_sorted {v : Json} (h : Held v) {room : ℕ} (hroom : withinDepth room v = true) :
    withinDepth room (Json.sorted v) = true := by
  induction h generalizing room with
  | null => exact hroom
  | bool b => exact hroom
  | int n => exact hroom
  | float h => exact hroom
  | str s => exact hroom
  | @arr items h ih =>
    cases room with
    | zero => simp [withinDepth] at hroom
    | succ room =>
      rw [withinDepth, itemsWithin_iff] at hroom
      rw [Json.sorted, withinDepth, itemsWithin_iff, Json.sortedItems_map]
      intro x hx
      obtain ⟨y, hy, rfl⟩ := List.mem_map.mp hx
      exact ih y hy (hroom y hy)
  | @obj fields hkeys h ih =>
    cases room with
    | zero => simp [withinDepth] at hroom
    | succ room =>
      rw [withinDepth, fieldsWithin_iff] at hroom
      rw [Json.sorted, withinDepth, fieldsWithin_iff, Json.sortedFields_map]
      intro f hf
      obtain ⟨g, hg, rfl⟩ := List.mem_map.mp (Json.mem_arrange.mp hf)
      exact ih g hg (hroom g hg)

/-! ### What is read -/

omit [Platform] in
theorem spaced_canonicalUtf8 : Style.canonicalUtf8.Spaced [] [] where
  item := rfl
  key := rfl
  blank := by simp [Json.Blank]

variable [Hashing] {payload payload' : JsonObject} {content content' : Bytes}

omit [Platform] in
theorem Accepted.isFinite (h : Accepted payload content) : finiteFields payload = true := by
  have hencoded := h.encoded
  unfold encode at hencoded
  split_ifs at hencoded with hfinite
  exact hfinite

omit [Platform] in
/-- The bytes are those of the text. -/
theorem Accepted.content_eq (h : Accepted payload content) :
    content = Text.encodeUtf8 (Json.dumps .canonicalUtf8 (.obj payload)) := by
  have hencoded := h.encoded
  rw [encode, if_pos h.isFinite] at hencoded
  exact (Except.ok.inj hencoded).symm

/-- An accepted payload is printable. -/
theorem Accepted.printable (hrepr : ReprInverts) (hheld : Held (.obj payload)) (h : Accepted payload content)
    (hroom : withinDepth 25 (.obj payload) = true) : Printable 25 (.obj payload) :=
  hheld.printable hrepr h.isFinite h.converted hroom

/-- **What is decoded is the sorted payload.** -/
theorem Accepted.decoded (hrepr : ReprInverts) (hnesting : 25 ≤ Platform.nesting) (hheld : Held (.obj payload))
    (h : Accepted payload content) (hroom : withinDepth 25 (.obj payload) = true) {limit : ℕ}
    (hlimit : content.length ≤ limit) : decode content limit = .ok (arrange (sortedFields payload)) := by
  have hprintable := h.printable hrepr hheld hroom
  have hread : Json.loads (Json.dumps .canonicalUtf8 (.obj payload)) = some (Json.sorted (.obj payload)) :=
    Json.loads_dumps_sorted spaced_canonicalUtf8 rfl (hprintable.mono hnesting)
  have hfinite : finite (Json.sorted (.obj payload)) = true := Trace.finite_printable hprintable.sorted
  have hloads : Trace.loadsFinite (Json.dumps .canonicalUtf8 (.obj payload)) = some (Json.sorted (.obj payload)) := by
    rw [Trace.loadsFinite, hread, Option.filter_some, if_pos hfinite]
  have hdepth := hheld.withinDepth_sorted hroom
  rw [decode, if_neg (not_lt.mpr hlimit), h.content_eq, Text.decodeUtf8_encodeUtf8, Option.bind_some, hloads]
  simp only [hdepth]
  rfl

omit [Hashing] in
/-- What is decoded is within the limit. -/
theorem decode_length {limit : ℕ} {decoded : JsonObject} (h : decode content limit = .ok decoded) :
    content.length ≤ limit := by
  by_contra hlimit
  rw [decode, if_pos (not_le.mp hlimit)] at h
  cases h

/-- **The sorted payload is accepted**, with the same bytes. -/
theorem Accepted.sorted (hrepr : ReprInverts) (hheld : Held (.obj payload)) (h : Accepted payload content)
    (hroom : withinDepth 25 (.obj payload) = true) : Accepted (arrange (sortedFields payload)) content := by
  have hprintable := (h.printable hrepr hheld hroom).sorted
  refine ⟨printable_convertible hprintable, ?_, h.budget, h.named⟩
  have hfinite : finiteFields (arrange (sortedFields payload)) = true := Trace.finite_printable hprintable
  have htext : Json.dumps .canonicalUtf8 (Json.sorted (.obj payload)) = Json.dumps .canonicalUtf8 (.obj payload) :=
    Json.dumps_of_sorted rfl _
  rw [encode, if_pos hfinite, h.content_eq, ← htext]
  rfl

omit [Platform] in
/-- `write` depends on the encoding only. -/
theorem write_congr [Numerals] (h : encode payload = encode payload') : write payload = write payload' := by
  rw [write, write, h]

/-- **Payloads that are alike** have the same bytes. -/
theorem Accepted.unique (hrepr : ReprInverts) (hheld : Held (.obj payload)) (hheld' : Held (.obj payload'))
    (h : Accepted payload content) (h' : Accepted payload' content') (hroom : withinDepth 25 (.obj payload) = true)
    (hroom' : withinDepth 25 (.obj payload') = true) (halike : alike (.obj payload) (.obj payload') = true) :
    content = content' := by
  have hsorted := Json.sorted_of_alike (h.printable hrepr hheld hroom) (h'.printable hrepr hheld' hroom') halike
  rw [h.content_eq, h'.content_eq, ← Json.dumps_of_sorted rfl, hsorted, Json.dumps_of_sorted rfl]

/-- **The canonical encoding is stable.** What `decode` reads of the stored bytes of a payload is accepted with the same
bytes, and written by the same requests. Two payloads whose decoded values are the same have one encoding and one
digest, and so have two that differ in the order of their members only. -/
theorem canonical_encoding_stable [Numerals] (hrepr : ReprInverts) (hnesting : 25 ≤ Platform.nesting) :
    (∀ payload content limit, Held (.obj payload) → Accepted payload content →
      withinDepth 25 (.obj payload) = true → content.length ≤ limit →
        ∃ decoded, decode content limit = .ok decoded ∧ Accepted decoded content ∧ write decoded = write payload) ∧
    (∀ payload payload' content content', Held (.obj payload) → Held (.obj payload') →
      Accepted payload content → Accepted payload' content' →
      withinDepth 25 (.obj payload) = true → withinDepth 25 (.obj payload') = true →
        (∀ limit limit' decoded decoded', decode content limit = .ok decoded → decode content' limit' = .ok decoded' →
          alike (.obj decoded) (.obj decoded') = true →
            content = content' ∧ Hashing.hexdigest content = Hashing.hexdigest content') ∧
        (alike (.obj payload) (.obj payload') = true →
          content = content' ∧ Hashing.hexdigest content = Hashing.hexdigest content')) := by
  refine ⟨fun payload content limit hheld h hroom hlimit => ?_,
    fun payload payload' content content' hheld hheld' h h' hroom hroom' => ⟨?_, fun halike => ?_⟩⟩
  · have hsorted := h.sorted hrepr hheld hroom
    exact ⟨_, h.decoded hrepr hnesting hheld hroom hlimit, hsorted, write_congr (hsorted.encoded.trans h.encoded.symm)⟩
  · intro limit limit' decoded decoded' hdecode hdecode' halike
    have hlimit := decode_length hdecode
    have hlimit' := decode_length hdecode'
    obtain rfl := Except.ok.inj (hdecode.symm.trans (h.decoded hrepr hnesting hheld hroom hlimit))
    obtain rfl := Except.ok.inj (hdecode'.symm.trans (h'.decoded hrepr hnesting hheld' hroom' hlimit'))
    have hprintable := (h.printable hrepr hheld hroom).sorted
    have hprintable' := (h'.printable hrepr hheld' hroom').sorted
    have hsame : Json.sorted (Json.sorted (.obj payload)) = Json.sorted (Json.sorted (.obj payload')) :=
      Json.sorted_of_alike hprintable hprintable' halike
    rw [Json.sorted_sorted, Json.sorted_sorted] at hsame
    have hcontent : content = content' := by
      rw [h.content_eq, h'.content_eq, ← Json.dumps_of_sorted rfl, hsame, Json.dumps_of_sorted rfl]
    exact ⟨hcontent, congrArg _ hcontent⟩
  · have hcontent := h.unique hrepr hheld hheld' h' hroom hroom' halike
    exact ⟨hcontent, congrArg _ hcontent⟩

end Model

/-! ### A payload -/

section Sample

/-- A platform on which the floats of the sample are represented. -/
@[reducible] def tenthPlatform : Platform where
  sha256 text := text
  patternWord _ := false
  reWord _ := false
  nesting := 1000
  floatRepr numeral := if numeral = "0.1" then "0.1" else "1e+16"

/-- A digest for each text. -/
@[reducible] def tenthHashing : Hashing where
  hexdigest _ := "5fc92a506f98b17b81bf17c5bc36368a256766c771f3cd4fb35658b83b8e578f"
  validateJson _ := .ok []

attribute [local instance] tenthPlatform tenthHashing noNumerals

theorem tenth_inverts : ReprInverts := by
  intro numeral _
  by_cases h : numeral = "0.1"
  · rw [show Platform.floatRepr numeral = "0.1" from if_pos h]
    decide
  · rw [show Platform.floatRepr numeral = "1e+16" from if_neg h]
    decide

/-- A payload, whose keys are not in order. -/
def tenthPayload : JsonObject := [("ü\n", .arr [.float "0.1", .int (-20), .null]), ("a", .obj [("y", .bool true), ("x", .str "é")])]

theorem tenth_held : Held (.obj tenthPayload) := by
  refine .obj (by decide) fun f hf => ?_
  simp only [tenthPayload, List.mem_cons, List.not_mem_nil, or_false] at hf
  rcases hf with rfl | rfl
  · refine .arr fun x hx => ?_
    simp only [List.mem_cons, List.not_mem_nil, or_false] at hx
    rcases hx with rfl | rfl | rfl
    · exact .float (.inr ⟨"0.1", rfl⟩)
    · exact .int _
    · exact .null
  · refine .obj (by decide) fun g hg => ?_
    simp only [List.mem_cons, List.not_mem_nil, or_false] at hg
    rcases hg with rfl | rfl
    · exact .bool true
    · exact .str _

/-- The bytes of the payload. -/
def tenthContent : Bytes := Text.encodeUtf8 (Json.dumps .canonicalUtf8 (.obj tenthPayload))

theorem tenth_accepted : Accepted tenthPayload tenthContent := by
  refine ⟨by decide, if_pos (by decide), ?_, by decide⟩
  rw [tenthContent, Text.length_encodeUtf8]
  decide

/-- The payload is decoded, and written as before. -/
theorem canonical_encoding_tenth : ∃ decoded, decode tenthContent MAX_ARTIFACT_BYTES = .ok decoded ∧
    Accepted decoded tenthContent ∧ write decoded = write tenthPayload :=
  (canonical_encoding_stable tenth_inverts (by decide)).1 tenthPayload tenthContent MAX_ARTIFACT_BYTES tenth_held
    tenth_accepted (by decide) tenth_accepted.budget

end Sample

end PayOps.Evidence.FileStore
