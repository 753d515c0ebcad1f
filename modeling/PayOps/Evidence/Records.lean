import PayOps.Evidence.Normalize

/-!
# Evidence items of other producers

What pydantic makes of an `EvidenceItem` that is read, and what `ArtifactStore.verify` returns for it.

## The model

A store is only read here, so that a verification is a function of what it holds.
-/

namespace PayOps.Evidence

open Json (field asStr)
open FileStore (Bytes Hashing Raised)

/-- How pydantic reads datetimes. -/
class Datetimes where
  /-- An aware datetime of a strict model, from its text. -/
  strict : String → Option Time
  /-- An aware datetime of another model, from its JSON. -/
  lax : Json → Option Time

/-! ### Fields -/

/-- A field that is a string. -/
def textField (fields : JsonObject) (key : String) : Option String := (field fields key).bind asStr

/-- A `Literal` with a default. -/
def literalField (fields : JsonObject) (key : String) (value : Json) : Bool := (field fields key).all (· == value)

/-- `extra="forbid"`. -/
def onlyFields (fields : JsonObject) (names : List String) : Bool := fields.all fun f => names.contains f.1

/-- The sources. -/
def sources : List Source := [.kubernetes, .prometheus, .log, .trace, .deployment, .payment, .runbook, .memory]

/-- The source of a literal. -/
def sourceOf (text : String) : Option Source := sources.find? fun s => sourceText s == text

section Items

variable [Platform] [Datetimes]

/-- A field that is an identifier. -/
def identifierField (fields : JsonObject) (key : String) : Option Identifier :=
  (textField fields key).bind Identifier.validate

/-- A field that is a summary. -/
def summaryField (fields : JsonObject) (key : String) : Option Summary := (textField fields key).bind Summary.validate

/-- A field that is an aware datetime. -/
def timeField (fields : JsonObject) (key : String) : Option Time := (field fields key).bind Datetimes.lax

/-- The names of the fields of an `EvidenceItem`. -/
def itemNames : List String :=
  ["evidence_id", "incident_id", "source", "observed_at", "collected_at", "query", "resource", "artifact_uri",
    "artifact_sha256", "summary", "untrusted_text"]

/-- `EvidenceItem.model_validate`. -/
def EvidenceItem.validate : Json → Option EvidenceItem
  | .obj fields => do
    let evidenceId ← identifierField fields "evidence_id"
    let incidentId ← identifierField fields "incident_id"
    let source ← (textField fields "source").bind sourceOf
    let observedAt ← timeField fields "observed_at"
    let collectedAt ← timeField fields "collected_at"
    let query ← summaryField fields "query"
    let resource ← identifierField fields "resource"
    let artifactUri ← summaryField fields "artifact_uri"
    let artifactSha256 ← (textField fields "artifact_sha256").bind Digest.validate
    let summary ← summaryField fields "summary"
    if literalField fields "untrusted_text" (.bool true) && onlyFields fields itemNames then
      some ⟨evidenceId, incidentId, source, observedAt, collectedAt, query, resource, artifactUri, artifactSha256,
        summary⟩
    else none
  | _ => none

omit [Datetimes] in
/-- `Observation(…)`, of texts. -/
def Observation.make (source : Source) (resource : String) (observedAt : Time) (query summary : String)
    (payload : JsonObject) : Except Fault Observation :=
  match Identifier.validate resource, Summary.validate query, Summary.validate summary with
  | some resource, some query, some summary => .ok ⟨source, resource, observedAt, query, summary, payload⟩
  | _, _, _ => .error (.value "ValidationError")

end Items

/-- `EvidenceItem.model_dump(mode="json")`. -/
def dumpItem [Platform] [Isoformat] (item : EvidenceItem) : Json :=
  .obj [("evidence_id", .str item.evidenceId.val), ("incident_id", .str item.incidentId.val),
    ("source", .str (sourceText item.source)), ("observed_at", .str (Isoformat.isoformat item.observedAt)),
    ("collected_at", .str (Isoformat.isoformat item.collectedAt)), ("query", .str item.query.val),
    ("resource", .str item.resource.val), ("artifact_uri", .str item.artifactUri.val),
    ("artifact_sha256", .str item.artifactSha256.val), ("summary", .str item.summary.val),
    ("untrusted_text", .bool true)]

/-! ### Verified envelopes -/

section Verified

variable [Platform] [Hashing] [Isoformat] [Numerals]

/-- `ArtifactStore.verify`: the envelope that is held. -/
def verifyEnvelope (held : Artifacts) (item : EvidenceItem) : Except Fault JsonObject := do
  if item.artifactUri.val ≠ "sha256://" ++ item.artifactSha256.val then
    throw (.integrity "artifact URI and digest disagree")
  verifyContent item (held item.artifactSha256.val)
  match held item.artifactSha256.val with
  | some content => (Hashing.validateJson content).mapError Raised.fault
  | none => throw (.integrity "artifact unavailable")

/-- The envelope of a verified item is what the content under its digest says, and it names the item. -/
theorem verifyEnvelope_ok {held : Artifacts} {item : EvidenceItem} {envelope : JsonObject}
    (h : verifyEnvelope held item = .ok envelope) :
    ∃ content, held item.artifactSha256.val = some content ∧ Hashing.validateJson content = .ok envelope ∧
      Hashing.hexdigest content = item.artifactSha256.val ∧
      ∃ found, field envelope "evidence" = some found ∧
        Json.pythonEqual found (.obj (dumpMetadata item.metadata)) = true := by
  unfold verifyEnvelope at h
  split_ifs at h
  · cases h
  · obtain ⟨_, hcontent, hread⟩ := bind_eq_ok.mp h
    cases hheld : held item.artifactSha256.val with
    | none => simp [hheld, verifyContent] at hcontent
    | some content =>
      simp only [hheld, verifyContent] at hcontent hread
      split_ifs at hcontent with hintact
      simp only [not_or, not_not] at hintact
      cases hparsed : Hashing.validateJson content with
      | error x => simp [hparsed, Except.mapError] at hread
      | ok parsed =>
        obtain rfl : parsed = envelope := by simpa [hparsed, Except.mapError] using hread
        cases hfound : field parsed "evidence" with
        | none => simp [FileStore.validateEnvelope, hparsed, hfound, bind, Except.bind, Except.mapError] at hcontent
        | some found =>
          simp only [FileStore.validateEnvelope, hparsed, hfound, bind, Except.bind] at hcontent
          split_ifs at hcontent with hequal
          · exact ⟨content, rfl, hparsed, hintact.2, found, rfl, hequal⟩
          · simp [Except.mapError] at hcontent

/-- A verified item names its artifact by its digest. -/
theorem verifyEnvelope_uri {held : Artifacts} {item : EvidenceItem} {envelope : JsonObject}
    (h : verifyEnvelope held item = .ok envelope) :
    item.artifactUri.val = "sha256://" ++ item.artifactSha256.val := by
  unfold verifyEnvelope at h
  split_ifs at h with huri
  · cases h
  · exact not_not.mp huri

/-- The content of a verified item says what the item says. -/
theorem verifyEnvelope_content {held : Artifacts} {item : EvidenceItem} {envelope : JsonObject}
    (h : verifyEnvelope held item = .ok envelope) : verifyContent item (held item.artifactSha256.val) = .ok () := by
  unfold verifyEnvelope at h
  split_ifs at h
  · cases h
  · obtain ⟨_, hcontent, -⟩ := bind_eq_ok.mp h
    exact hcontent

omit [FileStore.Hashing] in
/-- Metadata equal themselves. -/
theorem metadata_equal (m : EvidenceMetadata) :
    Json.pythonEqual (.obj (dumpMetadata m)) (.obj (dumpMetadata m)) = true := by
  simp [dumpMetadata, Json.pythonEqual, Json.equal, Json.equalFields, Json.field, Json.pythonScalarEqual,
    Json.pythonNumber, Json.sameNumber]

/-- **What is held and names the item** is its verified envelope. -/
theorem verifyEnvelope_of {held : Artifacts} {item : EvidenceItem} {envelope : JsonObject} {content : Bytes}
    {found : Json} (huri : item.artifactUri.val = "sha256://" ++ item.artifactSha256.val)
    (hheld : held item.artifactSha256.val = some content) (hsmall : content.length ≤ FileStore.MAX_ARTIFACT_BYTES)
    (hdigest : Hashing.hexdigest content = item.artifactSha256.val)
    (hread : Hashing.validateJson content = .ok envelope) (hfound : field envelope "evidence" = some found)
    (hequal : Json.pythonEqual found (.obj (dumpMetadata item.metadata)) = true) :
    verifyEnvelope held item = .ok envelope := by
  have hintact : ¬(FileStore.MAX_ARTIFACT_BYTES < content.length ∨
      Hashing.hexdigest content ≠ item.artifactSha256.val) := by
    rw [not_or, not_not]
    exact ⟨not_lt.mpr hsmall, hdigest⟩
  have hvalid : FileStore.validateEnvelope content
      ⟨item.artifactUri.val, item.artifactSha256.val, dumpMetadata item.metadata⟩ = .ok () := by
    simp only [FileStore.validateEnvelope, hread, hfound, hequal, bind, Except.bind, if_true]
  simp only [verifyEnvelope, huri, ne_eq, not_true, if_false, hheld, verifyContent, hintact]
  rw [← huri, hvalid, hread]
  rfl

/-- **The content under a digest says what it is**: two verified items of one digest have the same texts. -/
theorem text_of_digest {held : Artifacts} {a b : EvidenceItem} {envelope envelope' : JsonObject}
    (ha : verifyEnvelope held a = .ok envelope) (hb : verifyEnvelope held b = .ok envelope')
    (hsame : a.artifactSha256 = b.artifactSha256) (key : String) {s t : String}
    (hs : field (dumpMetadata a.metadata) key = some (.str s))
    (ht : field (dumpMetadata b.metadata) key = some (.str t)) : s = t := by
  obtain ⟨content, hheld, hread, -, found, hfound, hequal⟩ := verifyEnvelope_ok ha
  obtain ⟨content', hheld', hread', -, found', hfound', hequal'⟩ := verifyEnvelope_ok hb
  rw [hsame] at hheld
  obtain rfl : content = content' := Option.some.inj (hheld.symm.trans hheld')
  obtain rfl : envelope = envelope' := Except.ok.inj (hread.symm.trans hread')
  obtain rfl : found = found' := Option.some.inj (hfound.symm.trans hfound')
  obtain ⟨fields, rfl, hfields⟩ := Json.pythonEqual_field hequal
  obtain ⟨fields', hobj, hfields'⟩ := Json.pythonEqual_field hequal'
  obtain rfl := Json.obj.inj hobj
  obtain ⟨value, hvalue, htext⟩ := hfields key _ hs
  obtain ⟨value', hvalue', htext'⟩ := hfields' key _ ht
  obtain rfl : value = value' := Option.some.inj (hvalue.symm.trans hvalue')
  exact Json.str.inj ((Json.pythonEqual_str htext).symm.trans (Json.pythonEqual_str htext'))

end Verified

end PayOps.Evidence
