import PayOps.Contracts
import PayOps.Evidence.FileStore
import PayOps.Evidence.RedactValues
import PayOps.Text.Utf8

/-!
# Normalization

`normalize` of `payops.evidence.normalize`: an observation is redacted, validated and retained, and becomes
evidence.

## The model

`Artifacts` is what a store holds under each digest, and a `Storing` computation leaves the artifacts it wrote
also when it raises. `new_id` and `utc_now` are given by their results. A datetime that may be naive is an
`Option`.

## What is proved

* `redactText_shown` — no text is redacted to white space.
* `normalize_eval` — what `normalize` returns and what it leaves in the store.
* `normalize_accepts` — **main result**: an observation in its window that can be stored is accepted if and only
  if the redacted texts still fit in a summary and every float of the payload is finite.

## Honest scope

No file operation fails here, and no name in the store is a link to another directory; `FileStore` says what holds
when one does. How a datetime is written depends on its zone also, which `Time` leaves out.
-/

namespace PayOps.Evidence

open FileStore (Bytes Hashing MAX_ARTIFACT_BYTES encode Raised)
open Text

/-! ### The store -/

/-- What a store holds under each digest. -/
abbrev Artifacts := String → Option Bytes

/-- A computation that writes artifacts; those it wrote stay when it raises. -/
abbrev Storing (α : Type) := ExceptT Fault (StateM Artifacts) α

namespace Storing

variable {α β : Type}

/-- What it comes to, and what the store holds then. -/
def eval (x : Storing α) (held : Artifacts) : Except Fault α × Artifacts := StateT.run (ExceptT.run x) held

/-- A computation that leaves the store alone. -/
def lift (x : Except Fault α) : Storing α := ExceptT.mk (pure x)

/-- The artifacts that are held now. -/
def current : Storing Artifacts := fun held => (.ok held, held)

/-- Other artifacts are held. -/
def replace (later : Artifacts) : Storing Unit := fun _ => (.ok (), later)

@[simp] theorem eval_current (held : Artifacts) : current.eval held = (.ok held, held) := rfl

@[simp] theorem eval_replace (later held : Artifacts) : (replace later).eval held = (.ok (), later) := rfl

@[simp] theorem eval_lift (x : Except Fault α) (held : Artifacts) : (lift x).eval held = (x, held) := rfl

@[simp] theorem eval_pure (a : α) (held : Artifacts) : (pure a : Storing α).eval held = (.ok a, held) := rfl

@[simp] theorem eval_throw (x : Fault) (held : Artifacts) :
    (throw x : Storing α).eval held = (.error x, held) := rfl

theorem eval_bind (x : Storing α) (f : α → Storing β) (held : Artifacts) :
    (x >>= f).eval held =
      match x.eval held with
      | (.ok a, held') => (f a).eval held'
      | (.error e, held') => (.error e, held') := by
  unfold eval
  simp only [ExceptT.run_bind, StateT.run_bind]
  show (match (x.run.run held).1 with | _ => _) = _
  rcases x.run.run held with ⟨_ | _, _⟩ <;> rfl

theorem bind_ok {x : Storing α} {f : α → Storing β} {held held' : Artifacts} {b : β} :
    (x >>= f).eval held = (.ok b, held') ↔
      ∃ a between, x.eval held = (.ok a, between) ∧ (f a).eval between = (.ok b, held') := by
  rw [eval_bind]
  rcases x.eval held with ⟨_ | a, between⟩ <;> simp

end Storing

/-- What a `FileStore` raises, as the handlers of its callers tell it apart. -/
def FileStore.Raised.fault : Raised → Fault
  | .fileExists => .os "FileExistsError"
  | .osError message => .os message
  | .integrity message => .integrity message
  | .other className message => if className = "ValueError" then .value message else .other className

section Store

variable [Hashing]

/-- `publish_once`. -/
def publishOnce (digest : String) (content : Bytes) : Storing Unit := do
  let held ← Storing.current
  match held digest with
  | some found => if found ≠ content then throw (.integrity "existing artifact is corrupt")
  | none => Storing.replace (Function.update held digest (some content))

/-- `ArtifactStore.write`. -/
def writeArtifact (payload : JsonObject) : Storing (String × String) := do
  let content ← Storing.lift ((encode payload).mapError Raised.fault)
  if MAX_ARTIFACT_BYTES < content.length then throw (.integrity "artifact exceeds byte budget")
  let digest := Hashing.hexdigest content
  if digestOk digest = false then throw (.integrity "invalid artifact digest")
  publishOnce digest content
  return ("sha256://" ++ digest, digest)

/-- A payload that can be stored, with its content: nothing else is held under its digest. -/
structure Storable (held : Artifacts) (payload : JsonObject) (content : Bytes) : Prop where
  /-- `json.dumps` gives the content. -/
  encoded : encode payload = .ok content
  /-- It is within the byte budget. -/
  small : content.length ≤ MAX_ARTIFACT_BYTES
  /-- The digest names it. -/
  named : digestOk (Hashing.hexdigest content) = true
  /-- No other content is held under the digest. -/
  compatible : ∀ found, held (Hashing.hexdigest content) = some found → found = content

/-- What the store holds when a content has been published. -/
def published (held : Artifacts) (content : Bytes) : Artifacts :=
  Function.update held (Hashing.hexdigest content) (some content)

omit [Hashing] in
theorem encode_fault {payload : JsonObject} {x : Raised} (h : encode payload = .error x) :
    x.fault.isValue = true := by
  unfold encode at h
  split_ifs at h
  cases h
  rfl

omit [Hashing] in
/-- **A light payload** is encoded within the budget. -/
theorem encode_small {payload : JsonObject} (hfinite : FileStore.finiteFields payload = true)
    (hweight : 4 * (Json.obj payload).weight ≤ MAX_ARTIFACT_BYTES) :
    ∃ content, encode payload = .ok content ∧ content.length ≤ MAX_ARTIFACT_BYTES := by
  refine ⟨Text.encodeUtf8 (Json.dumps .canonicalUtf8 (.obj payload)), if_pos hfinite, ?_⟩
  have hdumps : (Json.dumps .canonicalUtf8 (.obj payload)).length ≤ (Json.obj payload).weight :=
    Json.dumps_weight ⟨by decide, by decide⟩ _
  rw [Text.length_encodeUtf8]
  exact (Text.utf8Length_le _).trans ((Nat.mul_le_mul_left 4 hdumps).trans hweight)

omit [Hashing] in
theorem publishOnce_new {held : Artifacts} {digest : String} {content : Bytes}
    (h : ∀ found, held digest = some found → found = content) :
    (publishOnce digest content).eval held = (.ok (), Function.update held digest (some content)) := by
  rw [publishOnce, Storing.eval_bind, Storing.eval_current]
  cases hfound : held digest with
  | none =>
    simp only [hfound]
    rfl
  | some found =>
    simp only [hfound]
    rw [if_neg (not_not.mpr (h found hfound)), ← h found hfound, ← hfound, Function.update_eq_self]
    rfl

omit [Hashing] in
theorem publishOnce_other {held : Artifacts} {digest : String} {found content : Bytes}
    (hfound : held digest = some found) (h : found ≠ content) :
    (publishOnce digest content).eval held = (.error (.integrity "existing artifact is corrupt"), held) := by
  rw [publishOnce, Storing.eval_bind, Storing.eval_current]
  simp only [hfound]
  rw [if_pos h]
  rfl

/-- **What `ArtifactStore.write` does**: it publishes what can be stored, or raises and leaves the store. -/
theorem writeArtifact_eval (held : Artifacts) (payload : JsonObject) :
    (∃ content, Storable held payload content ∧ (writeArtifact payload).eval held =
      (.ok ("sha256://" ++ Hashing.hexdigest content, Hashing.hexdigest content), published held content)) ∨
    (¬∃ content, Storable held payload content) ∧
      ∃ x, x.isValue = true ∧ (writeArtifact payload).eval held = (.error x, held) := by
  cases hencoded : encode payload with
  | error x =>
    right
    refine ⟨fun ⟨content, hc⟩ => ?_, x.fault, encode_fault hencoded, ?_⟩
    · rw [hc.encoded] at hencoded
      cases hencoded
    · rw [writeArtifact, hencoded, Storing.eval_bind]
      rfl
  | ok content =>
    have hrun : (writeArtifact payload).eval held =
        ((do
          if MAX_ARTIFACT_BYTES < content.length then throw (.integrity "artifact exceeds byte budget")
          if digestOk (Hashing.hexdigest content) = false then throw (.integrity "invalid artifact digest")
          publishOnce (Hashing.hexdigest content) content
          return ("sha256://" ++ Hashing.hexdigest content, Hashing.hexdigest content) : Storing _).eval
            held) := by
      rw [writeArtifact, hencoded, Storing.eval_bind]
      rfl
    have hsame : ∀ {content'}, Storable held payload content' → content' = content := by
      intro content' hc
      exact Except.ok.inj (hc.encoded.symm.trans hencoded)
    rw [hrun]
    by_cases hsmall : MAX_ARTIFACT_BYTES < content.length
    · right
      refine ⟨fun ⟨content', hc⟩ => ?_, .integrity "artifact exceeds byte budget", rfl, ?_⟩
      · have hbound := hc.small
        rw [hsame hc] at hbound
        omega
      · rw [if_pos hsmall]
        rfl
    · rw [if_neg hsmall]
      by_cases hnamed : digestOk (Hashing.hexdigest content) = false
      · right
        refine ⟨fun ⟨content', hc⟩ => ?_, .integrity "invalid artifact digest", rfl, ?_⟩
        · have hok := hc.named
          rw [hsame hc, hnamed] at hok
          cases hok
        · rw [if_pos hnamed]
          rfl
      · rw [if_neg hnamed]
        by_cases hheld : ∀ found, held (Hashing.hexdigest content) = some found → found = content
        · left
          refine ⟨content, ⟨hencoded, by omega, by simpa using hnamed, hheld⟩, ?_⟩
          show (publishOnce _ _ >>= fun _ => pure _ : Storing _).eval held = _
          rw [Storing.eval_bind, publishOnce_new hheld]
          rfl
        · right
          push Not at hheld
          obtain ⟨found, hfound, hother⟩ := hheld
          refine ⟨fun ⟨content', hc⟩ => ?_, .integrity "existing artifact is corrupt", rfl, ?_⟩
          · have hcompatible := hc.compatible
            rw [hsame hc] at hcompatible
            exact hother (hcompatible found hfound)
          · show (publishOnce _ _ >>= fun _ => pure _ : Storing _).eval held = _
            rw [Storing.eval_bind, publishOnce_other hfound hother]

end Store

/-! ### White space -/

theorem strip_eq_nil {cs : List Char} : strip cs = [] ↔ ∀ c ∈ cs, whiteSpace c = true := by
  unfold strip
  rw [List.reverse_eq_nil_iff, List.dropWhile_eq_nil_iff]
  constructor
  · intro h c hc
    by_contra hshown
    rw [← List.takeWhile_append_dropWhile (p := whiteSpace) (l := cs)] at hc
    rcases List.mem_append.mp hc with htake | hdrop
    · exact hshown (List.mem_takeWhile_imp htake)
    · exact hshown (h c (List.mem_reverse.mpr hdrop))
  · intro h c hc
    exact h c ((List.dropWhile_suffix _).subset (List.mem_reverse.mp hc))

theorem dropWhile_of_head {p : Char → Bool} {cs : List Char} (h : ∀ c ∈ cs.head?, p c = false) :
    cs.dropWhile p = cs := by
  cases cs with
  | nil => rfl
  | cons c cs => rw [List.dropWhile_cons_of_neg (by simp [h c rfl])]

theorem head_dropWhile {p : Char → Bool} (cs : List Char) : ∀ c ∈ (cs.dropWhile p).head?, p c = false := by
  intro c hc
  have h := List.head?_dropWhile_not p cs
  rw [Option.mem_def.mp hc] at h
  simpa using h

/-- Nothing is stripped of a text that begins and ends with other characters. -/
theorem strip_of_ends {cs : List Char} (hhead : ∀ c ∈ cs.head?, whiteSpace c = false)
    (hlast : ∀ c ∈ cs.getLast?, whiteSpace c = false) : strip cs = cs := by
  rw [strip, dropWhile_of_head hhead, dropWhile_of_head (by rwa [List.head?_reverse]), List.reverse_reverse]

/-- **What is stripped stays so.** -/
theorem strip_strip (cs : List Char) : strip (strip cs) = strip cs := by
  apply strip_of_ends
  · intro c hc
    obtain ⟨t, ht⟩ := List.dropWhile_suffix whiteSpace (l := (cs.dropWhile whiteSpace).reverse)
    have hne : ((cs.dropWhile whiteSpace).reverse).dropWhile whiteSpace ≠ [] := by
      intro hnil
      rw [strip, hnil] at hc
      cases hc
    have hlast := List.getLast?_append_of_ne_nil t hne
    rw [ht, List.getLast?_reverse] at hlast
    rw [strip, List.head?_reverse, ← hlast] at hc
    exact head_dropWhile _ c hc
  · intro c hc
    rw [strip, List.getLast?_reverse] at hc
    exact head_dropWhile _ c hc

theorem hexChar_shown {c : Char} (h : hexChar c = true) : whiteSpace c = false := by
  have hbounds : 0x30 ≤ c.val.toNat ∧ c.val.toNat ≤ 0x66 := by
    simp only [hexChar, Char.isDigit, Bool.or_eq_true, Bool.and_eq_true, decide_eq_true_eq, Char.le_def,
      UInt32.le_iff_toNat_le] at h
    rcases h with ⟨hlow, hhigh⟩ | ⟨hlow, hhigh⟩
    · exact ⟨hlow, hhigh.trans (by decide)⟩
    · exact ⟨le_trans (by decide) hlow, hhigh⟩
  by_contra hspace
  simp only [Bool.not_eq_false, whiteSpace, Bool.or_eq_true, decide_eq_true_eq, List.mem_cons,
    List.not_mem_nil, or_false, Bool.and_eq_true, UInt32.le_iff_toNat_le, ← UInt32.toNat_inj] at hspace
  simp only [UInt32.reduceToNat] at hspace
  omega

/-- The name of an artifact passes for a summary. -/
theorem uri_ok {digest : String} (h : digestOk digest = true) :
    strippedOk 4000 ("sha256://" ++ digest) = true := by
  rw [digestOk, Bool.and_eq_true, beq_iff_eq, List.all_eq_true] at h
  have hchars : ("sha256://" ++ digest).toList = "sha256://".toList ++ digest.toList := String.toList_append
  have hne : digest.toList ≠ [] := by
    intro hnil
    simp [hnil] at h
  have hstrip : strip ("sha256://".toList ++ digest.toList) = "sha256://".toList ++ digest.toList := by
    apply strip_of_ends
    · intro c hc
      obtain rfl : 's' = c := by simpa using hc
      decide
    · intro c hc
      rw [List.getLast?_append_of_ne_nil _ hne] at hc
      exact hexChar_shown (h.2 c (List.mem_of_getLast? hc))
  rw [strippedOk, hchars, hstrip]
  simp [h.1]

/-- A text fits in a summary. -/
def FitsSummary (text : String) : Prop := (strip text.toList).length ≤ 4000

theorem validate_val (s : Summary) : Summary.validate s.val = some s := by
  have hs := s.property
  rw [strippedOk, Bool.and_eq_true, Bool.and_eq_true, beq_iff_eq] at hs
  have hsame : String.ofList (strip s.val.toList) = s.val := by
    rw [hs.1.1, String.ofList_toList]
  rw [Summary.validate, dif_pos (by rw [hsame]; exact s.property)]
  exact congrArg some (Subtype.ext hsame)

/-- **What passes for a summary**: what is not blank, and fits. -/
theorem validate_summary {text : String} :
    (∃ s, Summary.validate text = some s) ↔ strip text.toList ≠ [] ∧ FitsSummary text := by
  have hok : strippedOk 4000 (String.ofList (strip text.toList)) = true ↔
      strip text.toList ≠ [] ∧ FitsSummary text := by
    rw [strippedOk, String.toList_ofList, strip_strip, FitsSummary]
    simp [Nat.one_le_iff_ne_zero]
  rw [← hok, Summary.validate]
  split_ifs with h <;> simp [h]

/-! ### Observations -/

/-- What a collector saw. -/
structure Observation [Platform] where
  /-- Where it comes from. -/
  source : Source
  /-- The resource it is about. -/
  resource : Identifier
  /-- When the source saw it. -/
  observedAt : Time
  /-- The query that was asked. -/
  query : Summary
  /-- What it says. -/
  summary : Summary
  /-- What the source gave. -/
  payload : JsonObject := []
  deriving DecidableEq

/-- How the JSON of a datetime is written. -/
class Isoformat where
  /-- `datetime.isoformat`, with `Z` for the offset zero. -/
  isoformat : Time → String

/-- The literal of a source. -/
def sourceText : Source → String
  | .kubernetes => "KUBERNETES"
  | .prometheus => "PROMETHEUS"
  | .log => "LOG"
  | .trace => "TRACE"
  | .deployment => "DEPLOYMENT"
  | .payment => "PAYMENT"
  | .runbook => "RUNBOOK"
  | .memory => "MEMORY"

section Normalize

variable [Platform] [Hashing] [Isoformat]

/-- `model_dump(mode="json", exclude={"artifact_uri", "artifact_sha256"})`. -/
def dumpMetadata (m : EvidenceMetadata) : JsonObject :=
  [("evidence_id", .str m.evidenceId.val), ("incident_id", .str m.incidentId.val),
    ("source", .str (sourceText m.source)), ("observed_at", .str (Isoformat.isoformat m.observedAt)),
    ("collected_at", .str (Isoformat.isoformat m.collectedAt)), ("query", .str m.query.val),
    ("resource", .str m.resource.val), ("summary", .str m.summary.val), ("untrusted_text", .bool true)]

/-- The envelope that is retained. -/
def envelope (m : EvidenceMetadata) (payload : Json) : JsonObject :=
  [("evidence", .obj (dumpMetadata m)), ("payload", payload),
    ("transformation", .str "common-secret-redaction-v1")]

/-- What `EvidenceItem.model_validate` makes of the metadata, before there is an artifact. -/
def validateMetadata (evidenceId : Identifier) (now : Time) (observation : Observation) (incidentId : String) :
    Except Fault EvidenceMetadata :=
  match Identifier.validate incidentId, Summary.validate (redactText observation.query.val),
      Summary.validate (redactText observation.summary.val) with
  | some incidentId, some query, some summary =>
    .ok ⟨evidenceId, incidentId, observation.source, observation.observedAt, now, query, observation.resource,
      summary⟩
  | _, _, _ => .error (.value "ValidationError")

/-- What `EvidenceItem.model_validate` makes of the metadata and the name of the artifact. -/
def validateItem (m : EvidenceMetadata) (uri digest : String) : Except Fault EvidenceItem :=
  match Summary.validate uri, Digest.validate digest with
  | some uri, some digest =>
    .ok ⟨m.evidenceId, m.incidentId, m.source, m.observedAt, m.collectedAt, m.query, m.resource, uri, digest,
      m.summary⟩
  | _, _ => .error (.value "ValidationError")

/-- `start <= observation.observed_at <= end`, both of them aware. -/
def inWindow (start finish : Option Time) (observedAt : Time) : Bool :=
  start.any (· ≤ observedAt) && finish.any (observedAt ≤ ·)

/-- What `normalize` does before it writes: the metadata and the redacted payload. -/
def prepare (evidenceId : Identifier) (now : Time) (observation : Observation) (incidentId : String)
    (start finish : Option Time) : Except Fault (EvidenceMetadata × Json) :=
  if !inWindow start finish observation.observedAt then
    .error (.value "observation outside aware incident window")
  else do
    let metadata ← validateMetadata evidenceId now observation incidentId
    let payload ← redact 0 (.obj observation.payload)
    return (metadata, payload)

/-- `normalize`; `evidenceId` and `now` are the results of `new_id` and `utc_now`. -/
def normalize (evidenceId : Identifier) (now : Time) (observation : Observation) (incidentId : String)
    (start finish : Option Time) : Storing EvidenceItem := do
  let (metadata, payload) ← Storing.lift (prepare evidenceId now observation incidentId start finish)
  let (uri, digest) ← writeArtifact (envelope metadata payload)
  Storing.lift (validateItem metadata uri digest)

/-- What `ArtifactStore.verify` says of the content that is held under the digest. -/
def verifyContent [Numerals] (item : EvidenceItem) : Option Bytes → Except Fault Unit
  | none => .error (.integrity "artifact unavailable")
  | some content =>
    if MAX_ARTIFACT_BYTES < content.length ∨ Hashing.hexdigest content ≠ item.artifactSha256.val then
      .error (.integrity "artifact digest mismatch")
    else (FileStore.validateEnvelope content
      ⟨item.artifactUri.val, item.artifactSha256.val, dumpMetadata item.metadata⟩).mapError Raised.fault

/-- `ArtifactStore.verify`. -/
def verifyArtifact [Numerals] (item : EvidenceItem) : Storing Unit :=
  if item.artifactUri.val ≠ "sha256://" ++ item.artifactSha256.val then
    throw (.integrity "artifact URI and digest disagree")
  else do
    let held ← Storing.current
    Storing.lift (verifyContent item (held item.artifactSha256.val))

end Normalize

/-! ### Redacted texts -/

section Redacted

variable [Platform]

/-- **No text is redacted to white space**, but one that is white space. -/
theorem redactText_shown {text : String} (h : strip text.toList ≠ []) : strip (redactText text).toList ≠ [] := by
  have hshown : ∀ {cs : List Char}, strip cs ≠ [] ↔ ∃ c ∈ cs, (!whiteSpace c) = true := by
    intro cs
    rw [Ne, strip_eq_nil]
    simp
  rw [hshown] at h ⊢
  rw [redactText, String.toList_ofList]
  apply cuts_assignment.sub_any
  · intro prev cs rest text hfind
    obtain ⟨-, k, -, -, -, -, rfl⟩ := assignment_eq_some hfind
    exact ⟨'=', List.mem_append_right _ (by decide), by decide⟩
  · apply cuts_bearer.sub_any _ _ _ h
    intro prev cs rest text hfind
    obtain ⟨-, -, -, -, -, rfl⟩ := bearer_eq_some hfind
    exact ⟨'B', by decide, by decide⟩

/-- A summary is redacted to one, where it fits. -/
theorem redacted_summary (s : Summary) :
    (∃ t, Summary.validate (redactText s.val) = some t) ↔ FitsSummary (redactText s.val) := by
  rw [validate_summary, and_iff_right]
  apply redactText_shown
  have hs := s.property
  rw [strippedOk, Bool.and_eq_true, Bool.and_eq_true, beq_iff_eq, decide_eq_true_eq] at hs
  rw [hs.1.1]
  exact List.ne_nil_of_length_pos hs.1.2

end Redacted

/-! ### What is accepted -/

section Accepted

variable [Platform] [Hashing] [Isoformat]

/-- An observation that becomes evidence: its metadata, its redacted payload and the content that is retained. -/
structure Accepted (held : Artifacts) (evidenceId : Identifier) (now : Time) (observation : Observation)
    (incidentId : String) (start finish : Option Time) (m : EvidenceMetadata) (payload : Json)
    (content : Bytes) : Prop where
  /-- It passes the checks before the write. -/
  prepared : prepare evidenceId now observation incidentId start finish = .ok (m, payload)
  /-- The envelope can be stored. -/
  stored : Storable held (envelope m payload) content

omit [Hashing] [Isoformat] in
theorem prepare_ok {evidenceId : Identifier} {now : Time} {observation : Observation} {incidentId : String}
    {start finish : Option Time} {m : EvidenceMetadata} {payload : Json} :
    prepare evidenceId now observation incidentId start finish = .ok (m, payload) ↔
      inWindow start finish observation.observedAt = true ∧
        validateMetadata evidenceId now observation incidentId = .ok m ∧
        redact 0 (.obj observation.payload) = .ok payload := by
  unfold prepare
  cases inWindow start finish observation.observedAt with
  | false => simp
  | true =>
    simp only [Bool.not_true, Bool.false_eq_true, if_false, true_and]
    constructor
    · intro h
      obtain ⟨m', hm, hrest⟩ := except_bind_ok.mp h
      obtain ⟨payload', hpayload, hpair⟩ := except_bind_ok.mp hrest
      obtain ⟨rfl, rfl⟩ := Prod.mk.inj (Except.ok.inj hpair)
      exact ⟨hm, hpayload⟩
    · rintro ⟨hm, hpayload⟩
      exact except_bind_ok.mpr ⟨m, hm, except_bind_ok.mpr ⟨payload, hpayload, rfl⟩⟩

omit [Hashing] [Isoformat] in
/-- What is raised before the write is a `ValueError`. -/
theorem prepare_fault {evidenceId : Identifier} {now : Time} {observation : Observation} {incidentId : String}
    {start finish : Option Time} {x : Fault}
    (h : prepare evidenceId now observation incidentId start finish = .error x) : x.isValue = true := by
  unfold prepare at h
  split_ifs at h
  · cases h
    rfl
  · rcases bind_error h with hmetadata | ⟨m, -, hrest⟩
    · unfold validateMetadata at hmetadata
      split at hmetadata
      · cases hmetadata
      · cases hmetadata
        rfl
    · rcases bind_error hrest with hpayload | ⟨payload, -, hpair⟩
      · exact redact_fault _ hpayload
      · cases hpair

/-- The evidence that cites a digest. -/
def retained (m : EvidenceMetadata) (digest : Digest) : EvidenceItem :=
  ⟨m.evidenceId, m.incidentId, m.source, m.observedAt, m.collectedAt, m.query, m.resource,
    ⟨"sha256://" ++ digest.val, uri_ok digest.property⟩, digest, m.summary⟩

omit [Hashing] [Isoformat] in
theorem validateItem_retained (m : EvidenceMetadata) (digest : Digest) :
    validateItem m ("sha256://" ++ digest.val) digest.val = .ok (retained m digest) := by
  have huri : Summary.validate ("sha256://" ++ digest.val) = some ⟨_, uri_ok digest.property⟩ :=
    validate_val ⟨_, uri_ok digest.property⟩
  rw [validateItem, huri, Digest.validate_val]
  rfl

/-- **What `normalize` does**: it retains what is accepted, or raises and leaves the store. -/
theorem normalize_eval (held : Artifacts) (evidenceId : Identifier) (now : Time) (observation : Observation)
    (incidentId : String) (start finish : Option Time) :
    (∃ m payload content, ∃ h : Accepted held evidenceId now observation incidentId start finish m payload content,
      (normalize evidenceId now observation incidentId start finish).eval held =
        (.ok (retained m ⟨_, h.stored.named⟩), published held content)) ∨
    (¬∃ m payload content, Accepted held evidenceId now observation incidentId start finish m payload content) ∧
      ∃ x, x.isValue = true ∧
        (normalize evidenceId now observation incidentId start finish).eval held = (.error x, held) := by
  unfold normalize
  rw [Storing.eval_bind, Storing.eval_lift]
  cases hprepared : prepare evidenceId now observation incidentId start finish with
  | error x =>
    right
    refine ⟨fun ⟨_, _, _, h⟩ => ?_, x, prepare_fault hprepared, rfl⟩
    have hok := h.prepared
    rw [hprepared] at hok
    cases hok
  | ok prepared =>
    obtain ⟨m, payload⟩ := prepared
    simp only
    rw [Storing.eval_bind]
    rcases writeArtifact_eval held (envelope m payload) with ⟨content, hstored, hwrite⟩ | ⟨hnone, x, hvalue, hwrite⟩
    · left
      refine ⟨m, payload, content, ⟨hprepared, hstored⟩, ?_⟩
      rw [hwrite]
      simp only
      rw [Storing.eval_lift, validateItem_retained m ⟨_, hstored.named⟩]
    · right
      refine ⟨fun ⟨m', payload', content, h⟩ => ?_, x, hvalue, ?_⟩
      · obtain ⟨rfl, rfl⟩ := Prod.mk.inj (Except.ok.inj (hprepared.symm.trans h.prepared))
        exact hnone ⟨content, h.stored⟩
      · rw [hwrite]

/-- The text of a value, parsed again, is a value that Python finds equal. -/
def ReadBack [Numerals] (payload : JsonObject) (content : Bytes) : Prop :=
  ∃ parsed, Hashing.validateJson content = .ok parsed ∧ Json.pythonEqual (.obj parsed) (.obj payload) = true

/-- **What is held passes the verification.** -/
theorem verify_held [Numerals] {held : Artifacts} {m : EvidenceMetadata} {payload : Json} {content : Bytes}
    (hnamed : digestOk (Hashing.hexdigest content) = true) (hsmall : content.length ≤ MAX_ARTIFACT_BYTES)
    (hheld : held (Hashing.hexdigest content) = some content) (hread : ReadBack (envelope m payload) content) :
    (verifyArtifact (retained m ⟨_, hnamed⟩)).eval held = (.ok (), held) := by
  obtain ⟨parsed, hparsed, hequal⟩ := hread
  have henvelope : FileStore.validateEnvelope content
      ⟨"sha256://" ++ Hashing.hexdigest content, Hashing.hexdigest content, dumpMetadata m⟩ = .ok () := by
    simp only [Json.pythonEqual, Json.equal, Bool.and_eq_true, List.all_eq_true] at hequal
    obtain ⟨found, hfound⟩ := Option.isSome_iff_exists.mp
      (hequal.2 ("evidence", .obj (dumpMetadata m)) List.mem_cons_self)
    obtain ⟨expected, hexpected, hsame⟩ := Json.equalFields_field hequal.1 hfound
    obtain rfl : Json.obj (dumpMetadata m) = expected := Option.some.inj hexpected
    have hfound : Json.field parsed "evidence" = some found := hfound
    have hsame : Json.pythonEqual found (.obj (dumpMetadata m)) = true := hsame
    simp only [FileStore.validateEnvelope, hparsed, bind, Except.bind, hfound, hsame, if_true]
  have hcontent : verifyContent (retained m ⟨_, hnamed⟩) (held (Hashing.hexdigest content)) = .ok () := by
    rw [hheld, verifyContent, if_neg (by rw [not_or, not_not]; exact ⟨not_lt.mpr hsmall, rfl⟩)]
    show (FileStore.validateEnvelope content
      ⟨"sha256://" ++ Hashing.hexdigest content, Hashing.hexdigest content, dumpMetadata m⟩).mapError _ = _
    rw [henvelope]
    rfl
  have huri : (retained m ⟨_, hnamed⟩).artifactUri.val =
      "sha256://" ++ (retained m ⟨_, hnamed⟩).artifactSha256.val := rfl
  rw [verifyArtifact, if_neg (not_not.mpr huri), Storing.eval_bind, Storing.eval_current]
  show (verifyContent _ _, _) = _
  rw [← hcontent]
  rfl

/-- What was published passes the verification. -/
theorem verify_published [Numerals] {held : Artifacts} {m : EvidenceMetadata} {payload : Json} {content : Bytes}
    (h : Storable held (envelope m payload) content) (hread : ReadBack (envelope m payload) content) :
    (verifyArtifact (retained m ⟨_, h.named⟩)).eval (published held content) =
      (.ok (), published held content) :=
  verify_held h.named h.small (Function.update_self _ _ _) hread

omit [Hashing] [Isoformat] in
/-- **When the metadata are valid**: the redacted texts fit. -/
theorem validateMetadata_ok {evidenceId incident : Identifier} {now : Time} {observation : Observation} :
    (∃ m, validateMetadata evidenceId now observation incident.val = .ok m) ↔
      FitsSummary (redactText observation.query.val) ∧ FitsSummary (redactText observation.summary.val) := by
  rw [← redacted_summary, ← redacted_summary]
  unfold validateMetadata
  rw [Identifier.validate_val]
  cases Summary.validate (redactText observation.query.val) with
  | none => simp
  | some query =>
    cases Summary.validate (redactText observation.summary.val) with
    | none => simp
    | some summary => simp

omit [Hashing] in
/-- The envelope has no float of its own. -/
theorem encode_envelope {m : EvidenceMetadata} {payload : Json} :
    (∃ content, encode (envelope m payload) = .ok content) ↔ FileStore.finite payload = true := by
  have hfinite : FileStore.finiteFields (envelope m payload) = FileStore.finite payload := by
    simp [envelope, dumpMetadata, FileStore.finiteFields, FileStore.finite]
  unfold encode
  rw [hfinite]
  cases FileStore.finite payload <;> simp

/-- The store can keep the envelope of an observation: the content is small enough, the digest names it, and no
other content is held under that digest. -/
def Room (held : Artifacts) (m : EvidenceMetadata) (payload : Json) : Prop :=
  ∀ content, encode (envelope m payload) = .ok content → content.length ≤ MAX_ARTIFACT_BYTES ∧
    digestOk (Hashing.hexdigest content) = true ∧
    ∀ found, held (Hashing.hexdigest content) = some found → found = content

/-- **Normalization accepts an observation exactly where redaction leaves it valid**: of an observation in its
window that is not nested too deeply and for which the store has room, it makes evidence if and only if the
redacted query and the redacted summary fit in a summary and every float of the redacted payload is finite. -/
theorem normalize_accepts (held : Artifacts) (evidenceId incident : Identifier) (now start finish : Time)
    (observation : Observation) (payload : Json)
    (hwindow : start ≤ observation.observedAt ∧ observation.observedAt ≤ finish)
    (hnesting : redact 0 (.obj observation.payload) = .ok payload)
    (hroom : ∀ m, validateMetadata evidenceId now observation incident.val = .ok m → Room held m payload) :
    (∃ item held', (normalize evidenceId now observation incident.val (some start) (some finish)).eval held =
        (.ok item, held')) ↔
      FitsSummary (redactText observation.query.val) ∧ FitsSummary (redactText observation.summary.val) ∧
        FileStore.finite payload = true := by
  have hin : inWindow (some start) (some finish) observation.observedAt = true := by
    simp [inWindow, hwindow]
  rcases normalize_eval held evidenceId now observation incident.val (some start) (some finish) with
    ⟨m, payload', content, haccepted, hrun⟩ | ⟨hnone, x, -, hrun⟩
  · obtain ⟨-, hm, hredacted⟩ := prepare_ok.mp haccepted.prepared
    obtain rfl : payload = payload' := Except.ok.inj (hnesting.symm.trans hredacted)
    obtain ⟨hquery, hsummary⟩ := validateMetadata_ok.mp ⟨m, hm⟩
    have hfinite := encode_envelope.mp ⟨content, haccepted.stored.encoded⟩
    exact iff_of_true ⟨_, _, hrun⟩ ⟨hquery, hsummary, hfinite⟩
  · refine iff_of_false ?_ ?_
    · rintro ⟨item, held', hok⟩
      rw [hrun] at hok
      cases hok
    · rintro ⟨hquery, hsummary, hfinite⟩
      obtain ⟨m, hm⟩ : ∃ m, validateMetadata evidenceId now observation incident.val = .ok m :=
        validateMetadata_ok.mpr ⟨hquery, hsummary⟩
      obtain ⟨content, hcontent⟩ := encode_envelope.mpr hfinite
      obtain ⟨hsmall, hnamed, hcompatible⟩ := hroom m hm content hcontent
      exact hnone ⟨m, payload, content, prepare_ok.mpr ⟨hin, hm, hnesting⟩,
        ⟨hcontent, hsmall, hnamed, hcompatible⟩⟩

end Accepted

/-! ### A summary that redaction makes too long -/

section Sample

attribute [local instance] textPlatform FileStore.emptyHashing

/-- Every time is written alike. -/
@[reducible] def sampleIsoformat : Isoformat := ⟨fun _ => "2026-01-01T00:00:00Z"⟩

attribute [local instance] sampleIsoformat

/-- A text that ends as `tail` does. -/
def padded (n : ℕ) (tail : List Char) : List Char := 'x' :: List.replicate n 'x' ++ tail

theorem padded_length (n : ℕ) (tail : List Char) : (padded n tail).length = n + 1 + tail.length := by
  simp [padded]
  omega

theorem strip_padded (n : ℕ) (tail : List Char) {c : Char} (hlast : tail.getLast? = some c)
    (hc : whiteSpace c = false) : strip (padded n tail) = padded n tail := by
  have hne : tail ≠ [] := by
    rintro rfl
    cases hlast
  apply strip_of_ends
  · intro d hd
    obtain rfl : 'x' = d := Option.some.inj hd
    decide
  · intro d hd
    rw [padded, List.getLast?_append_of_ne_nil _ hne, hlast] at hd
    obtain rfl : c = d := Option.some.inj hd
    exact hc

/-- A padded text is redacted at its end. -/
theorem redact_padded (n : ℕ) :
    redactText (String.ofList (padded n " token=a".toList)) =
      String.ofList (padded n " token=[REDACTED]".toList) := by
  have hquiet : Tame bearer none (padded n " token=a".toList) := by
    rw [← List.append_nil (padded n " token=a".toList)]
    refine Tame.append (fun prev c hc zs => bearer_none ?_) trivial
    rcases List.mem_append.mp hc with hx | htail
    · rw [← List.replicate_succ] at hx
      rw [List.eq_of_mem_replicate hx]
      decide
    · have hall : (" token=a".toList.all fun c => foldCase c != 'b') = true := by decide
      exact bne_iff_ne.mp (List.all_eq_true.mp hall c htail)
  have hassigned : ∀ n prev, prev = none ∨ prev = some 'x' →
      sub assignment prev 0 (List.replicate n 'x' ++ " token=a".toList) =
        List.replicate n 'x' ++ " token=[REDACTED]".toList := by
    intro n
    induction n with
    | zero =>
      rintro prev (rfl | rfl)
      · decide +kernel
      · decide +kernel
    | succ n ih =>
      intro prev _
      rw [List.replicate_succ, List.cons_append, sub_plain (assignment_none (by decide)), ih _ (.inr rfl)]
      rfl
  have hbearer : redactBearer (padded n " token=a".toList) = padded n " token=a".toList :=
    sub_of_tame cuts_bearer none _ hquiet
  rw [redactText, String.toList_ofList, hbearer, padded, ← List.replicate_succ, hassigned (n + 1) none (.inl rfl)]
  rfl

/-- A full summary that ends with an assignment. -/
def longSummary : Summary :=
  ⟨String.ofList (padded 3991 " token=a".toList), by
    rw [strippedOk, String.toList_ofList, strip_padded 3991 _ rfl (by decide), padded_length]
    simp⟩

theorem longSummary_unfit : ¬FitsSummary (redactText longSummary.val) := by
  have hlast : " token=[REDACTED]".toList.getLast? = some ']' := by decide
  rw [FitsSummary, longSummary, redact_padded, String.toList_ofList, strip_padded 3991 _ hlast (by decide),
    padded_length]
  decide

/-- An identifier. -/
def sampleIdentifier : Identifier := ⟨"incident-1", by decide⟩

/-- A query. -/
def sampleQuery : Summary := ⟨"logs.15m.40", by decide⟩

/-- **Redaction makes a valid summary too long.** -/
theorem long_summary_refused :
    ¬∀ (held : Artifacts) (evidenceId incident : Identifier) (now start finish : Time) (observation : Observation)
      (payload : Json), start ≤ observation.observedAt ∧ observation.observedAt ≤ finish →
      redact 0 (.obj observation.payload) = .ok payload →
      (∀ m, validateMetadata evidenceId now observation incident.val = .ok m → Room held m payload) →
      ∃ item held', (normalize evidenceId now observation incident.val (some start) (some finish)).eval held =
        (.ok item, held') := by
  intro h
  obtain ⟨item, held', hrun⟩ := h (fun _ => none) sampleIdentifier sampleIdentifier 0 0 0
    ⟨.log, sampleIdentifier, 0, sampleQuery, longSummary, []⟩ (.obj []) ⟨le_rfl, le_rfl⟩ rfl
    (fun m hm => absurd (validateMetadata_ok.mp ⟨m, hm⟩).2 longSummary_unfit)
  rcases normalize_eval (fun _ => none) sampleIdentifier 0 ⟨.log, sampleIdentifier, 0, sampleQuery, longSummary, []⟩
    sampleIdentifier.val (some 0) (some 0) with ⟨m, payload, content, haccepted, -⟩ | ⟨-, x, -, hraised⟩
  · obtain ⟨-, hm, -⟩ := prepare_ok.mp haccepted.prepared
    exact longSummary_unfit (validateMetadata_ok.mp ⟨m, hm⟩).2
  · rw [hraised] at hrun
    cases hrun

/-- An observation of the logs of a container. -/
def sampleLogs : Observation :=
  ⟨.log, sampleIdentifier, 0, sampleQuery, ⟨"login token=a", by decide⟩, [("lines", .str "login token=a")]⟩

/-- Its payload, redacted. -/
def redactedLogs : Json := .obj [("lines", .str "login token=[REDACTED]")]

/-- Its metadata. -/
def sampleMetadata : EvidenceMetadata :=
  ⟨sampleIdentifier, sampleIdentifier, .log, 0, 0, sampleQuery, sampleIdentifier,
    ⟨"login token=[REDACTED]", by decide⟩⟩

theorem sampleLogs_metadata :
    validateMetadata sampleIdentifier 0 sampleLogs sampleIdentifier.val = .ok sampleMetadata := by
  decide +kernel

theorem sampleLogs_small :
    ((encode (envelope sampleMetadata redactedLogs)).toOption.all
      fun content => decide (content.length ≤ MAX_ARTIFACT_BYTES)) = true := by
  obtain ⟨content, hcontent, hlength⟩ :=
    encode_small (show FileStore.finiteFields (envelope sampleMetadata redactedLogs) = true by decide +kernel)
      (by decide +kernel)
  rw [hcontent]
  exact decide_eq_true hlength

/-- The logs are accepted by an empty store. -/
theorem normalize_accepts_sample :
    ∃ item held', (normalize sampleIdentifier 0 sampleLogs sampleIdentifier.val (some 0) (some 0)).eval
      (fun _ => none) = (.ok item, held') := by
  refine (normalize_accepts (fun _ => none) sampleIdentifier sampleIdentifier 0 0 0 sampleLogs redactedLogs
    ⟨le_rfl, le_rfl⟩ (by decide +kernel) ?_).mpr ⟨?_, ?_, by decide +kernel⟩
  · intro m hm content hcontent
    obtain rfl : sampleMetadata = m := Except.ok.inj (sampleLogs_metadata.symm.trans hm)
    have hsmall := sampleLogs_small
    rw [hcontent] at hsmall
    have hnamed : digestOk FileStore.emptyDigest = true := by decide
    exact ⟨of_decide_eq_true hsmall, hnamed, fun found hfound => (nomatch hfound)⟩
  · show (strip (redactText sampleLogs.query.val).toList).length ≤ 4000
    decide +kernel
  · show (strip (redactText sampleLogs.summary.val).toList).length ≤ 4000
    decide +kernel

end Sample

end PayOps.Evidence
