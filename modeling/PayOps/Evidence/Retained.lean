import PayOps.Evidence.Unredacted

/-!
# Records that are read from their artifacts

`normalize` retains a record, and `ArtifactStore.verify` reads it again: what comes back of a record that redaction
leaves as it is.

## What is proved

* `pythonEqual_reread` — a record whose keys were put in order equals what it was.
* `Grows`, `verifyEnvelope_grows` — what is verified stays so when a store grows.
* `observed_metadata` — the item says what was observed, in texts that redaction and validation leave.
* `Reliable.whole_dumpItem` — an item with such texts is retained whole.
* `normalize_reads` — **main result**: the record that was retained is read back, and the item says what was observed.
-/

namespace PayOps.Evidence

open Json (Printable field sorted dumps pythonEqual equalFields)
open FileStore (Bytes Hashing finiteFields)

/-! ### Stores that grow -/

/-- A store that holds at least what another one does. -/
def Grows (held later : Artifacts) : Prop := ∀ digest content, held digest = some content → later digest = some content

section Model

variable [Platform] [Hashing] [Isoformat] [Numerals]

theorem verifyEnvelope_grows {held later : Artifacts} (hgrows : Grows held later) {item : EvidenceItem}
    {envelope : JsonObject} (h : verifyEnvelope held item = .ok envelope) :
    verifyEnvelope later item = .ok envelope := by
  obtain ⟨content, hheld, -⟩ := verifyEnvelope_ok h
  rw [verifyEnvelope, hheld] at h
  rw [verifyEnvelope, hgrows _ _ hheld]
  exact h

omit [Platform] [Isoformat] [Numerals] in
/-- What is published leaves what was held. -/
theorem grows_published {held : Artifacts} {content : Bytes}
    (h : ∀ found, held (Hashing.hexdigest content) = some found → found = content) :
    Grows held (published held content) := by
  intro digest found hfound
  unfold published
  by_cases hdigest : digest = Hashing.hexdigest content
  · subst hdigest
    rw [Function.update_self, h found hfound]
  · rw [Function.update_of_ne hdigest, hfound]

/-! ### Records -/

omit [Platform] [Hashing] [Isoformat] in
theorem equalFields_of {xs ys : JsonObject}
    (h : ∀ f ∈ xs, ∃ y, field ys f.1 = some y ∧ pythonEqual f.2 y = true) :
    equalFields Json.pythonScalarEqual xs ys = true := by
  induction xs with
  | nil => rfl
  | cons f fs ih =>
    obtain ⟨key, x⟩ := f
    obtain ⟨y, hy, hequal⟩ := h (key, x) (by simp)
    have hequal : Json.equal Json.pythonScalarEqual x y = true := hequal
    simp only at hy
    rw [equalFields, hy]
    simp only [hequal, Bool.true_and]
    exact ih fun g hg => h g (by simp [hg])

omit [Platform] [Hashing] [Isoformat] in
/-- **A record whose keys were put in order** equals what it was. -/
theorem pythonEqual_reread {fields : JsonObject} (hkeys : (fields.map Prod.fst).Nodup)
    (h : ∀ f ∈ fields, pythonEqual (sorted f.2) f.2 = true) :
    pythonEqual (.obj (reread fields)) (.obj fields) = true := by
  rw [pythonEqual, Json.equal, Bool.and_eq_true, List.all_eq_true]
  constructor
  · apply equalFields_of
    intro f hf
    rw [Json.mem_arrange, Json.sortedFields_map] at hf
    obtain ⟨g, hg, rfl⟩ := List.mem_map.mp hf
    exact ⟨g.2, Json.field_of_mem hkeys hg, h g hg⟩
  · intro f hf
    have hfield : field fields f.1 = some f.2 := Json.field_of_mem hkeys hf
    rw [field_reread hkeys, hfield]
    rfl

omit [Hashing] in
/-- The metadata that are read again. -/
theorem pythonEqual_metadata (m : EvidenceMetadata) :
    pythonEqual (sorted (.obj (dumpMetadata m))) (.obj (dumpMetadata m)) = true := by
  rw [sorted_obj]
  apply pythonEqual_reread
  · show ["evidence_id", "incident_id", "source", "observed_at", "collected_at", "query", "resource", "summary",
      "untrusted_text"].Nodup
    decide
  · have hstr (s : String) : pythonEqual (.str s) (.str s) = true := by
      simp [pythonEqual, Json.equal, Json.pythonScalarEqual]
    have hbool : pythonEqual (.bool true) (.bool true) = true := by
      simp [pythonEqual, Json.equal, Json.pythonScalarEqual, Json.pythonNumber, Json.sameNumber]
    simp only [dumpMetadata, List.forall_mem_cons, sorted]
    exact ⟨hstr _, hstr _, hstr _, hstr _, hstr _, hstr _, hstr _, hstr _, hbool, List.forall_mem_nil _⟩

/-! ### What is relied on -/

/-- The characters of a datetime. -/
def datetimeChars : List Char := "0123456789-:.+TZ".toList

variable [Datetimes]

/-- What is relied on of pydantic and of Python's character classes, for the times of a record. -/
structure Reliable (times : List Time) : Prop where
  /-- No word character is white space. -/
  words : Tools.WordsShown
  /-- A record is read from its artifact. -/
  json : ∀ fields, Printable 20 (.obj fields) →
    Hashing.validateJson (Text.encodeUtf8 (dumps .canonicalUtf8 (.obj fields))) = .ok (reread fields)
  /-- A time is read from its text by a strict model. -/
  strict : ∀ t ∈ times, Datetimes.strict (Isoformat.isoformat t) = some t
  /-- A time is read from its text by another model. -/
  lax : ∀ t ∈ times, Datetimes.lax (.str (Isoformat.isoformat t)) = some t
  /-- The text of a time has digits and marks. -/
  digits : ∀ t ∈ times, ∀ c ∈ (Isoformat.isoformat t).toList, c ∈ datetimeChars

omit [Numerals] in
theorem Reliable.mono {times times' : List Time} (h : Reliable times) (hsub : times' ⊆ times) : Reliable times' where
  words := h.words
  json := h.json
  strict t ht := h.strict t (hsub ht)
  lax t ht := h.lax t (hsub ht)
  digits t ht := h.digits t (hsub ht)

omit [Numerals] in
/-- The text of a time is redacted to itself. -/
theorem Reliable.redact_time {times : List Time} (h : Reliable times) {t : Time} (ht : t ∈ times) :
    redactText (Isoformat.isoformat t) = Isoformat.isoformat t := by
  have hall : (datetimeChars.all fun c => foldCase c != 'r' && foldCase c != 'k' && foldCase c != 'p') = true := by
    decide
  refine redactText_quiet (quiet_plain fun c hc => ?_)
  have hchar := List.all_eq_true.mp hall c (h.digits t ht c hc)
  simp only [Bool.and_eq_true, bne_iff_ne] at hchar
  exact ⟨hchar.1.1, hchar.1.2, hchar.2⟩

/-! ### What is retained -/

omit [Hashing] [Numerals] [Datetimes] in
theorem envelope_keys (m : EvidenceMetadata) (payload : Json) : ((envelope m payload).map Prod.fst).Nodup := by
  show ["evidence", "payload", "transformation"].Nodup
  decide

omit [Hashing] [Numerals] [Datetimes] in
/-- The metadata of an item are three containers deep at most. -/
theorem printable_envelope {m : EvidenceMetadata} {payload : Json} {bound : ℕ} (h : Printable (bound + 1) payload) :
    Printable (bound + 2) (.obj (envelope m payload)) := by
  refine .obj (envelope_keys m payload) ?_
  · have hmetadata : Printable (bound + 1) (.obj (dumpMetadata m)) := by
      refine .obj ?_ ?_
      · show ["evidence_id", "incident_id", "source", "observed_at", "collected_at", "query", "resource", "summary",
          "untrusted_text"].Nodup
        decide
      · simp only [dumpMetadata, List.forall_mem_cons]
        exact ⟨.str _, .str _, .str _, .str _, .str _, .str _, .str _, .str _, .bool _, List.forall_mem_nil _⟩
    simp only [envelope, List.forall_mem_cons]
    exact ⟨hmetadata, h, .str _, List.forall_mem_nil _⟩

omit [Numerals] [Datetimes] in
/-- The item that `normalize` makes has the metadata that it has validated, and names its artifact. -/
theorem normalize_metadata {evidenceId : Identifier} {now : Time} {observation : Observation} {incidentId : String}
    {start finish : Option Time} {held later : Artifacts} {item : EvidenceItem}
    (h : (normalize evidenceId now observation incidentId start finish).eval held = (.ok item, later)) :
    validateMetadata evidenceId now observation incidentId = .ok item.metadata ∧
      item.artifactUri.val = "sha256://" ++ item.artifactSha256.val ∧
      inWindow start finish observation.observedAt = true := by
  rcases normalize_eval held evidenceId now observation incidentId start finish with
    ⟨m, payload, content, haccepted, hrun⟩ | ⟨-, x, -, hrun⟩
  · rw [hrun] at h
    obtain rfl := Except.ok.inj (Prod.mk.inj h).1
    obtain ⟨hwindow, hm, -⟩ := prepare_ok.mp haccepted.prepared
    exact ⟨hm, rfl, hwindow⟩
  · rw [hrun] at h
    cases (Prod.mk.inj h).1

/-- **What was retained is read back**, from any store that holds it still. -/
theorem normalize_reads {times : List Time} (hreliable : Reliable times) {evidenceId : Identifier} {now : Time}
    {observation : Observation} {incidentId : String} {start finish : Option Time} {held later : Artifacts}
    {item : EvidenceItem} (hwhole : Whole 16 (.obj observation.payload))
    (h : (normalize evidenceId now observation incidentId start finish).eval held = (.ok item, later)) :
    Grows held later ∧ ∀ final, Grows later final → ∃ envelope, verifyEnvelope final item = .ok envelope ∧
        field envelope "payload" = some (.obj (reread observation.payload)) := by
  rcases normalize_eval held evidenceId now observation incidentId start finish with
    ⟨m, payload, content, haccepted, hrun⟩ | ⟨-, x, -, hrun⟩
  · rw [hrun] at h
    obtain ⟨hitem, rfl⟩ := Prod.mk.inj h
    obtain rfl := Except.ok.inj hitem
    obtain ⟨-, -, hredacted⟩ := prepare_ok.mp haccepted.prepared
    have hkept : redact 0 (.obj observation.payload) = .ok (.obj observation.payload) := hwhole.redact (by omega)
    obtain rfl := Except.ok.inj (hredacted.symm.trans hkept)
    have hstored := haccepted.stored
    refine ⟨grows_published hstored.compatible, fun final hfinal => ?_⟩
    have hprintable : Printable 17 (.obj (envelope m (.obj observation.payload))) := printable_envelope hwhole.printable
    have hcontent : content =
        Text.encodeUtf8 (dumps .canonicalUtf8 (.obj (envelope m (.obj observation.payload)))) := by
      have hencoded := hstored.encoded
      unfold FileStore.encode at hencoded
      split_ifs at hencoded
      exact (Except.ok.inj hencoded).symm
    have hread : Hashing.validateJson content = .ok (reread (envelope m (.obj observation.payload))) := by
      rw [hcontent]
      exact hreliable.json _ (hprintable.mono (by omega))
    have hheld : final (Hashing.hexdigest content) = some content := hfinal _ _ (Function.update_self _ _ _)
    refine ⟨_, verifyEnvelope_of rfl hheld hstored.small rfl hread ?_ (pythonEqual_metadata m), ?_⟩
    · rw [field_reread (envelope_keys m _)]
      rfl
    · rw [field_reread (envelope_keys m _), ← sorted_obj]
      rfl
  · rw [hrun] at h
    cases (Prod.mk.inj h).1

/-! ### Texts of an item -/

/-- A text that redaction and validation leave as it is. -/
def Shown (text : String) : Prop := quiet text.toList = true ∧ strip text.toList = text.toList

instance (text : String) : Decidable (Shown text) := inferInstanceAs (Decidable (_ ∧ _))

omit [Platform] [Hashing] [Isoformat] [Numerals] [Datetimes] in
theorem Shown.validated {text : String} (h : Shown text) {s : Summary} (hs : Summary.validate text = some s) :
    s.val = text := by
  unfold Summary.validate at hs
  split_ifs at hs
  obtain rfl := Option.some.inj hs
  simp only [h.2, String.ofList_toList]

omit [Hashing] [Isoformat] [Numerals] [Datetimes] in
/-- **The item says what was observed.** -/
theorem observed_metadata {source : Source} {resource query summary incidentId : String} {observedAt now : Time}
    {payload : JsonObject} {evidenceId : Identifier} {observation : Observation} {m : EvidenceMetadata}
    (hquery : Shown query) (hsummary : Shown summary)
    (hmake : Observation.make source resource observedAt query summary payload = .ok observation)
    (hm : validateMetadata evidenceId now observation incidentId = .ok m) :
    observation.payload = payload ∧ m.evidenceId = evidenceId ∧ m.incidentId.val = incidentId ∧ m.source = source ∧
      m.observedAt = observedAt ∧ m.collectedAt = now ∧ m.query.val = query ∧ m.resource.val = resource ∧
      m.summary.val = summary := by
  unfold Observation.make at hmake
  split at hmake
  · rename_i resource' query' summary' hr hq hs
    obtain rfl := Except.ok.inj hmake
    have hquery' := hquery.validated hq
    have hsummary' := hsummary.validated hs
    have hresource : resource'.val = resource := by
      unfold Identifier.validate at hr
      split_ifs at hr
      rw [← Option.some.inj hr]
    have hredacted : redactText query'.val = query'.val := by
      rw [hquery', redactText_quiet hquery.1]
    have hredacted' : redactText summary'.val = summary'.val := by
      rw [hsummary', redactText_quiet hsummary.1]
    simp only [validateMetadata, hredacted, hredacted', validate_val] at hm
    cases hincident : Identifier.validate incidentId with
    | none => simp [hincident] at hm
    | some incident =>
      simp only [hincident] at hm
      obtain rfl := Except.ok.inj hm
      have hname : incident.val = incidentId := by
        unfold Identifier.validate at hincident
        split_ifs at hincident
        rw [← Option.some.inj hincident]
      exact ⟨rfl, rfl, hname, rfl, rfl, rfl, hquery', hresource, hsummary'⟩
  · cases hmake

omit [Platform] [Hashing] [Isoformat] [Numerals] [Datetimes] in
theorem quiet_hex {cs : List Char} (h : cs.all hexChar = true) : quiet cs = true := by
  have hcodes : ((List.range 0x67).all fun n => !hexChar (Char.ofNat n) ||
      (foldCase (Char.ofNat n) != 'r' && foldCase (Char.ofNat n) != 'k' && foldCase (Char.ofNat n) != 'p')) = true := by
    decide +kernel
  apply quiet_plain
  intro c hc
  have hhex := List.all_eq_true.mp h c hc
  have hcode : c.toNat < 0x67 := by
    have hbound := hhex
    simp only [hexChar, Char.isDigit, Bool.or_eq_true, Bool.and_eq_true, decide_eq_true_eq, Char.le_def,
      UInt32.le_iff_toNat_le] at hbound
    rcases hbound with ⟨-, hhigh⟩ | ⟨-, hhigh⟩
    · exact lt_of_le_of_lt hhigh (by decide)
    · exact lt_of_le_of_lt hhigh (by decide)
  have hchar := List.all_eq_true.mp hcodes c.toNat (List.mem_range.mpr hcode)
  simp only [Char.ofNat_toNat, hhex, Bool.not_true, Bool.false_or, Bool.and_eq_true, bne_iff_ne] at hchar
  exact ⟨hchar.1.1, hchar.1.2, hchar.2⟩

omit [Platform] [Hashing] [Isoformat] [Numerals] [Datetimes] in
/-- The name of an artifact is quiet. -/
theorem quiet_uri (digest : Digest) : quiet ("sha256://" ++ digest.val).toList = true := by
  have hdigest := digest.property
  rw [digestOk, Bool.and_eq_true] at hdigest
  have hslash : ∀ k ∈ openings, foldCase '/' ∉ k := by decide
  have hhex := quiet_hex hdigest.2
  have hscheme : quiet "sha256:/".toList = true := by decide
  rw [String.toList_append, show "sha256://".toList = "sha256:/".toList ++ ['/'] from rfl, List.append_assoc]
  exact quiet_append hslash hscheme (quiet_cons hslash hhex)

section Items

variable {times : List Time}

omit [Hashing] [Isoformat] [Numerals] [Datetimes] in
/-- A record whose keys are not sensitive is retained whole, if its values are. -/
theorem Whole.record {depth : ℕ} {fields : JsonObject} (names : List String) (hnames : fields.map Prod.fst = names)
    (hkeys : names.Nodup ∧ (names.all fun name => !sensitive name) = true) (hname : sensitiveName fields = false)
    (h : ∀ f ∈ fields, Whole depth f.2) : Whole (depth + 1) (.obj fields) := by
  subst hnames
  rw [List.all_eq_true] at hkeys
  refine .obj hkeys.1 (fun f hf => ?_) hname h
  simpa using hkeys.2 f.1 (List.mem_map_of_mem hf)

omit [Numerals] in
theorem Reliable.whole_time (hreliable : Reliable times) {t : Time} {depth : ℕ} (ht : t ∈ times) :
    Whole depth (.str (Isoformat.isoformat t)) := .str (hreliable.redact_time ht)

omit [Numerals] in
/-- **An item is retained whole**, if its texts are. -/
theorem Reliable.whole_dumpItem (hreliable : Reliable times) {item : EvidenceItem} {depth : ℕ}
    (htimes : item.observedAt ∈ times ∧ item.collectedAt ∈ times)
    (huri : item.artifactUri.val = "sha256://" ++ item.artifactSha256.val)
    (hquery : redactText item.query.val = item.query.val) (hsummary : redactText item.summary.val = item.summary.val) :
    Whole (depth + 1) (dumpItem item) := by
  have hid (i : Identifier) : redactText i.val = i.val := Tools.redact_identifier hreliable.words i
  have hsource : redactText (sourceText item.source) = sourceText item.source := by
    apply redactText_quiet
    cases item.source <;> decide
  have hdigest : redactText item.artifactSha256.val = item.artifactSha256.val := by
    have hproperty := item.artifactSha256.property
    rw [digestOk, Bool.and_eq_true] at hproperty
    exact redactText_quiet (quiet_hex hproperty.2)
  have hname : redactText item.artifactUri.val = item.artifactUri.val := by
    rw [huri]
    exact redactText_quiet (quiet_uri _)
  refine Whole.record itemNames rfl (by decide +kernel) rfl ?_
  simp only [List.forall_mem_cons]
  exact ⟨.str (hid _), .str (hid _), .str hsource, .str (hreliable.redact_time htimes.1),
    .str (hreliable.redact_time htimes.2), .str hquery, .str (hid _), .str hname, .str hdigest, .str hsummary, .bool _,
    List.forall_mem_nil _⟩

end Items

end Model

end PayOps.Evidence
