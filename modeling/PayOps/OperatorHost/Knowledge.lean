import PayOps.Evidence.TraceSpan
import PayOps.Memory.Lineage

/-!
# The import of knowledge

`KnowledgeBundle.import_into` of `payops.operator_host`, with `decode` of `payops.orchestrator.openai_wire`: originals
are verified where they lie, and then copied into another store.

## The model

A store is what it holds under each digest; the source is only read. `verifyOriginals` is the first loop of the source,
and `copyAll` the second one.

## What is proved

* `verifyOriginals_ok` — what the first loop has checked of the originals.
* `copyItem_eval` — a copy that fails has written what its original is encoded to, or nothing.
* `copyAll_eval` — the copies, up to the first original that is not copied.
* `import_all_or_nothing` — **main result**: exactly when an import that raises leaves the store as it was.

## Honest scope

No file operation fails, and nobody else writes into the two stores.
-/

namespace PayOps.OperatorHost

open Evidence
open Evidence.FileStore (Bytes Hashing MAX_ARTIFACT_BYTES encode)
open Memory.Lineage (retrieved)
open Json (field)

/-! ### Decoding -/

mutual

/-- `_depth`, with the levels that are left. -/
def withinDepth : ℕ → Json → Bool
  | 0, _ => false
  | room + 1, .arr items => itemsWithin room items
  | room + 1, .obj fields => fieldsWithin room fields
  | _ + 1, _ => true

/-- The same of the items of a list. -/
def itemsWithin : ℕ → List Json → Bool
  | _, [] => true
  | room, item :: items => withinDepth room item && itemsWithin room items

/-- The same of the fields of a mapping. -/
def fieldsWithin : ℕ → List (String × Json) → Bool
  | _, [] => true
  | room, (_, value) :: fields => withinDepth room value && fieldsWithin room fields

end

section Model

variable [Platform]

/-- `decode`. -/
def decode (raw : Bytes) (limit : ℕ) : Except Fault JsonObject :=
  if limit < raw.length then .error (.value "provider response exceeds byte bound")
  else match (Text.decodeUtf8 raw).bind Trace.loadsFinite with
  | none => .error (.value "invalid provider JSON")
  | some value =>
    if withinDepth 25 value = false then .error (.value "provider JSON nesting exceeds bound")
    else match value with
    | .obj fields => .ok fields
    | _ => .error (.value "provider object required")

/-! ### The import -/

/-- `KnowledgeBundle`. -/
structure KnowledgeBundle where
  /-- The artifacts under `artifacts_root`; none where this is no local directory. -/
  artifactsRoot : Option Artifacts
  /-- `items`. -/
  items : List EvidenceItem
  /-- `Field(max_length=16)`. -/
  bounded : items.length ≤ 16

variable [Hashing] [Isoformat] [Numerals]

/-- What the first loop checks of an item, with the bytes of its artifact. -/
def verifyOriginal (source : Artifacts) (seen : List Identifier) (item : EvidenceItem) : Except Fault Bytes :=
  if (item.source ≠ .runbook ∧ item.source ≠ .memory) ∨ item.resource.val ∉ SERVICES ∨ retrieved item = true ∨
      item.evidenceId ∈ seen then
    .error (.integrity "invalid original knowledge item")
  else do
    let envelope ← verifyEnvelope source item
    match field envelope "payload" with
    | some (.obj payload) =>
      if field payload "namespace" = some (.str "payops-sandbox") ∧
          field payload "service" = some (.str item.resource.val) then
        match source item.artifactSha256.val with
        | some raw =>
          if MAX_ARTIFACT_BYTES < raw.length then .error (.value "local configuration exceeds byte bound")
          else .ok raw
        | none => .error (.value "explicit local file unavailable")
      else .error (.integrity "knowledge source scope differs")
    | _ => .error (.integrity "knowledge source scope differs")

/-- The first loop. -/
def verifyOriginals (source : Artifacts) (seen : List Identifier) (total : ℕ) :
    List EvidenceItem → Except Fault (List (EvidenceItem × Bytes))
  | [] => .ok []
  | item :: items => do
    let raw ← verifyOriginal source seen item
    if 1048576 < total + raw.length then throw (.integrity "knowledge import byte budget exceeded")
    let verified ← verifyOriginals source (item.evidenceId :: seen) (total + raw.length) items
    return (item, raw) :: verified

/-- All that is done before the first copy. -/
def KnowledgeBundle.verified (bundle : KnowledgeBundle) : Except Fault (List (EvidenceItem × Bytes)) :=
  match bundle.artifactsRoot with
  | none => .error (.integrity "knowledge source directory unavailable")
  | some source => verifyOriginals source [] 0 bundle.items

/-- The body of the second loop. -/
def copyItem (item : EvidenceItem) (raw : Bytes) : Storing Unit := do
  let payload ← Storing.lift (decode raw MAX_ARTIFACT_BYTES)
  let written ← writeArtifact payload
  if written.2 ≠ item.artifactSha256.val then throw (.integrity "knowledge copy digest differs")
  verifyArtifact item

/-- The second loop. -/
def copyAll : List (EvidenceItem × Bytes) → Storing Unit
  | [] => return ()
  | (item, raw) :: rest => do
    copyItem item raw
    copyAll rest

/-- `import_into`. -/
def KnowledgeBundle.importInto (bundle : KnowledgeBundle) : Storing Unit := do
  let verified ← Storing.lift bundle.verified
  copyAll verified

/-! ### The originals -/

/-- What the first loop has checked of an item. -/
theorem verifyOriginal_ok {source : Artifacts} {seen : List Identifier} {item : EvidenceItem} {raw : Bytes}
    (h : verifyOriginal source seen item = .ok raw) :
    item.evidenceId ∉ seen ∧ ∃ envelope, verifyEnvelope source item = .ok envelope := by
  unfold verifyOriginal at h
  split_ifs at h with hbad
  simp only [not_or] at hbad
  obtain ⟨envelope, henvelope, -⟩ := bind_eq_ok.mp h
  exact ⟨hbad.2.2.2, envelope, henvelope⟩

/-- **What is verified**: an original of a kind and of a service, whose payload records its scope. -/
theorem verifyOriginal_of {source : Artifacts} {seen : List Identifier} {item : EvidenceItem} {raw : Bytes}
    {envelope payload : JsonObject} (hkind : item.source = .runbook) (hservice : item.resource.val ∈ SERVICES)
    (horiginal : retrieved item = false) (hnew : item.evidenceId ∉ seen)
    (henvelope : verifyEnvelope source item = .ok envelope) (hpayload : field envelope "payload" = some (.obj payload))
    (hspace : field payload "namespace" = some (.str "payops-sandbox"))
    (hnamed : field payload "service" = some (.str item.resource.val))
    (hraw : source item.artifactSha256.val = some raw) (hsmall : raw.length ≤ MAX_ARTIFACT_BYTES) :
    verifyOriginal source seen item = .ok raw := by
  have hgood : ¬((item.source ≠ .runbook ∧ item.source ≠ .memory) ∨ item.resource.val ∉ SERVICES ∨
      retrieved item = true ∨ item.evidenceId ∈ seen) := by
    simp [hkind, hservice, horiginal, hnew]
  simp [verifyOriginal, if_neg hgood, henvelope, hpayload, hspace, hnamed, hraw, not_lt.mpr hsmall, bind, Except.bind]

/-- **The first loop**: it yields its items, all of them verified and with different names. -/
theorem verifyOriginals_ok {source : Artifacts} {seen : List Identifier} {total : ℕ} {items : List EvidenceItem}
    {verified : List (EvidenceItem × Bytes)} (h : verifyOriginals source seen total items = .ok verified) :
    verified.map Prod.fst = items ∧ (items.map (·.evidenceId)).Nodup ∧ (∀ item ∈ items, item.evidenceId ∉ seen) ∧
      ∀ item ∈ items, ∃ envelope, verifyEnvelope source item = .ok envelope := by
  induction items generalizing seen total verified with
  | nil =>
    obtain rfl : verified = [] := by simpa [verifyOriginals] using h.symm
    simp
  | cons item items ih =>
    obtain ⟨raw, hraw, h⟩ := bind_eq_ok.mp h
    split_ifs at h with htotal
    · cases h
    obtain ⟨others, hothers, h⟩ := bind_eq_ok.mp h
    obtain rfl : verified = (item, raw) :: others := by simpa [pure, Except.pure] using h.symm
    obtain ⟨hitems, hnodup, hseen, hverified⟩ := ih hothers
    obtain ⟨hnew, henvelope⟩ := verifyOriginal_ok hraw
    simp only [List.mem_cons, not_or] at hseen
    refine ⟨by simp [hitems], ?_, List.forall_mem_cons.mpr ⟨hnew, fun i hi => (hseen i hi).2⟩,
      List.forall_mem_cons.mpr ⟨henvelope, hverified⟩⟩
    rw [List.map_cons, List.nodup_cons]
    refine ⟨fun hmem => ?_, hnodup⟩
    obtain ⟨other, hother, hsame⟩ := List.mem_map.mp hmem
    exact (hseen other hother).1 hsame

/-- One more original, within the byte budget. -/
theorem verifyOriginals_cons {source : Artifacts} {seen : List Identifier} {total : ℕ} {item : EvidenceItem}
    {items : List EvidenceItem} {raw : Bytes} {verified : List (EvidenceItem × Bytes)}
    (hitem : verifyOriginal source seen item = .ok raw) (hbudget : total + raw.length ≤ 1048576)
    (hrest : verifyOriginals source (item.evidenceId :: seen) (total + raw.length) items = .ok verified) :
    verifyOriginals source seen total (item :: items) = .ok ((item, raw) :: verified) := by
  simp [verifyOriginals, hitem, not_lt.mpr hbudget, hrest, bind, Except.bind, pure, Except.pure]

/-! ### Copies -/

/-- The original is copied as `content`: it is decoded and encoded again to a content that the store can keep, and this
is what the item names. -/
structure CopiedAs (held : Artifacts) (item : EvidenceItem) (raw content : Bytes) : Prop where
  /-- It is encoded again, and nothing else is held in its place. -/
  encoded : ∃ payload, decode raw MAX_ARTIFACT_BYTES = .ok payload ∧ Storable held payload content
  /-- The digest is that of the item. -/
  named : Hashing.hexdigest content = item.artifactSha256.val
  /-- The content says what the item says. -/
  verifies : verifyContent item (some content) = .ok ()

/-- The original is copied. -/
def Copies (held : Artifacts) (item : EvidenceItem) (raw : Bytes) : Prop := ∃ content, CopiedAs held item raw content

/-- What the original is encoded to, if it is stored at all, is held. -/
def AlreadyHeld (held : Artifacts) (raw : Bytes) : Prop :=
  ∀ payload content, decode raw MAX_ARTIFACT_BYTES = .ok payload → Storable held payload content →
    held (Hashing.hexdigest content) = some content

/-- Whatever is held stays held. -/
def Extends (held later : Artifacts) : Prop :=
  ∀ digest content, held digest = some content → later digest = some content

/-- What is held under the digest of an item passes its verification. -/
theorem verifyArtifact_of_content {held : Artifacts} {item : EvidenceItem} {content : Bytes}
    (huri : item.artifactUri.val = "sha256://" ++ item.artifactSha256.val)
    (hheld : held item.artifactSha256.val = some content) :
    (verifyArtifact item).eval held = (verifyContent item (some content), held) := by
  rw [verifyArtifact, if_neg (not_not.mpr huri), Storing.eval_bind, Storing.eval_current]
  simp only [hheld, Storing.eval_lift]

omit [Platform] [Isoformat] [Numerals] in
/-- To publish what can be stored loses nothing. -/
theorem extends_published {held : Artifacts} {payload : JsonObject} {content : Bytes}
    (h : Storable held payload content) : Extends held (published held content) := by
  intro digest found hfound
  by_cases hsame : digest = Hashing.hexdigest content
  · subst hsame
    rw [published, Function.update_self, h.compatible found hfound]
  · rw [published, Function.update_of_ne hsame, hfound]

omit [Platform] [Isoformat] [Numerals] in
/-- To publish what is held changes nothing, and otherwise something. -/
theorem published_eq {held : Artifacts} {content : Bytes} :
    published held content = held ↔ held (Hashing.hexdigest content) = some content := by
  rw [published, Function.update_eq_self_iff, eq_comm]

/-- **One copy**: it publishes the content, or it raises; then it leaves what the original is encoded to, if that can
be stored. -/
theorem copyItem_eval (held : Artifacts) {item : EvidenceItem} (raw : Bytes)
    (huri : item.artifactUri.val = "sha256://" ++ item.artifactSha256.val) :
    (∃ content, CopiedAs held item raw content ∧
        (copyItem item raw).eval held = (.ok (), published held content)) ∨
      (¬Copies held item raw ∧ ∃ x later, (copyItem item raw).eval held = (.error x, later) ∧ Extends held later ∧
        (later = held ↔ AlreadyHeld held raw)) := by
  cases hdecode : decode raw MAX_ARTIFACT_BYTES with
  | error x =>
    refine .inr ⟨?_, x, held, ?_, fun _ _ h => h, by simp [AlreadyHeld, hdecode]⟩
    · rintro ⟨content, ⟨payload, hpayload, -⟩, -, -⟩
      rw [hdecode] at hpayload
      cases hpayload
    · rw [copyItem, hdecode, Storing.eval_bind, Storing.eval_lift]
  | ok payload =>
    have hrun : (copyItem item raw).eval held =
        (writeArtifact payload >>= fun written => do
          if written.2 ≠ item.artifactSha256.val then throw (.integrity "knowledge copy digest differs")
          verifyArtifact item : Storing Unit).eval held := by
      rw [copyItem, hdecode, Storing.eval_bind, Storing.eval_lift]
    have hsame : ∀ {payload' content content'}, decode raw MAX_ARTIFACT_BYTES = .ok payload' →
        Storable held payload' content' → Storable held payload content → content' = content := by
      intro payload' content content' hpayload hstored hstorable
      obtain rfl := Except.ok.inj (hpayload.symm.trans hdecode)
      exact Except.ok.inj (hstored.encoded.symm.trans hstorable.encoded)
    rcases writeArtifact_eval held payload with ⟨content, hstorable, hwrite⟩ | ⟨hnot, x, -, hwrite⟩
    · have hheld : AlreadyHeld held raw ↔ published held content = held := by
        rw [published_eq]
        constructor
        · exact fun h => h payload content hdecode hstorable
        · intro h payload' content' hpayload hstored
          rw [hsame hpayload hstored hstorable]
          exact h
      by_cases hnamed : Hashing.hexdigest content = item.artifactSha256.val
      · have hverify : (copyItem item raw).eval held =
            (verifyContent item (some content), published held content) := by
          rw [hrun, Storing.eval_bind, hwrite]
          simp only [ne_eq, hnamed, not_true, if_false]
          exact verifyArtifact_of_content huri (by rw [← hnamed, published, Function.update_self])
        cases hcontent : verifyContent item (some content) with
        | ok u => exact .inl ⟨content, ⟨⟨payload, hdecode, hstorable⟩, hnamed, hcontent⟩, by rw [hverify, hcontent]⟩
        | error x =>
          refine .inr ⟨?_, x, _, by rw [hverify, hcontent], extends_published hstorable, hheld.symm⟩
          rintro ⟨content', ⟨payload', hpayload, hstored⟩, -, hverifies⟩
          rw [hsame hpayload hstored hstorable, hcontent] at hverifies
          cases hverifies
      · refine .inr ⟨?_, .integrity "knowledge copy digest differs", published held content, ?_,
          extends_published hstorable, hheld.symm⟩
        · rintro ⟨content', ⟨payload', hpayload, hstored⟩, hnamed', -⟩
          rw [hsame hpayload hstored hstorable] at hnamed'
          exact hnamed hnamed'
        · rw [hrun, Storing.eval_bind, hwrite]
          simp only [ne_eq, hnamed, not_false_iff, if_true]
          rfl
    · refine .inr ⟨?_, x, held, ?_, fun _ _ h => h, ?_⟩
      · rintro ⟨content, ⟨payload', hpayload, hstored⟩, -, -⟩
        obtain rfl := Except.ok.inj (hpayload.symm.trans hdecode)
        exact hnot ⟨content, hstored⟩
      · rw [hrun, Storing.eval_bind, hwrite]
      · simp only [true_iff]
        intro payload' content hpayload hstored
        obtain rfl := Except.ok.inj (hpayload.symm.trans hdecode)
        exact absurd ⟨content, hstored⟩ hnot

/-! ### All copies -/

/-- An item and the bytes of its artifact. -/
abbrev Original := EvidenceItem × Bytes

/-- What the first loop has checked of the originals: they name their artifacts, and their digests differ. -/
structure Sound (originals : List Original) : Prop where
  /-- Each names its artifact by its digest. -/
  named : ∀ p ∈ originals, p.1.artifactUri.val = "sha256://" ++ p.1.artifactSha256.val
  /-- The digests differ. -/
  distinct : (originals.map fun p => p.1.artifactSha256.val).Nodup

/-- The copy of an original does not matter to others. -/
theorem copies_published {held : Artifacts} {item other : EvidenceItem} {raw raw' content : Bytes}
    (h : CopiedAs held item raw content) (hne : other.artifactSha256.val ≠ item.artifactSha256.val) :
    Copies (published held content) other raw' ↔ Copies held other raw' := by
  have hother : ∀ {content'}, Hashing.hexdigest content' = other.artifactSha256.val →
      published held content (Hashing.hexdigest content') = held (Hashing.hexdigest content') := by
    intro content' hnamed
    rw [published, Function.update_of_ne]
    rw [hnamed, h.named]
    exact hne
  constructor
  · rintro ⟨content', ⟨payload, hpayload, hstored⟩, hnamed, hverifies⟩
    have hcompatible := hstored.compatible
    rw [hother hnamed] at hcompatible
    exact ⟨content', ⟨payload, hpayload, ⟨hstored.encoded, hstored.small, hstored.named, hcompatible⟩⟩, hnamed,
      hverifies⟩
  · rintro ⟨content', ⟨payload, hpayload, hstored⟩, hnamed, hverifies⟩
    have hcompatible := hstored.compatible
    rw [← hother hnamed] at hcompatible
    exact ⟨content', ⟨payload, hpayload, ⟨hstored.encoded, hstored.small, hstored.named, hcompatible⟩⟩, hnamed,
      hverifies⟩

omit [Hashing] [Isoformat] [Numerals] in
/-- The first original of those that are sound, and the others. -/
theorem Sound.cons {p : Original} {originals : List Original} (h : Sound (p :: originals)) :
    Sound originals ∧ ∀ q ∈ originals, q.1.artifactSha256.val ≠ p.1.artifactSha256.val := by
  have hall := h.distinct
  rw [List.map_cons, List.nodup_cons] at hall
  obtain ⟨hnot, hdistinct⟩ := hall
  refine ⟨⟨fun q hq => h.named q (List.mem_cons_of_mem p hq), hdistinct⟩, fun q hq hsame => hnot ?_⟩
  rw [← hsame]
  exact List.mem_map_of_mem hq

/-- **All originals are copied**: then all of them are verified where they were copied to. -/
theorem copyAll_returns {originals : List Original} (h : Sound originals) (held : Artifacts)
    (hcopies : ∀ p ∈ originals, Copies held p.1 p.2) :
    ∃ later, (copyAll originals).eval held = (.ok (), later) ∧ Extends held later ∧
      ∀ p ∈ originals, (verifyArtifact p.1).eval later = (.ok (), later) := by
  induction originals generalizing held with
  | nil => exact ⟨held, rfl, fun _ _ h => h, by simp⟩
  | cons p originals ih =>
    obtain ⟨hsound, hother⟩ := h.cons
    have hnamed := h.named p List.mem_cons_self
    rcases copyItem_eval held p.2 hnamed with ⟨content, hcopied, hcopy⟩ | ⟨hnot, -⟩
    · obtain ⟨payload, -, hstorable⟩ := hcopied.encoded
      obtain ⟨later, hrest, hextends, hverified⟩ := ih hsound (published held content) fun q hq =>
        (copies_published hcopied (hother q hq)).mpr (hcopies q (List.mem_cons_of_mem p hq))
      refine ⟨later, ?_, fun digest found hfound => hextends _ _ (extends_published hstorable _ _ hfound),
        List.forall_mem_cons.mpr ⟨?_, hverified⟩⟩
      · rw [copyAll, Storing.eval_bind, hcopy]
        exact hrest
      · have hheld : later p.1.artifactSha256.val = some content := by
          apply hextends
          rw [← hcopied.named, published, Function.update_self]
        rw [verifyArtifact_of_content hnamed hheld, hcopied.verifies]
    · exact absurd (hcopies p List.mem_cons_self) hnot

/-- **The first original that is not copied** ends the import. Nothing has changed just if all that was to be stored
before was held. -/
theorem copyAll_fails {copied rest : List Original} {p : Original} (h : Sound (copied ++ p :: rest))
    (held : Artifacts) (hcopies : ∀ q ∈ copied, Copies held q.1 q.2) (hfails : ¬Copies held p.1 p.2) :
    ∃ x later, (copyAll (copied ++ p :: rest)).eval held = (.error x, later) ∧ Extends held later ∧
      (later = held ↔ (∀ q ∈ copied, held q.1.artifactSha256.val ≠ none) ∧ AlreadyHeld held p.2) := by
  induction copied generalizing held with
  | nil =>
    rcases copyItem_eval held p.2 (h.named p (by simp)) with
      ⟨content, hcopied, -⟩ | ⟨-, x, later, hcopy, hextends, hheld⟩
    · exact absurd ⟨content, hcopied⟩ hfails
    · refine ⟨x, later, ?_, hextends, by simpa using hheld⟩
      rw [List.nil_append, copyAll, Storing.eval_bind, hcopy]
  | cons q copied ih =>
    obtain ⟨hsound, hother⟩ := Sound.cons h
    rcases copyItem_eval held q.2 (h.named q (by simp)) with ⟨content, hcopied, hcopy⟩ | ⟨hnot, -⟩
    · obtain ⟨payload, -, hstorable⟩ := hcopied.encoded
      obtain ⟨x, later, hrest, hextends, hheld⟩ := ih hsound (published held content)
        (fun r hr => (copies_published hcopied (hother r (by simp [hr]))).mpr (hcopies r (List.mem_cons_of_mem q hr)))
        (fun hcopies' => hfails ((copies_published hcopied (hother p (by simp))).mp hcopies'))
      refine ⟨x, later, ?_, fun digest found hfound => hextends _ _ (extends_published hstorable _ _ hfound), ?_⟩
      · rw [List.cons_append, copyAll, Storing.eval_bind, hcopy]
        exact hrest
      · rw [List.forall_mem_cons]
        cases hfirst : held q.1.artifactSha256.val with
        | none =>
          -- the copy is new, and stays
          have hnew : later q.1.artifactSha256.val = some content := by
            apply hextends
            rw [← hcopied.named, published, Function.update_self]
          simp only [ne_eq, not_true, false_and, iff_false]
          rintro rfl
          rw [hfirst] at hnew
          cases hnew
        | some found =>
          have hsame : published held content = held := by
            rw [published_eq, hcopied.named, hfirst, hstorable.compatible found (by rw [hcopied.named, hfirst])]
          rw [hsame] at hheld
          simpa using hheld
    · exact absurd (hcopies q List.mem_cons_self) hnot

/-! ### All or nothing -/

omit [Platform] [Hashing] [Isoformat] [Numerals] in
/-- Of elements that do not all satisfy `P` there is a first one that does not. -/
theorem exists_first {α : Type} {P : α → Prop} {xs : List α} (h : ¬∀ x ∈ xs, P x) :
    ∃ before x after, xs = before ++ x :: after ∧ (∀ y ∈ before, P y) ∧ ¬P x := by
  induction xs with
  | nil => exact absurd (by simp) h
  | cons y ys ih =>
    by_cases hy : P y
    · obtain ⟨before, x, after, rfl, hbefore, hx⟩ := ih fun hall => h (List.forall_mem_cons.mpr ⟨hy, hall⟩)
      exact ⟨y :: before, x, after, rfl, List.forall_mem_cons.mpr ⟨hy, hbefore⟩, hx⟩
    · exact ⟨[], y, ys, rfl, by simp, hy⟩

/-- What the first loop yields is sound. -/
theorem verified_sound {bundle : KnowledgeBundle} {originals : List Original}
    (h : bundle.verified = .ok originals) : originals.map Prod.fst = bundle.items ∧ Sound originals := by
  unfold KnowledgeBundle.verified at h
  cases hroot : bundle.artifactsRoot with
  | none => simp [hroot] at h
  | some source =>
    simp only [hroot] at h
    obtain ⟨hitems, hnodup, -, hverified⟩ := verifyOriginals_ok h
    rw [← hitems] at hnodup hverified
    refine ⟨hitems, fun p hp => ?_, ?_⟩
    · obtain ⟨envelope, henvelope⟩ := hverified p.1 (List.mem_map_of_mem hp)
      exact verifyEnvelope_uri henvelope
    · -- two items of one digest have the same name
      rw [List.map_map] at hnodup
      refine (List.Nodup.of_map _ hnodup).map_on fun p hp q hq hsame => ?_
      obtain ⟨envelope, henvelope⟩ := hverified p.1 (List.mem_map_of_mem hp)
      obtain ⟨envelope', henvelope'⟩ := hverified q.1 (List.mem_map_of_mem hq)
      have hname := text_of_digest henvelope henvelope' (Subtype.ext hsame) "evidence_id" rfl rfl
      exact List.inj_on_of_nodup_map hnodup hp hq (Subtype.ext hname)

/-- Verified originals are copied. -/
theorem importInto_eval {bundle : KnowledgeBundle} {originals : List Original}
    (h : bundle.verified = .ok originals) (held : Artifacts) :
    bundle.importInto.eval held = (copyAll originals).eval held := by
  rw [KnowledgeBundle.importInto, Storing.eval_bind, h, Storing.eval_lift]

/-- An import that raises leaves the destination as it was, and after one that returns every item is verified there. -/
def AllOrNothing (bundle : KnowledgeBundle) (held : Artifacts) : Prop :=
  match bundle.importInto.eval held with
  | (.ok (), later) => ∀ item ∈ bundle.items, (verifyArtifact item).eval later = (.ok (), later)
  | (.error _, later) => later = held

/-- At the first original that is not copied, the destination holds those before it, and what it is encoded to. -/
def StopsClean (held : Artifacts) (originals : List Original) : Prop :=
  ∀ copied p rest, originals = copied ++ p :: rest → (∀ q ∈ copied, Copies held q.1 q.2) → ¬Copies held p.1 p.2 →
    (∀ q ∈ copied, held q.1.artifactSha256.val ≠ none) ∧ AlreadyHeld held p.2

/-- **The import is all or nothing** just if the originals are not all verified, or the copies stop clean: there is no
original that is not copied, or up to the first one nothing is new to the destination. -/
theorem import_all_or_nothing (bundle : KnowledgeBundle) (held : Artifacts) :
    AllOrNothing bundle held ↔ ∀ originals, bundle.verified = .ok originals → StopsClean held originals := by
  cases hverified : bundle.verified with
  | error x => simp [AllOrNothing, KnowledgeBundle.importInto, Storing.eval_bind, hverified]
  | ok originals =>
    obtain ⟨hitems, hsound⟩ := verified_sound hverified
    have hrun := importInto_eval hverified held
    have hgoal : (∀ l, (.ok originals : Except Fault (List Original)) = .ok l → StopsClean held l) ↔
        StopsClean held originals := by simp
    rw [hgoal, AllOrNothing, hrun]
    by_cases hall : ∀ p ∈ originals, Copies held p.1 p.2
    · obtain ⟨later, hcopy, -, hverify⟩ := copyAll_returns hsound held hall
      rw [hcopy, ← hitems]
      constructor
      · rintro - copied p rest rfl - hfails
        exact absurd (hall p (by simp)) hfails
      · rintro - item hitem
        obtain ⟨p, hp, rfl⟩ := List.mem_map.mp hitem
        exact hverify p hp
    · constructor
      · rintro hclean copied p rest rfl hcopies hfails
        obtain ⟨x, later, hcopy, -, hheld⟩ := copyAll_fails hsound held hcopies hfails
        rw [hcopy] at hclean
        exact hheld.mp hclean
      · intro hclean
        obtain ⟨copied, p, rest, rfl, hcopies, hfails⟩ := exists_first hall
        obtain ⟨x, later, hcopy, -, hheld⟩ := copyAll_fails hsound held hcopies hfails
        rw [hcopy]
        exact hheld.mpr (hclean copied p rest rfl hcopies hfails)

end Model

/-! ### A runbook that ends with a newline -/

section Sample

attribute [local instance] Memory.Lineage.passagePlatform Memory.Lineage.passageIsoformat FileStore.noNumerals

theorem runbook_incident : identifierOk "i1" = true := by decide

theorem runbook_resource : identifierOk "payments-api" = true := by decide

theorem runbook_summary : strippedOk 4000 "Check the ledger" = true := by decide

/-- The metadata of a runbook. -/
def runbookMetadata (evidenceId : Identifier) (query : Summary) : EvidenceMetadata :=
  ⟨evidenceId, ⟨"i1", runbook_incident⟩, .runbook, seconds 0, seconds 1, query, ⟨"payments-api", runbook_resource⟩,
    ⟨"Check the ledger", runbook_summary⟩⟩

/-- The envelope of a runbook, as it is read. -/
def runbookEnvelope (evidenceId query : String) : JsonObject :=
  [("evidence", .obj
      [("collected_at", .str "1970-01-01T00:00:01Z"), ("evidence_id", .str evidenceId), ("incident_id", .str "i1"),
        ("observed_at", .str "1970-01-01T00:00:00Z"), ("query", .str query), ("resource", .str "payments-api"),
        ("source", .str "RUNBOOK"), ("summary", .str "Check the ledger"), ("untrusted_text", .bool true)]),
    ("payload", .obj [("namespace", .str "payops-sandbox"), ("service", .str "payments-api")]),
    ("transformation", .str "common-secret-redaction-v1")]

/-- The text of an envelope. -/
def envelopeText (payload : JsonObject) : List Char := Json.dumps .canonicalUtf8 (.obj payload)

/-- The envelope of the first runbook. -/
def firstEnvelope : JsonObject := runbookEnvelope "e1" "runbook-v1"

/-- The envelope of the second runbook. -/
def secondEnvelope : JsonObject := runbookEnvelope "e2" "runbook-v2"

theorem first_hex : digestOk "5fc92a506f98b17b81bf17c5bc36368a256766c771f3cd4fb35658b83b8e578f" = true := by decide

/-- The digest of the first runbook, which is stored as `ArtifactStore.write` stores it. -/
def firstDigest : Digest := ⟨"5fc92a506f98b17b81bf17c5bc36368a256766c771f3cd4fb35658b83b8e578f", first_hex⟩

/-- The digest of the second runbook, which is stored with a newline at the end. -/
def secondDigest : Digest := ⟨"6cf9dee7ea35dcf20530aed79d0c36cc463935320aa643e1939ba2010ee5d161", by decide⟩

/-- The digest of the second runbook without the newline. -/
def otherDigest : Digest := ⟨"3c0b42dddd4008e5ccb5482ca2248234a59ee0b230ab09509a60453918ce86e9", by decide⟩

/-- The bytes of the first runbook. -/
def firstRaw : Bytes := Text.encodeUtf8 (envelopeText firstEnvelope)

/-- The bytes of the second runbook. -/
def secondRaw : Bytes := Text.encodeUtf8 (envelopeText secondEnvelope ++ ['\n'])

/-- The digests and the values of the contents. -/
@[reducible] def runbookHashing : Hashing where
  hexdigest content :=
    if content = firstRaw then firstDigest.val
    else if content = secondRaw then secondDigest.val
    else otherDigest.val
  validateJson content :=
    if content = firstRaw then .ok firstEnvelope
    else if content = secondRaw then .ok secondEnvelope
    else .error (.other "ValueError" "ValidationError")

attribute [local instance] runbookHashing

theorem first_id : identifierOk "e1" = true := by decide

theorem second_id : identifierOk "e2" = true := by decide

theorem first_query : strippedOk 4000 "runbook-v1" = true := by decide

theorem second_query : strippedOk 4000 "runbook-v2" = true := by decide

/-- The first runbook. -/
def firstRunbook : EvidenceItem := retained (runbookMetadata ⟨"e1", first_id⟩ ⟨"runbook-v1", first_query⟩) firstDigest

/-- The second runbook. -/
def secondRunbook : EvidenceItem :=
  retained (runbookMetadata ⟨"e2", second_id⟩ ⟨"runbook-v2", second_query⟩) secondDigest

/-- A store with the two runbooks. -/
def runbookStore (digest : String) : Option Bytes :=
  if digest = firstDigest.val then some firstRaw
  else if digest = secondDigest.val then some secondRaw
  else none

/-- The two runbooks. -/
def runbooks : KnowledgeBundle := ⟨some runbookStore, [firstRunbook, secondRunbook], by decide⟩

theorem first_held : runbookStore firstRunbook.artifactSha256.val = some firstRaw := by
  have hsame : firstRunbook.artifactSha256.val = firstDigest.val := rfl
  rw [runbookStore, if_pos hsame]

theorem second_held : runbookStore secondRunbook.artifactSha256.val = some secondRaw := by
  have hne : secondRunbook.artifactSha256.val ≠ firstDigest.val := by decide
  have hsame : secondRunbook.artifactSha256.val = secondDigest.val := rfl
  rw [runbookStore, if_neg hne, if_pos hsame]

theorem runbook_lengths :
    Text.utf8Length (envelopeText firstEnvelope) = 356 ∧ Text.utf8Length (envelopeText secondEnvelope) = 356 := by
  decide +kernel

theorem first_decoded : Trace.loadsFinite (envelopeText firstEnvelope) = some (.obj firstEnvelope) := by
  decide +kernel

theorem second_decoded : Trace.loadsFinite (envelopeText secondEnvelope ++ ['\n']) = some (.obj secondEnvelope) := by
  decide +kernel

theorem texts_differ : envelopeText firstEnvelope ≠ envelopeText secondEnvelope := by decide +kernel

theorem firstRaw_length : firstRaw.length = 356 := by
  rw [firstRaw, Text.length_encodeUtf8, runbook_lengths.1]

theorem secondRaw_length : secondRaw.length = 357 := by
  rw [secondRaw, Text.length_encodeUtf8, Text.utf8Length_append, runbook_lengths.2]
  rfl

theorem second_ne_first : secondRaw ≠ firstRaw := by
  intro h
  have hlength := congrArg List.length h
  rw [firstRaw_length, secondRaw_length] at hlength
  cases hlength

/-- The second runbook, encoded again, is neither of the two contents. -/
theorem other_ne : Text.encodeUtf8 (envelopeText secondEnvelope) ≠ firstRaw ∧
    Text.encodeUtf8 (envelopeText secondEnvelope) ≠ secondRaw := by
  constructor
  · intro h
    have hdecoded := congrArg Text.decodeUtf8 h
    rw [firstRaw, Text.decodeUtf8_encodeUtf8, Text.decodeUtf8_encodeUtf8] at hdecoded
    exact texts_differ (Option.some.inj hdecoded).symm
  · intro h
    have hlength := congrArg List.length h
    rw [secondRaw_length, Text.length_encodeUtf8, runbook_lengths.2] at hlength
    cases hlength

theorem first_verified : verifyEnvelope runbookStore firstRunbook = .ok firstEnvelope := by
  refine verifyEnvelope_of rfl first_held ?_ (if_pos rfl) (if_pos rfl) rfl (by decide +kernel)
  rw [firstRaw_length]
  decide

theorem second_verified : verifyEnvelope runbookStore secondRunbook = .ok secondEnvelope := by
  refine verifyEnvelope_of rfl second_held ?_ ?_ ?_ rfl (by decide +kernel)
  · rw [secondRaw_length]
    decide
  · exact (if_neg second_ne_first).trans (if_pos rfl)
  · exact (if_neg second_ne_first).trans (if_pos rfl)

/-- Both runbooks are verified where they lie. -/
theorem runbooks_verified : runbooks.verified = .ok [(firstRunbook, firstRaw), (secondRunbook, secondRaw)] := by
  have hfirst : verifyOriginal runbookStore [] firstRunbook = .ok firstRaw := by
    refine verifyOriginal_of rfl (by decide) (by decide) (by simp) first_verified rfl rfl rfl first_held ?_
    rw [firstRaw_length]
    decide
  have hsecond : verifyOriginal runbookStore [firstRunbook.evidenceId] secondRunbook = .ok secondRaw := by
    refine verifyOriginal_of rfl (by decide) (by decide) (by decide) second_verified rfl rfl rfl second_held ?_
    rw [secondRaw_length]
    decide
  have hbudget : 0 + firstRaw.length ≤ 1048576 := by
    rw [firstRaw_length]
    decide
  have hbudget' : 0 + firstRaw.length + secondRaw.length ≤ 1048576 := by
    rw [firstRaw_length, secondRaw_length]
    decide
  exact verifyOriginals_cons hfirst hbudget (verifyOriginals_cons hsecond hbudget' rfl)

/-- The first runbook is decoded to its envelope. -/
theorem first_payload : decode firstRaw MAX_ARTIFACT_BYTES = .ok firstEnvelope := by
  have hsmall : ¬MAX_ARTIFACT_BYTES < firstRaw.length := by
    rw [firstRaw_length]
    decide
  have hdepth : ¬withinDepth 25 (.obj firstEnvelope) = false := by decide
  rw [decode, if_neg hsmall, firstRaw, Text.decodeUtf8_encodeUtf8, Option.bind_some, first_decoded]
  exact if_neg hdepth

/-- The second runbook is decoded to its envelope, too. -/
theorem second_payload : decode secondRaw MAX_ARTIFACT_BYTES = .ok secondEnvelope := by
  have hsmall : ¬MAX_ARTIFACT_BYTES < secondRaw.length := by
    rw [secondRaw_length]
    decide
  have hdepth : ¬withinDepth 25 (.obj secondEnvelope) = false := by decide
  rw [decode, if_neg hsmall, secondRaw, Text.decodeUtf8_encodeUtf8, Option.bind_some, second_decoded]
  exact if_neg hdepth

/-- The first runbook is copied. -/
theorem first_copied : Copies (fun _ => none) firstRunbook firstRaw := by
  have hencoded : encode firstEnvelope = .ok firstRaw := if_pos (by decide)
  have hsmall : firstRaw.length ≤ MAX_ARTIFACT_BYTES := by
    rw [firstRaw_length]
    decide
  have hnamed : Hashing.hexdigest firstRaw = firstRunbook.artifactSha256.val := if_pos rfl
  refine ⟨firstRaw, ⟨firstEnvelope, first_payload, hencoded, hsmall, ?_, by simp⟩, hnamed, ?_⟩
  · rw [hnamed]
    exact firstRunbook.artifactSha256.property
  · rw [← first_held]
    exact verifyEnvelope_content first_verified

/-- The second runbook is not copied. -/
theorem second_not_copied : ¬Copies (fun _ => none) secondRunbook secondRaw := by
  rintro ⟨content, ⟨payload, hpayload, hstored⟩, hnamed, -⟩
  obtain rfl := Except.ok.inj (hpayload.symm.trans second_payload)
  have hencoded : encode secondEnvelope = .ok (Text.encodeUtf8 (envelopeText secondEnvelope)) := if_pos (by decide)
  obtain rfl := Except.ok.inj (hstored.encoded.symm.trans hencoded)
  have hother : Hashing.hexdigest (Text.encodeUtf8 (envelopeText secondEnvelope)) = otherDigest.val :=
    (if_neg other_ne.1).trans (if_neg other_ne.2)
  rw [hother] at hnamed
  revert hnamed
  decide

/-- **The import is not all or nothing**: the second runbook is not copied, and the first one is. -/
theorem import_leaves_first : ¬AllOrNothing runbooks fun _ => none := by
  intro hclean
  have hsound : Sound ([(firstRunbook, firstRaw)] ++ (secondRunbook, secondRaw) :: []) :=
    (verified_sound runbooks_verified).2
  have hcopies : ∀ q ∈ [(firstRunbook, firstRaw)], Copies (fun _ => none) q.1 q.2 := by
    intro q hq
    rw [List.mem_singleton.mp hq]
    exact first_copied
  obtain ⟨x, later, hcopy, -, hheld⟩ := copyAll_fails hsound (fun _ => none) hcopies second_not_copied
  have hrun : runbooks.importInto.eval (fun _ => none) = (.error x, later) :=
    (importInto_eval runbooks_verified _).trans hcopy
  rw [AllOrNothing, hrun] at hclean
  exact (hheld.mp hclean).1 _ List.mem_cons_self rfl

end Sample

end PayOps.OperatorHost
