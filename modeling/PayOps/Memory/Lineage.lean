import PayOps.Evidence.Records

/-!
# The lineage of a retrieved passage

`verify_retrieval_evidence`, `_verify_retrieval` and `_source_scope` of `payops.memory.data_clients`: a passage that was
retrieved cites its source, which may be a retrieved passage again.

## The model

A store is what it holds under each digest. The two functions call each other; each link adds a digest to those that
were seen, and there are at most eight of them.

## What is proved

* `verifyRetrieval_ok`, `sourceScope_ok` — what each of the two functions has checked when it returns.
* `verifyRetrieval_chain` — what was checked of all links, by induction on the digests that may still be seen.
* `retrieval_lineage` — **main result**: a passage that is accepted ends a chain of links that starts at an original.
-/

namespace PayOps.Memory.Lineage

open Evidence
open Evidence.FileStore (Hashing)
open Json (field)

/-- `Kind`. -/
inductive Kind where
  /-- `RUNBOOK`. -/
  | runbook
  /-- `MEMORY`. -/
  | memory
  deriving DecidableEq

/-- `INDEXES`. -/
def INDEXES : Kind → String
  | .runbook => "payops-runbooks-v1"
  | .memory => "payops-memory-v1"

/-- The kind of a source. -/
def kindOf : Source → Option Kind
  | .runbook => some .runbook
  | .memory => some .memory
  | _ => none

section Model

variable [Platform]

/-- `EvidenceScope`. -/
structure EvidenceScope where
  /-- `incident_id`. -/
  incidentId : Identifier
  /-- `namespace`. -/
  nameSpace : Identifier
  /-- `service`. -/
  service : Identifier
  deriving DecidableEq

/-- `RetrievalLineage`. -/
structure RetrievalLineage where
  /-- `scope`. -/
  scope : EvidenceScope
  /-- `index`, by the kind of its passages. -/
  index : Kind
  /-- `source`. -/
  source : EvidenceItem
  /-- `retrieved_at`. -/
  retrievedAt : Time
  deriving DecidableEq

/-- Validation of a scope. -/
def EvidenceScope.validate : Json → Option EvidenceScope
  | .obj fields => do
    let incidentId ← identifierField fields "incident_id"
    let nameSpace ← identifierField fields "namespace"
    let service ← identifierField fields "service"
    if onlyFields fields ["incident_id", "namespace", "service"] then some ⟨incidentId, nameSpace, service⟩ else none
  | _ => none

variable [Datetimes]

/-- `RetrievalLineage.model_validate`. -/
def RetrievalLineage.validate : Json → Option RetrievalLineage
  | .obj fields => do
    let scope ← (field fields "scope").bind EvidenceScope.validate
    let index ← [Kind.runbook, .memory].find? fun kind => textField fields "index" == some (INDEXES kind)
    let source ← (field fields "source").bind EvidenceItem.validate
    let retrievedAt ← timeField fields "retrieved_at"
    if literalField fields "transformation" (.str "payops-retrieval-v1") &&
        literalField fields "retrieval_only" (.bool true) &&
        onlyFields fields ["transformation", "scope", "index", "source", "retrieved_at", "retrieval_only"] then
      some ⟨scope, index, source, retrievedAt⟩
    else none
  | _ => none

/-- `item.query.startswith("elasticsearch://")`. -/
def retrieved (item : EvidenceItem) : Bool := "elasticsearch://".toList.isPrefixOf item.query.val.toList

/-- The metadata of a link, against its lineage. -/
def checkLink (item : EvidenceItem) (lineage : RetrievalLineage) : Except Fault Unit :=
  match kindOf item.source with
  | none => .error (.integrity "retrieval evidence kind mismatch")
  | some kind =>
    if lineage.index ≠ kind ∨ item.query.val ≠ "elasticsearch://" ++ INDEXES lineage.index ++ "/fixed-scope-match" ∨
        item.incidentId ≠ lineage.scope.incidentId ∨ item.resource ≠ lineage.scope.service ∨
        lineage.source.source ≠ item.source ∨ lineage.source.resource ≠ item.resource ∨
        item.summary ≠ lineage.source.summary ∨ item.observedAt ≠ lineage.source.observedAt ∨
        ¬(lineage.source.observedAt ≤ lineage.source.collectedAt ∧
          lineage.source.collectedAt ≤ lineage.retrievedAt ∧ lineage.retrievedAt ≤ item.collectedAt) then
      .error (.integrity "retrieval metadata disagrees with source lineage")
    else .ok ()

variable [Hashing] [Isoformat] [Numerals]

/-- `RetrievalLineage.model_validate(envelope.get("payload"))`. -/
def lineageOf (envelope : JsonObject) : Except Fault RetrievalLineage :=
  match RetrievalLineage.validate ((field envelope "payload").getD .null) with
  | some lineage => .ok lineage
  | none => .error (.value "ValidationError")

mutual

/-- `_verify_retrieval`. -/
def verifyRetrieval (held : Artifacts) (item : EvidenceItem) (seen : List Digest) :
    Except Fault RetrievalLineage :=
  if item.artifactSha256 ∈ seen ∨ 8 ≤ seen.length then
    .error (.integrity "retrieval lineage cycle or depth exceeded")
  else do
    let envelope ← verifyEnvelope held item
    let lineage ← lineageOf envelope
    checkLink item lineage
    let actual ← sourceScope held lineage.source (item.artifactSha256 :: seen)
    if actual ≠ (.str lineage.scope.nameSpace.val, .str lineage.scope.service.val) then
      .error (.integrity "retrieval source scope mismatch")
    else .ok lineage
termination_by (8 - seen.length, 0)

/-- `_source_scope`. -/
def sourceScope (held : Artifacts) (item : EvidenceItem) (seen : List Digest) : Except Fault (Json × Json) := do
  let envelope ← verifyEnvelope held item
  if retrieved item then
    let previous ← verifyRetrieval held item seen
    .ok (.str previous.scope.nameSpace.val, .str previous.scope.service.val)
  else
    match field envelope "payload" with
    | some (.obj raw) => .ok ((field raw "namespace").getD .null, (field raw "service").getD .null)
    | _ => .error (.integrity "retrieval source payload is invalid")
termination_by (8 - seen.length, 1)

end

/-- `verify_retrieval_evidence`. -/
def verifyRetrievalEvidence (held : Artifacts) (item : EvidenceItem) : Except Fault RetrievalLineage :=
  verifyRetrieval held item []

/-! ### What was checked -/

/-- What `_verify_retrieval` checks of the metadata of a link. -/
structure Linked (item : EvidenceItem) (lineage : RetrievalLineage) : Prop where
  /-- The link is one of a search. -/
  retrieved : retrieved item = true
  /-- Its source is of the same kind. -/
  source : lineage.source.source = item.source
  /-- Its source is about the same resource. -/
  resource : lineage.source.resource = item.resource
  /-- Its source says the same. -/
  summary : lineage.source.summary = item.summary
  /-- Its source was seen at the same time. -/
  observedAt : lineage.source.observedAt = item.observedAt
  /-- Its source was collected before it was retrieved. -/
  before : lineage.source.collectedAt ≤ lineage.retrievedAt
  /-- It was retrieved before it was collected. -/
  after : lineage.retrievedAt ≤ item.collectedAt

omit [Datetimes] [Hashing] [Isoformat] [Numerals] in
theorem checkLink_ok {item : EvidenceItem} {lineage : RetrievalLineage} (h : checkLink item lineage = .ok ()) :
    Linked item lineage := by
  unfold checkLink at h
  cases hkind : kindOf item.source with
  | none => simp [hkind] at h
  | some kind =>
    simp only [hkind] at h
    split_ifs at h with hbad
    push Not at hbad
    obtain ⟨-, hquery, -, -, hsource, hresource, hsummary, hobserved, -, hbefore, hafter⟩ := hbad
    refine ⟨?_, hsource, hresource, hsummary.symm, hobserved.symm, hbefore, hafter⟩
    simp [Lineage.retrieved, hquery]

/-- **What `_verify_retrieval` has checked** when it returns. -/
theorem verifyRetrieval_ok {held : Artifacts} {item : EvidenceItem} {seen : List Digest} {lineage : RetrievalLineage}
    (h : verifyRetrieval held item seen = .ok lineage) :
    item.artifactSha256 ∉ seen ∧ seen.length < 8 ∧ (∃ envelope, verifyEnvelope held item = .ok envelope ∧
      lineageOf envelope = .ok lineage) ∧ Linked item lineage ∧
      sourceScope held lineage.source (item.artifactSha256 :: seen) =
        .ok (.str lineage.scope.nameSpace.val, .str lineage.scope.service.val) := by
  rw [verifyRetrieval] at h
  split_ifs at h with hbound
  simp only [not_or, not_le] at hbound
  obtain ⟨envelope, henvelope, h⟩ := bind_eq_ok.mp h
  obtain ⟨lineage', hlineage, h⟩ := bind_eq_ok.mp h
  obtain ⟨_, hlink, h⟩ := bind_eq_ok.mp h
  obtain ⟨actual, hactual, h⟩ := bind_eq_ok.mp h
  split_ifs at h with hscope
  obtain rfl : lineage' = lineage := by simpa using h
  exact ⟨hbound.1, hbound.2, ⟨envelope, henvelope, hlineage⟩, checkLink_ok hlink, by rw [hactual, not_not.mp hscope]⟩

/-- **What `_source_scope` has checked** when it returns. -/
theorem sourceScope_ok {held : Artifacts} {item : EvidenceItem} {seen : List Digest} {scope : Json × Json}
    (h : sourceScope held item seen = .ok scope) :
    (∃ previous, verifyRetrieval held item seen = .ok previous ∧
      scope = (.str previous.scope.nameSpace.val, .str previous.scope.service.val)) ∨
    (retrieved item = false ∧ ∃ envelope raw, verifyEnvelope held item = .ok envelope ∧
      field envelope "payload" = some (.obj raw) ∧
      scope = ((field raw "namespace").getD .null, (field raw "service").getD .null)) := by
  rw [sourceScope] at h
  obtain ⟨envelope, henvelope, h⟩ := bind_eq_ok.mp h
  split_ifs at h with hretrieved
  · obtain ⟨previous, hprevious, h⟩ := bind_eq_ok.mp h
    exact .inl ⟨previous, hprevious, by simpa using h.symm⟩
  · split at h
    · rename_i raw hraw
      exact .inr ⟨by simpa using hretrieved, envelope, raw, henvelope, hraw, by simpa using h.symm⟩
    · cases h

/-! ### Chains -/

/-- A link of a chain: a retrieved passage, with its lineage. -/
abbrev Link := EvidenceItem × RetrievalLineage

/-- The sources of a passage, up to an original: each link is verified, and the next one is its source. -/
inductive Chain (held : Artifacts) : EvidenceItem → List Link → EvidenceItem → Prop where
  /-- An original, which is no retrieved passage. -/
  | original {item : EvidenceItem} {envelope : JsonObject} (hverified : verifyEnvelope held item = .ok envelope)
      (horiginal : retrieved item = false) : Chain held item [] item
  /-- A retrieved passage, before the chain of its source. -/
  | link {item original : EvidenceItem} {envelope : JsonObject} {lineage : RetrievalLineage} {links : List Link}
      (hverified : verifyEnvelope held item = .ok envelope) (hlineage : lineageOf envelope = .ok lineage)
      (hlinked : Linked item lineage) (hsource : Chain held lineage.source links original) :
      Chain held item ((item, lineage) :: links) original

/-- What was checked of a chain that starts at `item`, when the digests of `seen` had been seen. -/
structure Checked (held : Artifacts) (item : EvidenceItem) (seen : List Digest) (scope : Json × Json)
    (links : List Link) (original : EvidenceItem) : Prop where
  /-- It is a chain. -/
  chain : Chain held item links original
  /-- There are at most eight links. -/
  bounded : seen.length + links.length ≤ 8
  /-- No digest is seen twice. -/
  fresh : ∀ l ∈ links, l.1.artifactSha256 ∉ seen
  /-- The digests differ. -/
  distinct : (links.map fun l => l.1.artifactSha256).Nodup
  /-- The scope is recorded in the payload of the original. -/
  recorded : ∃ envelope raw, verifyEnvelope held original = .ok envelope ∧
    field envelope "payload" = some (.obj raw) ∧
    scope = ((field raw "namespace").getD .null, (field raw "service").getD .null)
  /-- Every link has that scope. -/
  inScope : ∀ l ∈ links, (Json.str l.2.scope.nameSpace.val, Json.str l.2.scope.service.val) = scope

/-- An original, with the scope that its payload records. -/
theorem Checked.of_original {held : Artifacts} {item : EvidenceItem} {seen : List Digest} {envelope raw : JsonObject}
    (hseen : seen.length ≤ 8) (horiginal : retrieved item = false)
    (henvelope : verifyEnvelope held item = .ok envelope) (hraw : field envelope "payload" = some (.obj raw)) :
    Checked held item seen ((field raw "namespace").getD .null, (field raw "service").getD .null) [] item where
  chain := .original henvelope horiginal
  bounded := by simpa using hseen
  fresh := by simp
  distinct := by simp
  recorded := ⟨envelope, raw, henvelope, hraw, rfl⟩
  inScope := by simp

/-- A verified link, before the chain of its source. -/
theorem Checked.cons {held : Artifacts} {item original : EvidenceItem} {seen : List Digest}
    {lineage : RetrievalLineage} {links : List Link} (h : verifyRetrieval held item seen = .ok lineage)
    (hchecked : Checked held lineage.source (item.artifactSha256 :: seen)
      (.str lineage.scope.nameSpace.val, .str lineage.scope.service.val) links original) :
    Checked held item seen (.str lineage.scope.nameSpace.val, .str lineage.scope.service.val)
      ((item, lineage) :: links) original := by
  obtain ⟨hfresh, -, ⟨envelope, henvelope, hlineage⟩, hlinked, -⟩ := verifyRetrieval_ok h
  have hbounded := hchecked.bounded
  have hfresh' := hchecked.fresh
  simp only [List.length_cons, List.mem_cons, not_or] at hbounded hfresh'
  constructor
  · exact .link henvelope hlineage hlinked hchecked.chain
  · simp only [List.length_cons]
    omega
  · exact List.forall_mem_cons.mpr ⟨hfresh, fun l hl => (hfresh' l hl).2⟩
  · rw [List.map_cons, List.nodup_cons]
    refine ⟨fun hmem => ?_, hchecked.distinct⟩
    obtain ⟨l, hl, hsame⟩ := List.mem_map.mp hmem
    exact (hfresh' l hl).1 hsame
  · exact hchecked.recorded
  · exact List.forall_mem_cons.mpr ⟨rfl, hchecked.inScope⟩

/-- **What is checked of a source**: the chain of its own sources, by induction on the digests that may be seen. -/
theorem sourceScope_chain {held : Artifacts} {item : EvidenceItem} {seen : List Digest} {scope : Json × Json}
    (hseen : seen.length ≤ 8) (h : sourceScope held item seen = .ok scope) :
    ∃ links original, Checked held item seen scope links original := by
  induction hroom : 8 - seen.length generalizing item seen scope with
  | zero =>
    rcases sourceScope_ok h with ⟨previous, hprevious, -⟩ | ⟨horiginal, envelope, raw, henvelope, hraw, rfl⟩
    · have hlt := (verifyRetrieval_ok hprevious).2.1
      omega
    · exact ⟨[], item, .of_original hseen horiginal henvelope hraw⟩
  | succ room ih =>
    rcases sourceScope_ok h with ⟨previous, hprevious, rfl⟩ | ⟨horiginal, envelope, raw, henvelope, hraw, rfl⟩
    · obtain ⟨-, hlt, -, -, hsource⟩ := verifyRetrieval_ok hprevious
      obtain ⟨links, original, hchecked⟩ := ih (by simpa using hlt) hsource (by simp only [List.length_cons]; omega)
      exact ⟨(item, previous) :: links, original, hchecked.cons hprevious⟩
    · exact ⟨[], item, .of_original hseen horiginal henvelope hraw⟩

/-- The facts that all links of a chain share with its original. -/
structure Shared (item original : EvidenceItem) : Prop where
  /-- The kind. -/
  source : item.source = original.source
  /-- The resource. -/
  resource : item.resource = original.resource
  /-- What they say. -/
  summary : item.summary = original.summary
  /-- When the source saw it. -/
  observedAt : item.observedAt = original.observedAt

/-- A chain ends at an original. -/
theorem Chain.ends {held : Artifacts} {item original : EvidenceItem} {links : List Link}
    (h : Chain held item links original) : retrieved original = false := by
  induction h with
  | original _ horiginal => exact horiginal
  | link _ _ _ _ ih => exact ih

/-- **All links of a chain share their facts** with its original. -/
theorem Chain.shared {held : Artifacts} {item original : EvidenceItem} {links : List Link}
    (h : Chain held item links original) :
    Shared item original ∧ ∀ l ∈ links, Shared l.1 original := by
  induction h with
  | original => exact ⟨⟨rfl, rfl, rfl, rfl⟩, by simp⟩
  | link _ _ hlinked _ ih =>
    obtain ⟨hsource, hlinks⟩ := ih
    have hshared : Shared _ _ := ⟨hlinked.source.symm.trans hsource.source,
      hlinked.resource.symm.trans hsource.resource, hlinked.summary.symm.trans hsource.summary,
      hlinked.observedAt.symm.trans hsource.observedAt⟩
    exact ⟨hshared, List.forall_mem_cons.mpr ⟨hshared, hlinks⟩⟩

/-- The collection times of a chain, from that of the passage to that of the original. -/
def collectionTimes (links : List Link) (original : EvidenceItem) : List Time :=
  links.map (·.1.collectedAt) ++ [original.collectedAt]

/-- **The collection times** do not decrease from the original to the passage; each link was retrieved between the
collection of its source and its own. -/
theorem Chain.times {held : Artifacts} {item original : EvidenceItem} {links : List Link}
    (h : Chain held item links original) :
    (∀ t ∈ collectionTimes links original, t ≤ item.collectedAt) ∧
      (collectionTimes links original).Pairwise (· ≥ ·) ∧
      ∀ l ∈ links, l.2.source.collectedAt ≤ l.2.retrievedAt ∧ l.2.retrievedAt ≤ l.1.collectedAt := by
  induction h with
  | original => simp [collectionTimes]
  | @link item original _ lineage links _ _ hlinked _ ih =>
    obtain ⟨hbound, hsorted, hlinks⟩ := ih
    have hstep : lineage.source.collectedAt ≤ item.collectedAt := hlinked.before.trans hlinked.after
    have hbound' : ∀ t ∈ collectionTimes links original, t ≤ item.collectedAt := fun t ht => (hbound t ht).trans hstep
    have hcons : collectionTimes ((item, lineage) :: links) original =
        item.collectedAt :: collectionTimes links original := rfl
    rw [hcons]
    exact ⟨List.forall_mem_cons.mpr ⟨le_rfl, hbound'⟩, List.pairwise_cons.mpr ⟨hbound', hsorted⟩,
      List.forall_mem_cons.mpr ⟨⟨hlinked.before, hlinked.after⟩, hlinks⟩⟩

/-! ### Digests -/

/-- Every link of a chain is a verified passage of a search. -/
theorem Chain.verified {held : Artifacts} {item original : EvidenceItem} {links : List Link}
    (h : Chain held item links original) :
    (∀ l ∈ links, retrieved l.1 = true ∧ ∃ envelope, verifyEnvelope held l.1 = .ok envelope) ∧
      ∃ envelope, verifyEnvelope held original = .ok envelope := by
  induction h with
  | original hverified _ => exact ⟨by simp, _, hverified⟩
  | link hverified _ hlinked _ ih => exact ⟨List.forall_mem_cons.mpr ⟨⟨hlinked.retrieved, _, hverified⟩, ih.1⟩, ih.2⟩

/-- The digest of the original is none of its links'. -/
theorem Chain.original_digest {held : Artifacts} {item original : EvidenceItem} {links : List Link}
    (h : Chain held item links original) : ∀ l ∈ links, l.1.artifactSha256 ≠ original.artifactSha256 := by
  intro l hl hsame
  obtain ⟨hlinks, envelope, horiginal⟩ := h.verified
  obtain ⟨hretrieved, _, hverified⟩ := hlinks l hl
  have hquery : l.1.query = original.query :=
    Subtype.ext (text_of_digest hverified horiginal hsame "query" rfl rfl)
  have hends := h.ends
  rw [retrieved, ← hquery] at hends
  exact absurd (hends.symm.trans hretrieved) (by decide)

/-- **The lineage of a retrieved passage.** A passage that is accepted ends a chain of at most eight links, all of them
verified and with different digests, that starts at an original: they share its kind, its resource, its summary and
the time at which it was seen, their times are in order, and the payload of the original records their scope. -/
theorem retrieval_lineage (held : Artifacts) (item : EvidenceItem) (lineage : RetrievalLineage)
    (h : verifyRetrievalEvidence held item = .ok lineage) :
    ∃ links original, Chain held item links original ∧ links.head? = some (item, lineage) ∧ links.length ≤ 8 ∧
      retrieved original = false ∧
      (links.map (·.1.artifactSha256) ++ [original.artifactSha256]).Nodup ∧
      (∀ l ∈ links, Shared l.1 original) ∧
      (collectionTimes links original).Pairwise (· ≥ ·) ∧
      (∀ l ∈ links, l.2.source.collectedAt ≤ l.2.retrievedAt ∧ l.2.retrievedAt ≤ l.1.collectedAt) ∧
      ∃ envelope raw, verifyEnvelope held original = .ok envelope ∧ field envelope "payload" = some (.obj raw) ∧
        ∀ l ∈ links, field raw "namespace" = some (.str l.2.scope.nameSpace.val) ∧
          field raw "service" = some (.str l.2.scope.service.val) := by
  obtain ⟨-, -, -, -, hsource⟩ := verifyRetrieval_ok h
  obtain ⟨links, original, hchecked⟩ := sourceScope_chain (by simp) hsource
  have hall := hchecked.cons h
  obtain ⟨-, hsorted, hlinks⟩ := hall.chain.times
  obtain ⟨envelope, raw, henvelope, hraw, hscope⟩ := hall.recorded
  refine ⟨_, original, hall.chain, rfl, by simpa using hall.bounded, hall.chain.ends, ?_, hall.chain.shared.2, hsorted,
    hlinks, envelope, raw, henvelope, hraw, fun l hl => ?_⟩
  · rw [List.nodup_append]
    refine ⟨hall.distinct, by simp, fun digest hdigest other hother => ?_⟩
    obtain ⟨l, hl, rfl⟩ := List.mem_map.mp hdigest
    rw [List.mem_singleton.mp hother]
    exact hall.chain.original_digest l hl
  · have hl := (hall.inScope l hl).trans hscope
    simp only [Prod.mk.injEq] at hl
    constructor
    · cases hfield : field raw "namespace" with
      | none => simp [hfield] at hl
      | some v => simpa [hfield] using hl.1.symm
    · cases hfield : field raw "service" with
      | none => simp [hfield] at hl
      | some v => simpa [hfield] using hl.2.symm

/-- **What is accepted**: a link whose source is an original. -/
theorem verifyRetrieval_of_original {held : Artifacts} {item : EvidenceItem} {seen : List Digest}
    {lineage : RetrievalLineage} {envelope source raw : JsonObject} (hfresh : item.artifactSha256 ∉ seen)
    (hroom : seen.length < 8) (henvelope : verifyEnvelope held item = .ok envelope)
    (hlineage : lineageOf envelope = .ok lineage) (hlink : checkLink item lineage = .ok ())
    (horiginal : retrieved lineage.source = false) (hsource : verifyEnvelope held lineage.source = .ok source)
    (hraw : field source "payload" = some (.obj raw))
    (hspace : field raw "namespace" = some (.str lineage.scope.nameSpace.val))
    (hservice : field raw "service" = some (.str lineage.scope.service.val)) :
    verifyRetrieval held item seen = .ok lineage := by
  have hscope : sourceScope held lineage.source (item.artifactSha256 :: seen) =
      .ok (.str lineage.scope.nameSpace.val, .str lineage.scope.service.val) := by
    rw [sourceScope]
    simp [bind, Except.bind, hsource, horiginal, hraw, hspace, hservice]
  have hbound : ¬(item.artifactSha256 ∈ seen ∨ 8 ≤ seen.length) := by
    simp only [not_or, not_le]
    exact ⟨hfresh, hroom⟩
  rw [verifyRetrieval, if_neg hbound, henvelope]
  simp [bind, Except.bind, hlineage, hlink, hscope]

end Model

/-! ### A passage -/

/-- A platform for the sample passage. -/
@[reducible] def passagePlatform : Platform where
  sha256 text := text
  patternWord _ := false
  reWord _ := false
  nesting := 8
  floatRepr text := text

/-- The first seconds, as they are written. -/
def isoSecond (t : Time) : String := "1970-01-01T00:00:0" ++ String.ofList [Json.hexDigit (t / 1000000).toNat] ++ "Z"

/-- How the first seconds are written. -/
@[reducible] def passageIsoformat : Isoformat := ⟨isoSecond⟩

/-- How the first seconds are read. -/
@[reducible] def passageDatetimes : Datetimes where
  strict text := ((List.range 10).map seconds).find? fun t => isoSecond t == text
  lax value := value.asStr.bind fun text => ((List.range 10).map seconds).find? fun t => isoSecond t == text

attribute [local instance] passagePlatform passageIsoformat passageDatetimes FileStore.noNumerals

/-- The digest of the runbook. -/
def runbookDigest : Digest := ⟨"5fc92a506f98b17b81bf17c5bc36368a256766c771f3cd4fb35658b83b8e578f", by decide⟩

/-- The digest of the passage. -/
def passageDigest : Digest := ⟨"43596d01442418bcb070a8805192142e2dc253d90b288a4ef32fb8e963edb769", by decide⟩

/-- What is retained of the runbook. -/
def runbookMetadata : EvidenceMetadata :=
  ⟨⟨"e1", by decide⟩, ⟨"i1", by decide⟩, .runbook, seconds 0, seconds 1, ⟨"runbook-v1", by decide⟩,
    ⟨"payments-api", by decide⟩, ⟨"Check the ledger", by decide⟩⟩

/-- What is retained of the passage. -/
def passageMetadata : EvidenceMetadata :=
  ⟨⟨"e2", by decide⟩, ⟨"i2", by decide⟩, .runbook, seconds 0, seconds 3,
    ⟨"elasticsearch://payops-runbooks-v1/fixed-scope-match", by decide⟩, ⟨"payments-api", by decide⟩,
    ⟨"Check the ledger", by decide⟩⟩

/-- The scope of the runbook, as its payload records it. -/
def runbookPayload : JsonObject := [("namespace", .str "payops-sandbox"), ("service", .str "payments-api")]

/-- `RetrievalLineage(…).model_dump(mode="json")`, of the passage. -/
def passagePayload : JsonObject :=
  [("transformation", .str "payops-retrieval-v1"),
    ("scope", .obj (("incident_id", .str "i2") :: runbookPayload)), ("index", .str "payops-runbooks-v1"),
    ("source", .obj (dumpMetadata runbookMetadata ++
      [("artifact_uri", .str ("sha256://" ++ runbookDigest.val)), ("artifact_sha256", .str runbookDigest.val)])),
    ("retrieved_at", .str (isoSecond (seconds 2))), ("retrieval_only", .bool true)]

/-- The envelope of the runbook. -/
def runbookEnvelope : JsonObject := envelope runbookMetadata (.obj runbookPayload)

/-- The envelope of the passage. -/
def passageEnvelope : JsonObject := envelope passageMetadata (.obj passagePayload)

/-- The content of an envelope, all of it ASCII. -/
def contentOf (payload : JsonObject) : FileStore.Bytes :=
  (Json.dumps Json.Style.canonicalUtf8 (.obj payload)).map fun c => UInt8.ofNat c.toNat

/-- The digests and the values of the two contents. -/
@[reducible] def passageHashing : Hashing where
  hexdigest content :=
    if content = contentOf runbookEnvelope then runbookDigest.val
    else if content = contentOf passageEnvelope then passageDigest.val
    else FileStore.emptyDigest
  validateJson content :=
    if content = contentOf runbookEnvelope then .ok runbookEnvelope
    else if content = contentOf passageEnvelope then .ok passageEnvelope
    else .error (.other "ValueError" "ValidationError")

attribute [local instance] passageHashing

/-- A store with the two artifacts. -/
def passageStore : Artifacts := fun digest =>
  if digest = runbookDigest.val then some (contentOf runbookEnvelope)
  else if digest = passageDigest.val then some (contentOf passageEnvelope)
  else none

/-- The runbook. -/
def runbook : EvidenceItem := retained runbookMetadata runbookDigest

/-- The passage. -/
def passage : EvidenceItem := retained passageMetadata passageDigest

/-- The lineage of the passage. -/
def passageLineage : RetrievalLineage :=
  ⟨⟨⟨"i2", by decide⟩, ⟨"payops-sandbox", by decide⟩, ⟨"payments-api", by decide⟩⟩, .runbook, runbook, seconds 2⟩

theorem runbook_held : passageStore runbookDigest.val = some (contentOf runbookEnvelope) := if_pos rfl

theorem passage_held : passageStore passageDigest.val = some (contentOf passageEnvelope) := by
  rw [passageStore, if_neg (by decide), if_pos rfl]

theorem contents_length :
    (contentOf runbookEnvelope).length = 356 ∧ (contentOf passageEnvelope).length = 972 := by
  decide +kernel

theorem contents_differ : contentOf passageEnvelope ≠ contentOf runbookEnvelope := by
  intro h
  have hlength := congrArg List.length h
  rw [contents_length.1, contents_length.2] at hlength
  cases hlength

theorem contents_small {content : FileStore.Bytes} {n : ℕ} (h : content.length = n) (hn : n ≤ 1048576) :
    content.length ≤ FileStore.MAX_ARTIFACT_BYTES := h.trans_le hn

theorem runbook_verified : verifyEnvelope passageStore runbook = .ok runbookEnvelope := by
  refine verifyEnvelope_of rfl runbook_held ?_ (if_pos rfl) (if_pos rfl) rfl (by decide +kernel)
  exact contents_small contents_length.1 (by decide)

theorem passage_verified : verifyEnvelope passageStore passage = .ok passageEnvelope := by
  refine verifyEnvelope_of rfl passage_held ?_ ?_ ?_ rfl ?_
  · exact contents_small contents_length.2 (by decide)
  · exact (if_neg contents_differ).trans (if_pos rfl)
  · exact (if_neg contents_differ).trans (if_pos rfl)
  · decide +kernel

/-- The passage is accepted. -/
theorem passage_accepted : verifyRetrievalEvidence passageStore passage = .ok passageLineage := by
  have hlineage : lineageOf passageEnvelope = .ok passageLineage := by decide +kernel
  have hlink : checkLink passage passageLineage = .ok () := by decide +kernel
  exact verifyRetrieval_of_original (by simp) (by simp) passage_verified hlineage hlink (by decide) runbook_verified
    rfl rfl rfl

/-- The chain of the passage: one link, from the runbook. -/
theorem retrieval_lineage_passage : ∃ links original, Chain passageStore passage links original ∧
    links.head? = some (passage, passageLineage) ∧ Shared passage original := by
  obtain ⟨links, original, hchain, hhead, -, -, -, hshared, -⟩ :=
    retrieval_lineage passageStore passage passageLineage passage_accepted
  exact ⟨links, original, hchain, hhead, hshared _ (List.mem_of_mem_head? hhead)⟩

end PayOps.Memory.Lineage
