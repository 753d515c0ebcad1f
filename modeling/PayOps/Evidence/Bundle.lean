import PayOps.Evidence.Context

/-!
# What a context holds, and in which order

The bundle that `build_context` fills, whatever the evidence is, and the order of `_ordered`.

## What is proved

* `buildContext_census` — **every item is included or counted, once, within the bounds**; evidence
  that is repeated, foreign or not verified is refused, also if it would have been left out.

## Honest scope

What is retained does not change while a context is built.
-/

namespace PayOps.Evidence

open Orchestrator

variable [Platform] [Retention] [SourceChecks] [Rendering]

/-! ### One step of the bundle -/

/-- The text of a bundle is within the limit. -/
def Fits (limit : ℕ) (bundle : ReasoningContext) : Prop :=
  (Json.dumps .record (dumpContext bundle)).length ≤ limit

/-- The facts of an entry are complete, or marked as omitted. -/
def Faithful (factsFor : EvidenceItem → JsonObject) (e : ContextEntry) : Prop :=
  (e.facts = some (factsFor e.evidence) ∧ e.factsOmitted = false) ∨
    (e.facts = none ∧ e.factsOmitted = true)

/-- What holds of a bundle of `total` items after each step. -/
structure Census (factsFor : EvidenceItem → JsonObject) (maxItems limit total : ℕ)
    (bundle : ReasoningContext) : Prop where
  /-- The text is within its limit. -/
  fits : Fits limit bundle
  /-- There are not too many entries. -/
  items : bundle.entries.length ≤ maxItems
  /-- Every item is an entry, or counted. -/
  count : bundle.entries.length + bundle.omittedCount = total
  /-- The facts are complete or marked. -/
  faithful : ∀ e ∈ bundle.entries, Faithful factsFor e

omit [Retention] [SourceChecks] in
/-- An item is appended in one of two forms that fit, or it is left out. -/
theorem appendEntry_cases (bundle : ReasoningContext) (entry : ContextEntry) (limit : ℕ) :
    appendEntry bundle entry limit = bundle ∨
      ∃ candidate, (candidate = entry ∨ candidate = ⟨entry.evidence, none, true⟩) ∧
        appendEntry bundle entry limit = ⟨bundle.entries ++ [candidate], bundle.omittedCount - 1⟩ ∧
        Fits limit (appendEntry bundle entry limit) := by
  unfold appendEntry
  dsimp only
  split_ifs with hwhole hbare
  · exact .inr ⟨_, .inl rfl, rfl, by simpa [Fits] using hwhole⟩
  · exact .inr ⟨_, .inr rfl, rfl, by simpa [Fits] using hbare⟩
  · exact .inl rfl

variable {factsFor : EvidenceItem → JsonObject} {maxItems limit total : ℕ}

omit [Retention] [SourceChecks] in
/-- A step keeps the census, and leaves at most one item fewer to be counted. -/
theorem Census.append {bundle : ReasoningContext} (h : Census factsFor maxItems limit total bundle)
    (hroom : bundle.entries.length < maxItems) (hleft : 0 < bundle.omittedCount) (item : EvidenceItem) :
    Census factsFor maxItems limit total (appendEntry bundle ⟨item, some (factsFor item), false⟩ limit) ∧
      bundle.omittedCount ≤
        (appendEntry bundle ⟨item, some (factsFor item), false⟩ limit).omittedCount + 1 := by
  rcases appendEntry_cases bundle ⟨item, some (factsFor item), false⟩ limit with
    hsame | ⟨candidate, hcandidate, happended, hfits⟩
  · rw [hsame]
    exact ⟨h, by omega⟩
  · have hfaithful : Faithful factsFor candidate := by
      rcases hcandidate with rfl | rfl
      · exact .inl ⟨rfl, rfl⟩
      · exact .inr ⟨rfl, rfl⟩
    have hcount := h.count
    rw [happended] at hfits ⊢
    refine ⟨⟨hfits, ?_, ?_, ?_⟩, ?_⟩
    · simp only [List.length_append, List.length_singleton]
      omega
    · simp only [List.length_append, List.length_singleton]
      omega
    · intro e he
      rcases List.mem_append.mp he with hold | hnew
      · exact h.faithful e hold
      · rw [List.mem_singleton.mp hnew]
        exact hfaithful
    · show _ ≤ bundle.omittedCount - 1 + 1
      omega

omit [Retention] [SourceChecks] in
/-- The census holds after all steps: there are enough items to count. -/
theorem Census.fill (items : List EvidenceItem) {bundle : ReasoningContext}
    (h : Census factsFor maxItems limit total bundle) (hleft : items.length ≤ bundle.omittedCount) :
    Census factsFor maxItems limit total (fill factsFor maxItems limit bundle items) := by
  induction items generalizing bundle with
  | nil => exact h
  | cons item items ih =>
    rw [Evidence.fill]
    split_ifs with hfull
    · exact h
    · rw [List.length_cons] at hleft
      obtain ⟨hnext, hcount⟩ := h.append (by omega) (by omega) item
      exact ih hnext (by omega)

omit [Retention] [SourceChecks] in
/-- The entries are items in their order, each at most once. -/
theorem fill_sublist (factsFor : EvidenceItem → JsonObject) (maxItems limit : ℕ) (items : List EvidenceItem)
    (bundle : ReasoningContext) :
    ((fill factsFor maxItems limit bundle items).entries.map ContextEntry.evidence).Sublist
      (bundle.entries.map ContextEntry.evidence ++ items) := by
  induction items generalizing bundle with
  | nil => simp [fill]
  | cons item items ih =>
    rw [fill]
    split_ifs
    · exact List.sublist_append_left _ _
    · refine (ih _).trans ?_
      rcases appendEntry_cases bundle ⟨item, some (factsFor item), false⟩ limit with
        hsame | ⟨candidate, hcandidate, happended, -⟩
      · rw [hsame]
        exact (List.Sublist.refl _).append (List.sublist_cons_self _ _)
      · have hitem : candidate.evidence = item := by
          rcases hcandidate with rfl | rfl <;> rfl
        rw [happended, List.map_append, List.map_singleton, hitem, List.append_assoc]
        exact List.Sublist.refl _

omit [Retention] [SourceChecks] in
/-- A bundle without entries has room in every context. -/
theorem fits_empty {total limit : ℕ} (htotal : total ≤ 256) (hlimit : 128 ≤ limit) : Fits limit ⟨[], total⟩ := by
  have hdigits : (toString (total : ℤ)).toList.length ≤ 3 := by
    show (Nat.repr total).toList.length ≤ 3
    rw [String.length_toList]
    exact Nat.repr_length total 3 (by omega) (by omega)
  have hquotes : (Json.quote false "treatment").length = 11 ∧
      (Json.quote false "untrusted_evidence_data").length = 25 ∧
      (Json.quote false "entries").length = 9 ∧ (Json.quote false "omitted_count").length = 15 := by
    decide +kernel
  obtain ⟨htreatment, hdata, hentries, homitted⟩ := hquotes
  have hitem : Json.Style.record.item.toList = [','] := rfl
  have hkey : Json.Style.record.key.toList = [':'] := rfl
  have hescape : Json.Style.record.ensureAscii = false := rfl
  have horder (items : List (String × List Char)) : Json.Style.record.order items = items := rfl
  unfold Fits dumpContext
  simp only [List.map_nil, Json.dumps, Json.dumpsFields, Json.dumpsItems, horder, hitem, hkey, hescape,
    List.map_cons, List.intercalate_cons_cons, List.intercalate_singleton, List.intercalate_nil]
  simp only [List.length_append, List.length_cons, List.length_nil, htreatment, hdata, hentries, homitted]
  omega

omit [Retention] [SourceChecks] [Rendering] in
theorem ordered_perm {evidence : List EvidenceItem} {recent : Bool} {preferred signaled : List Identifier} :
    (ordered evidence recent preferred signaled).Perm evidence := by
  unfold ordered
  split_ifs
  · refine ((List.perm_insertionSort _ _).map Prod.snd).trans ?_
    rw [depths_snd]
    exact List.perm_insertionSort _ _
  · exact List.perm_insertionSort _ _

/-! ### What is read for a context -/

section Readings

variable {held : Digest → Option Artifact}

omit [Rendering] in
theorem verifyAll_eval {incidentId : Identifier} {items : List EvidenceItem} :
    (verifyAll incidentId items).eval held = .ok () ↔
      ∀ item ∈ items, item.incidentId = incidentId ∧ (verifyEvidence item).eval held = .ok () := by
  induction items with
  | nil => simp [verifyAll, Reading.eval]
  | cons item items ih =>
    rw [List.forall_mem_cons, ← ih, verifyAll]
    by_cases hown : item.incidentId = incidentId
    · cases hverified : (verifyEvidence item).eval held with
      | ok u => simp [hown, hverified, Except.bind]
      | error x => simp [hown, hverified, Except.bind]
    · simp [hown, Reading.bind, Reading.eval]

omit [Rendering] in
theorem allFacts_eval {structured : Bool} {items : List EvidenceItem} {facts : List (EvidenceItem × JsonObject)} :
    (allFacts structured items).eval held = .ok facts ↔
      facts.map Prod.fst = items ∧ ∀ f ∈ facts, (factsOf f.1 structured).eval held = .ok f.2 := by
  induction items generalizing facts with
  | nil => cases facts <;> simp [allFacts, Reading.eval]
  | cons item items ih =>
    simp only [allFacts, Reading.bind_eq, Reading.eval_bind]
    constructor
    · intro h
      cases hfacts : (factsOf item structured).eval held with
      | error x => rw [hfacts] at h; cases h
      | ok value =>
      cases hrest : (allFacts structured items).eval held with
      | error x => rw [hfacts, hrest] at h; cases h
      | ok rest =>
        rw [hfacts, hrest] at h
        cases h
        obtain ⟨hitems, hall⟩ := ih.mp hrest
        exact ⟨by rw [List.map_cons, hitems], List.forall_mem_cons.mpr ⟨hfacts, hall⟩⟩
    · rintro ⟨hitems, hall⟩
      cases facts with
      | nil => cases hitems
      | cons f facts =>
        obtain ⟨rfl, hrest⟩ := List.cons.inj hitems
        obtain ⟨hf, hall⟩ := List.forall_mem_cons.mp hall
        rw [hf, ih.mpr ⟨hrest, hall⟩]
        rfl

omit [Rendering] [Retention] [SourceChecks] [Platform] in
theorem lookupFacts_eq [Platform] {facts : List (EvidenceItem × JsonObject)}
    (hids : ((facts.map Prod.fst).map EvidenceItem.evidenceId).Nodup) {f : EvidenceItem × JsonObject}
    (hf : f ∈ facts) : lookupFacts facts f.1 = f.2 := by
  induction facts with
  | nil => cases hf
  | cons g facts ih =>
    obtain ⟨hfresh, hids⟩ := List.nodup_cons.mp hids
    rcases List.mem_cons.mp hf with rfl | hf
    · simp [lookupFacts]
    · have hother : g.1.evidenceId ≠ f.1.evidenceId := fun heq =>
        hfresh (heq ▸ List.mem_map_of_mem (List.mem_map_of_mem hf))
      have hbeq : (g.1.evidenceId == f.1.evidenceId) = false := beq_false_of_ne hother
      rw [lookupFacts, List.find?_cons, hbeq]
      exact ih hids hf

/-- **When a context is built**: the bounds are met, the evidence is distinct and verified, and its facts and
what they support are read. -/
theorem buildContext_eval {evidence : List EvidenceItem} {incidentId : Identifier} {b : ContextBudget}
    {bundle : ReasoningContext} : (buildContext evidence incidentId b).eval held = .ok bundle ↔
      (128 ≤ b.maxCharacters ∧ b.maxCharacters ≤ 24000 ∧ b.maxItems ≤ 64 ∧ evidence.length ≤ 256) ∧
      (evidence.map EvidenceItem.evidenceId).Nodup ∧ (verifyAll incidentId evidence).eval held = .ok () ∧
      ∃ facts signaled, (allFacts b.recentFirst evidence).eval held = .ok facts ∧
        signaledIds b.recentFirst facts = .ok signaled ∧
        bundle = fill (lookupFacts facts) b.maxItems b.maxCharacters ⟨[], evidence.length⟩
          (ordered evidence b.recentFirst b.preferredIds signaled) := by
  unfold buildContext
  dsimp only
  by_cases hbounds : ¬(128 ≤ b.maxCharacters ∧ b.maxCharacters ≤ 24000) ∨ 64 < b.maxItems ∨ 256 < evidence.length
  · rw [if_pos hbounds]
    simp only [Reading.bind_eq, Reading.bind, Reading.eval, reduceCtorEq, false_iff]
    rintro ⟨⟨hlow, hhigh, hitems, hlength⟩, -⟩
    omega
  rw [if_neg hbounds]
  by_cases hids : (evidence.map EvidenceItem.evidenceId).Nodup
  · rw [if_neg (not_not_intro hids)]
    have hmet : 128 ≤ b.maxCharacters ∧ b.maxCharacters ≤ 24000 ∧ b.maxItems ≤ 64 ∧ evidence.length ≤ 256 := by
      omega
    simp only [hmet, hids, and_self, true_and, Reading.bind_eq, Reading.eval_bind]
    cases (verifyAll incidentId evidence).eval held with
    | error x => simp [Except.bind]
    | ok u =>
    cases (allFacts b.recentFirst evidence).eval held with
    | error x => simp [Except.bind]
    | ok facts =>
      simp only [Except.bind]
      cases hsignals : signaledIds b.recentFirst facts with
      | error x => simp [Reading.eval, hsignals]
      | ok signaled => simp [Reading.eval, hsignals, eq_comm]
  · rw [if_pos hids]
    simp [Reading.bind, Reading.eval, hids]

/-- **Every item is included or counted, and none is skipped by the checks.** A bundle is within its bounds,
and each of its entries is an item with all of its verified facts or with none; repeated, foreign and
unverified evidence is refused. -/
theorem buildContext_census (evidence : List EvidenceItem) (incidentId : Identifier) (b : ContextBudget)
    (held : Digest → Option Artifact) :
    (∀ bundle, (buildContext evidence incidentId b).eval held = .ok bundle →
      (Json.dumps .record (dumpContext bundle)).length ≤ b.maxCharacters ∧
      bundle.entries.length ≤ b.maxItems ∧
      bundle.entries.length + bundle.omittedCount = evidence.length ∧
      (bundle.entries.map ContextEntry.evidence).Nodup ∧
      ∀ e ∈ bundle.entries, e.evidence ∈ evidence ∧
        ((∃ facts, e.facts = some facts ∧ e.factsOmitted = false ∧
            (verifyEvidence e.evidence).eval held = .ok () ∧
            (factsOf e.evidence b.recentFirst).eval held = .ok facts) ∨
          (e.facts = none ∧ e.factsOmitted = true))) ∧
    ((¬(evidence.map EvidenceItem.evidenceId).Nodup ∨ ∃ item ∈ evidence, item.incidentId ≠ incidentId ∨
        ∃ x, (verifyEvidence item).eval held = .error x) →
      ∃ x, (buildContext evidence incidentId b).eval held = .error x) := by
  constructor
  · intro bundle hbuilt
    obtain ⟨⟨hlow, -, -, htotal⟩, hids, hverified, facts, signaled, hfacts, -, rfl⟩ :=
      buildContext_eval.mp hbuilt
    obtain ⟨hitems, hread⟩ := allFacts_eval.mp hfacts
    have hordered : (ordered evidence b.recentFirst b.preferredIds signaled).Perm evidence := ordered_perm
    have hempty : Census (lookupFacts facts) b.maxItems b.maxCharacters evidence.length ⟨[], evidence.length⟩ :=
      ⟨fits_empty htotal hlow, Nat.zero_le _, Nat.zero_add _, by simp⟩
    have hcensus := hempty.fill (ordered evidence b.recentFirst b.preferredIds signaled)
      (le_of_eq hordered.length_eq)
    have hsublist := fill_sublist (lookupFacts facts) b.maxItems b.maxCharacters
      (ordered evidence b.recentFirst b.preferredIds signaled) ⟨[], evidence.length⟩
    rw [List.map_nil, List.nil_append] at hsublist
    refine ⟨hcensus.fits, hcensus.items, hcensus.count, ?_, fun e he => ?_⟩
    · exact (hordered.nodup_iff.mpr (List.Nodup.of_map _ hids)).sublist hsublist
    · have hmem : e.evidence ∈ evidence := hordered.subset (hsublist.subset (List.mem_map_of_mem he))
      refine ⟨hmem, ?_⟩
      rcases hcensus.faithful e he with ⟨hwhole, hkept⟩ | homitted
      · rw [← hitems] at hmem hids
        obtain ⟨f, hf, hitem⟩ := List.mem_map.mp hmem
        refine .inl ⟨_, hwhole, hkept, ?_, ?_⟩
        · exact (verifyAll_eval.mp hverified _ (hordered.subset (hsublist.subset (List.mem_map_of_mem he)))).2
        · rw [← hitem, lookupFacts_eq hids hf]
          exact hread f hf
      · exact .inr homitted
  · intro hfaulty
    cases hbuilt : (buildContext evidence incidentId b).eval held with
    | error x => exact ⟨x, rfl⟩
    | ok bundle =>
      obtain ⟨-, hids, hverified, -⟩ := buildContext_eval.mp hbuilt
      rcases hfaulty with hrepeated | ⟨item, hitem, hforeign | ⟨x, hx⟩⟩
      · exact absurd hids hrepeated
      · exact absurd (verifyAll_eval.mp hverified item hitem).1 hforeign
      · have hok := (verifyAll_eval.mp hverified item hitem).2
        rw [hx] at hok
        cases hok

end Readings

end PayOps.Evidence

namespace PayOps.Evidence

open Orchestrator

/-! ### A context of two items -/

section Samples

/-- A platform whose words are those of ASCII. -/
@[reducible] def bundlePlatform : Platform where
  sha256 _ := "1"
  patternWord _ := false
  reWord _ := false
  nesting := 100
  floatRepr text := text

attribute [local instance] bundlePlatform

/-- The digest of the first artifact. -/
def deploymentDigest : Digest := ⟨"00000000000000000000000000000000000000000000000000000000000000d1", by decide⟩

/-- The digest of the second one. -/
def logDigest : Digest := ⟨"00000000000000000000000000000000000000000000000000000000000000d2", by decide⟩

/-- The rollout of the payments. -/
def deploymentItem : EvidenceItem where
  evidenceId := ⟨"rollout", by decide⟩
  incidentId := ⟨"inc-38", by decide⟩
  source := .deployment
  observedAt := seconds 20
  collectedAt := seconds 21
  query := ⟨"get deployment", by decide⟩
  resource := ⟨"payments-api", by decide⟩
  artifactUri := ⟨"sha256://00000000000000000000000000000000000000000000000000000000000000d1", by decide⟩
  artifactSha256 := deploymentDigest
  summary := ⟨"1 replica", by decide⟩

/-- Their log. -/
def logItem : EvidenceItem where
  evidenceId := ⟨"lines", by decide⟩
  incidentId := deploymentItem.incidentId
  source := .log
  observedAt := seconds 25
  collectedAt := seconds 26
  query := ⟨"logs", by decide⟩
  resource := deploymentItem.resource
  artifactUri := ⟨"sha256://00000000000000000000000000000000000000000000000000000000000000d2", by decide⟩
  artifactSha256 := logDigest
  summary := ⟨"no lines", by decide⟩

/-- A retention that names the two artifacts. -/
@[reducible] def bundleRetention : Retention where
  digest
    | .envelope metadata _ => if metadata.source = .log then logDigest else deploymentDigest
    | _ => deploymentDigest
  bytes _ := 1

/-- Items are rendered by their names. -/
@[reducible] def bundleRendering : Rendering where
  incident _ := .null
  evidence item := [("evidence_id", .str item.evidenceId.val)]
  decisionSchema := "schema"
  requestSchema := .null

/-- Sources that verify. -/
@[reducible] def bundleChecks : SourceChecks where
  paymentWindow _ := .done []
  traceSpan _ := .done []
  traceLog _ := .done ()
  retrieval _ := .done []
  supportIndex _ := .ok []

/-- What is retained. -/
def heldItems (digest : Digest) : Option Artifact :=
  if digest = deploymentDigest then some (.envelope deploymentItem.metadata [("payload", .obj [("replicas", .int 1)])])
  else if digest = logDigest then some (.envelope logItem.metadata [("payload", .obj [("lines", .str "")])])
  else none

attribute [local instance] bundleRetention bundleRendering bundleChecks

/-- Both items are included in 230 characters, and the facts of one are omitted. -/
theorem buildContext_both : ∃ bundle,
    (buildContext [logItem, deploymentItem] deploymentItem.incidentId { maxCharacters := 230 }).eval heldItems =
      .ok bundle ∧ bundle.entries.map ContextEntry.factsOmitted = [false, true] ∧
    bundle.entries.length + bundle.omittedCount = 2 ∧
    (Json.dumps .record (dumpContext bundle)).length ≤ 230 := by
  have hbuilt : (match (buildContext [logItem, deploymentItem] deploymentItem.incidentId
      { maxCharacters := 230 }).eval heldItems with
    | .ok bundle => bundle.entries.map ContextEntry.factsOmitted == [false, true]
    | .error _ => false) = true := by decide +kernel
  split at hbuilt
  · rename_i bundle hbundle
    obtain ⟨hlength, -, hcount, -⟩ := (buildContext_census _ _ _ heldItems).1 bundle hbundle
    exact ⟨bundle, hbundle, beq_iff_eq.mp hbuilt, hcount, hlength⟩
  · cases hbuilt

end Samples

end PayOps.Evidence
