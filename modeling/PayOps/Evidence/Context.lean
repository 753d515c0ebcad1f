import PayOps.Evidence.Artifacts
import PayOps.Evidence.LogContext

/-!
# The context of a turn

`build_context` of `payops.evidence.context`: every item is verified, also one that is dropped;
then items are taken in a fixed order, with their facts, without them, or not at all, as the
bound on the text allows.

## The model

`Rendering` gives the JSON that pydantic makes of an incident and of an item of evidence, and the
schemas it derives from contracts. Sorting by a key is stable, as Python's is.

## What is proved

* `fill_entries` — the facts of an entry are those of its item, or omitted.
-/

namespace PayOps.Evidence

open Orchestrator

variable [Platform] [Retention] [SourceChecks]

/-- What pydantic makes of contracts and of their classes. -/
class Rendering where
  /-- `incident.model_dump(mode="json")`. -/
  incident : Incident → Json
  /-- `item.model_dump(mode="json")`. -/
  evidence : EvidenceItem → JsonObject
  /-- `json.dumps(ReasoningDecision.model_json_schema(), separators=(",", ":"))`. -/
  decisionSchema : String
  /-- `ReadRequest.model_json_schema()`. -/
  requestSchema : Json

/-! ### Facts -/

/-- The payload of an envelope has to be a mapping. -/
def payloadOf (fields : JsonObject) : Reading JsonObject :=
  match Json.field fields "payload" with
  | some (.obj payload) => .done payload
  | _ => .fail (.value "Input should be a valid dictionary")

/-- `_facts`. -/
def factsOf (item : EvidenceItem) (structuredLogs : Bool) : Reading JsonObject :=
  match item.source with
  | .payment => SourceChecks.paymentWindow item
  | .trace => SourceChecks.traceSpan item
  | .runbook => SourceChecks.retrieval item
  | .memory => SourceChecks.retrieval item
  | source => do
    let payload ← payloadOf (← ArtifactStore.verify item)
    return if source = .log ∧ structuredLogs then logContext payload else payload

/-! ### The order -/

/-- The place of a source. -/
def PRIORITY : Source → ℕ
  | .payment => 0
  | .deployment => 1
  | .kubernetes => 2
  | .prometheus => 3
  | .trace => 4
  | .log => 5
  | .runbook => 6
  | .memory => 7

/-- Guidance, as opposed to observations. -/
def retrieved (source : Source) : Bool := source == .runbook || source == .memory

/-- The sort key of an item, but for its name. -/
def recentKey (preferred signaled : List Identifier) (item : EvidenceItem) : List ℤ :=
  let flag (b : Bool) : ℤ := if b then 1 else 0
  [flag (item.evidenceId ∉ signaled), flag (item.evidenceId ∉ preferred),
    flag (retrieved item.source), -item.observedAt, PRIORITY item.source]

/-- `a` is sorted before `b`, or with it. -/
def recentLe (preferred signaled : List Identifier) (a b : EvidenceItem) : Bool :=
  let ka := recentKey preferred signaled a
  let kb := recentKey preferred signaled b
  ka < kb || (ka == kb && a.evidenceId.val ≤ b.evidenceId.val)

/-- The items with how many of their source and resource come before them. -/
def depths : List (Source × Identifier) → List EvidenceItem → List (ℕ × EvidenceItem)
  | _, [] => []
  | seen, item :: items =>
    let group := (item.source, item.resource)
    (seen.count group, item) :: depths (group :: seen) items

/-- `_ordered`: by priority, or round robin over the sources and resources. -/
def ordered (evidence : List EvidenceItem) (recent : Bool) (preferred signaled : List Identifier) :
    List EvidenceItem :=
  if recent then
    let ranked := depths [] (evidence.insertionSort fun a b => recentLe preferred signaled a b)
    (ranked.insertionSort fun a b => a.1 ≤ b.1).map Prod.snd
  else evidence.insertionSort fun a b => PRIORITY a.source ≤ PRIORITY b.source

/-! ### The text -/

variable [Rendering]

/-- An entry as JSON. -/
def dumpEntry (e : ContextEntry) : Json :=
  .obj [("evidence", .obj (Rendering.evidence e.evidence)),
    ("facts", (e.facts.map Json.obj).getD .null), ("facts_omitted", .bool e.factsOmitted)]

/-- A context as JSON. -/
def dumpContext (c : ReasoningContext) : Json :=
  .obj [("treatment", .str "untrusted_evidence_data"), ("entries", .arr (c.entries.map dumpEntry)),
    ("omitted_count", .int c.omittedCount)]

/-- `_append`: the whole entry, the entry without its facts, or nothing. -/
def appendEntry (bundle : ReasoningContext) (entry : ContextEntry) (limit : ℕ) : ReasoningContext :=
  let bare : ContextEntry := ⟨entry.evidence, none, true⟩
  let with_ (candidate : ContextEntry) : ReasoningContext :=
    ⟨bundle.entries ++ [candidate], bundle.omittedCount - 1⟩
  let fits (updated : ReasoningContext) : Bool :=
    (Json.dumps .record (dumpContext updated)).length ≤ limit
  if fits (with_ entry) then with_ entry
  else if fits (with_ bare) then with_ bare
  else bundle

/-- The items taken in their order, until there are `maxItems`. -/
def fill (factsFor : EvidenceItem → JsonObject) (maxItems limit : ℕ) (bundle : ReasoningContext) :
    List EvidenceItem → ReasoningContext
  | [] => bundle
  | item :: items =>
    if maxItems ≤ bundle.entries.length then bundle
    else fill factsFor maxItems limit
      (appendEntry bundle ⟨item, some (factsFor item), false⟩ limit) items

/-! ### The context -/

/-- The bounds of `build_context`. -/
structure ContextBudget where
  /-- `max_characters`. -/
  maxCharacters : ℕ := 24000
  /-- `max_items`. -/
  maxItems : ℕ := 64
  /-- `recent_first`. -/
  recentFirst : Bool := false
  /-- `preferred_ids`. -/
  preferredIds : List Identifier := []

/-- Every item is the incident's own and verified. -/
def verifyAll (incidentId : Identifier) : List EvidenceItem → Reading Unit
  | [] => .done ()
  | item :: items => do
    if item.incidentId ≠ incidentId then .fail (.integrity "context incident mismatch")
    verifyEvidence item
    verifyAll incidentId items

/-- The facts of every item. -/
def allFacts (structuredLogs : Bool) : List EvidenceItem → Reading (List (EvidenceItem × JsonObject))
  | [] => .done []
  | item :: items => do
    let facts ← factsOf item structuredLogs
    let rest ← allFacts structuredLogs items
    return (item, facts) :: rest

/-- `facts[item.evidence_id]`. -/
def lookupFacts (facts : List (EvidenceItem × JsonObject)) (item : EvidenceItem) : JsonObject :=
  ((facts.find? fun f => f.1.evidenceId == item.evidenceId).map Prod.snd).getD []

/-- The evidence that supports a cause. -/
def signaledIds (recentFirst : Bool) (facts : List (EvidenceItem × JsonObject)) :
    Except Fault (List Identifier) :=
  if recentFirst then
    (SourceChecks.supportIndex ((facts.filter fun f => !retrieved f.1.source).map fun f =>
      (f.1.evidenceId, f.1.resource, f.2))).map fun signals => signals.flatMap Prod.snd
  else .ok []

/-- `build_context`. -/
def buildContext (evidence : List EvidenceItem) (incidentId : Identifier) (b : ContextBudget := {}) :
    Reading ReasoningContext := do
  if ¬(128 ≤ b.maxCharacters ∧ b.maxCharacters ≤ 24000) ∨ 64 < b.maxItems ∨ 256 < evidence.length then
    .fail (.value "context budget outside bounds")
  if ¬(evidence.map EvidenceItem.evidenceId).Nodup then
    .fail (.integrity "duplicate context evidence")
  verifyAll incidentId evidence
  let facts ← allFacts b.recentFirst evidence
  match signaledIds b.recentFirst facts with
  | .error x => .fail x
  | .ok signaled =>
    return fill (lookupFacts facts) b.maxItems b.maxCharacters ⟨[], evidence.length⟩
      (ordered evidence b.recentFirst b.preferredIds signaled)

/-! ### The entries -/

omit [Retention] [SourceChecks] in
/-- **The facts of an entry** are those of its item, or omitted. -/
theorem fill_entries {factsFor : EvidenceItem → JsonObject} {maxItems limit : ℕ}
    {items : List EvidenceItem} {bundle : ReasoningContext} {e : ContextEntry}
    (h : e ∈ (fill factsFor maxItems limit bundle items).entries) :
    e ∈ bundle.entries ∨
      e.evidence ∈ items ∧ (e.facts = some (factsFor e.evidence) ∨ e.facts = none) := by
  induction items generalizing bundle with
  | nil => exact .inl h
  | cons item items ih =>
    rw [fill] at h
    split_ifs at h with hfull
    · exact .inl h
    rcases ih h with happended | ⟨hmem, hfacts⟩
    · have hcases : e ∈ bundle.entries ∨ e = ⟨item, some (factsFor item), false⟩ ∨
          e = ⟨item, none, true⟩ := by
        unfold appendEntry at happended
        dsimp only at happended
        split_ifs at happended
        · simpa [or_assoc] using (List.mem_append.mp happended).imp_right
            (fun hx => Or.inl (b := e = ⟨item, none, true⟩) (List.mem_singleton.mp hx))
        · simpa [or_assoc] using (List.mem_append.mp happended).imp_right
            (fun hx => Or.inr (a := e = ⟨item, some (factsFor item), false⟩) (List.mem_singleton.mp hx))
        · exact .inl happended
      rcases hcases with hold | rfl | rfl
      · exact .inl hold
      · exact .inr ⟨List.mem_cons_self, .inl rfl⟩
      · exact .inr ⟨List.mem_cons_self, .inr rfl⟩
    · exact .inr ⟨List.mem_cons_of_mem _ hmem, hfacts⟩

omit [Retention] [SourceChecks] [Rendering] in
theorem depths_snd (seen : List (Source × Identifier)) (items : List EvidenceItem) :
    (depths seen items).map Prod.snd = items := by
  induction items generalizing seen with
  | nil => rfl
  | cons item items ih => rw [depths, List.map_cons, ih]

omit [Retention] [SourceChecks] [Rendering] in
theorem mem_ordered {evidence : List EvidenceItem} {recent : Bool} {preferred signaled : List Identifier}
    {item : EvidenceItem} : item ∈ ordered evidence recent preferred signaled ↔ item ∈ evidence := by
  unfold ordered
  split_ifs
  · rw [((List.perm_insertionSort _ _).map Prod.snd).mem_iff, depths_snd,
      (List.perm_insertionSort _ _).mem_iff]
  · exact (List.perm_insertionSort _ _).mem_iff

/-- **What is included is evidence.** -/
theorem buildContext_returns (evidence : List EvidenceItem) (incidentId : Identifier)
    (b : ContextBudget) : (buildContext evidence incidentId b).Returns fun context =>
      ∀ e ∈ context.entries, e.evidence ∈ evidence := by
  have main : (do
      verifyAll incidentId evidence
      let facts ← allFacts b.recentFirst evidence
      match signaledIds b.recentFirst facts with
      | .error x => Reading.fail x
      | .ok signaled =>
        return fill (lookupFacts facts) b.maxItems b.maxCharacters ⟨[], evidence.length⟩
          (ordered evidence b.recentFirst b.preferredIds signaled)).Returns
        fun context : ReasoningContext => ∀ e ∈ context.entries, e.evidence ∈ evidence := by
    refine (Reading.returns_true _).bind fun _ _ => (Reading.returns_true _).bind fun facts _ => ?_
    split
    · trivial
    · intro e he
      rcases fill_entries he with hnone | ⟨hitem, -⟩
      · cases hnone
      · exact mem_ordered.mp hitem
  unfold buildContext
  dsimp only
  split_ifs <;> first | exact main | trivial

end PayOps.Evidence
