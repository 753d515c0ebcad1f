import PayOps.Orchestrator.LoopReport
import PayOps.Evidence.Diagnostics

/-!
# What a local model may report

`LoopSession.supports` and `LoopSession.supported` of `payops.orchestrator.loop`, with the diagnostic predicates
of the source.

## What is proved

* `supported_ok` — a published hypothesis has its citations in the index, and none against it.
* `supports_ok` — what the index says is said by the facts of an included entry alone.
* `local_support` — **what a local model reports is supported by predicates**.
-/

namespace PayOps.Orchestrator

open Evidence Evidence.Diagnosis
open Evidence.Payment (Floats)

variable [Platform] [Numerals] [Floats] [Characters]

/-- `supports`, with the predicates of the source. -/
def supportsFor (checks : SourceChecks) (context : ReasoningContext) : Except Fault Support :=
  @LoopSession.supports _ (checks.diagnosed diagnostics) context

/-- `supported`, with the predicates of the source. -/
def supportedFor (checks : SourceChecks) (L : ReasoningLoop) (decision : ReasoningDecision)
    (context : ReasoningContext) : Except Fault (List RootCauseHypothesis) :=
  @LoopSession.supported _ (checks.diagnosed diagnostics) L decision context

section Supported

variable {checks : SourceChecks} {L : ReasoningLoop} {decision : ReasoningDecision} {context : ReasoningContext}
  {values : List RootCauseHypothesis}

omit [Numerals] [Floats] [Characters] in
theorem hypotheses_cited {value : RootCauseHypothesis} (h : hypotheses decision = .ok values) (hv : value ∈ values) :
    value.supportingEvidenceIds ≠ [] := by
  unfold hypotheses at h
  split_ifs at h
  split at h
  · rename_i found hfound
    cases h
    obtain ⟨cause, -, hcause⟩ := (mapM_hypothesis hfound).2 value hv
    have hcited := cause.supported.1
    rw [(RankedCause.hypothesis_eq_some hcause).2.1]
    rintro hnone
    rw [hnone] at hcited
    exact absurd hcited (by simp)
  · cases h

/-- **A published hypothesis** has all its citations in the index, at least one, and none against it. -/
theorem supported_ok (hlocal : L.isLocal = true) (h : supportedFor checks L decision context = .ok values) :
    ∃ index, supportsFor checks context = .ok index ∧ ∀ value ∈ values,
      value.refutingEvidenceIds = [] ∧ value.supportingEvidenceIds ≠ [] ∧
        ∀ i ∈ value.supportingEvidenceIds,
          i ∈ ((index.find? fun x => x.1 == value.causeCode.val).map Prod.snd).getD [] := by
  unfold supportedFor LoopSession.supported at h
  obtain ⟨found, hfound, h⟩ := bind_eq_ok.mp h
  rw [if_pos hlocal] at h
  obtain ⟨index, hindex, h⟩ := bind_eq_ok.mp h
  cases h
  refine ⟨index, hindex, fun value hv => ?_⟩
  obtain ⟨hmem, hkept⟩ := List.mem_filter.mp hv
  obtain ⟨hcited, hrefuting⟩ := of_decide_eq_true hkept
  exact ⟨hrefuting, hypotheses_cited hfound hmem, hcited⟩

/-- An included entry whose facts are complete, and which is not a passage that was retrieved. -/
def Included (context : ReasoningContext) (e : ContextEntry) : Prop :=
  e ∈ context.entries ∧ e.factsOmitted = false ∧ e.evidence.source ≠ .runbook ∧ e.evidence.source ≠ .memory

omit [Numerals] [Floats] [Characters] in
/-- The observations of the index are the included entries. -/
theorem mem_observations {o : Identifier × Identifier × JsonObject} :
    o ∈ (context.entries.filterMap fun e =>
      if !e.factsOmitted && !retrieved e.evidence.source then
        some (e.evidence.evidenceId, e.evidence.resource, e.facts.getD [])
      else none) ↔
      ∃ e, Included context e ∧ o = (e.evidence.evidenceId, e.evidence.resource, e.facts.getD []) := by
  rw [List.mem_filterMap]
  refine exists_congr fun e => ?_
  rw [Option.ite_none_right_eq_some, Option.some_inj, eq_comm (a := o)]
  simp [Included, retrieved, and_assoc]

/-- An entry without facts supports nothing. -/
theorem facts_of_supports {identifier resource : Identifier} {facts : Option JsonObject} {cause : String}
    (h : Supports diagnostics (identifier, resource, facts.getD []) cause) :
    ∃ found, facts = some found ∧ Satisfies found resource cause := by
  cases facts with
  | none =>
    obtain ⟨causes, hcauses, hmem⟩ := h
    have hempty := causes_empty resource
    obtain rfl := Except.ok.inj (hempty.symm.trans hcauses)
    cases hmem
  | some found => exact ⟨found, rfl, satisfies_of_supports h⟩

/-- **What a local model may report is supported by predicates.** Every hypothesis that is published has nothing
against it, and the facts of each item it cites satisfy a predicate for its cause by themselves; and the shared
symptom of the memory causes is not published where an included item supports a specific one. -/
theorem local_support (checks : SourceChecks) :
    (∀ (L : ReasoningLoop) decision context values, L.isLocal = true →
      supportedFor checks L decision context = .ok values → ∀ value ∈ values,
        value.refutingEvidenceIds = [] ∧ ∀ i ∈ value.supportingEvidenceIds,
          ∃ e facts, Included context e ∧ e.evidence.evidenceId = i ∧ e.facts = some facts ∧
            Satisfies facts e.evidence.resource value.causeCode.val) ∧
      ∀ (L : ReasoningLoop) decision context values, L.isLocal = true →
        supportedFor checks L decision context = .ok values →
        (∃ e facts cause, Included context e ∧ e.facts = some facts ∧
          (cause = "MEMORY_LEAK" ∨ cause = "CONCURRENCY_MEMORY_PRESSURE") ∧
          Satisfies facts e.evidence.resource cause) →
        ∀ value ∈ values, value.causeCode.val ≠ "MEMORY_LIMIT_BELOW_WORKING_SET" := by
  refine ⟨fun L decision context values hlocal h value hv => ?_, ?_⟩
  · obtain ⟨index, hindex, hvalues⟩ := supported_ok hlocal h
    obtain ⟨hrefuting, -, hcited⟩ := hvalues value hv
    refine ⟨hrefuting, fun i hi => ?_⟩
    obtain ⟨⟨o, ho, rfl, hsupports⟩, -⟩ := supportIndex_ok hindex (hcited i hi)
    obtain ⟨e, he, rfl⟩ := mem_observations.mp ho
    obtain ⟨facts, hfacts, hsatisfies⟩ := facts_of_supports hsupports
    exact ⟨e, facts, he, rfl, hfacts, hsatisfies⟩
  · rintro L decision context values hlocal h ⟨e, facts, cause, he, hfacts, hcause, hsatisfies⟩ value hv hlimit
    obtain ⟨index, hindex, hvalues⟩ := supported_ok hlocal h
    obtain ⟨-, hsome, hcited⟩ := hvalues value hv
    obtain ⟨i, hi⟩ := List.exists_mem_of_ne_nil _ hsome
    have ho := mem_observations.mpr ⟨e, he, rfl⟩
    obtain ⟨causes, hcauses⟩ := supportIndex_read hindex _ ho
    have hmem : cause ∈ causes := by
      simp only [hfacts, Option.getD_some] at hcauses
      exact (causes_ok hcauses cause).mpr hsatisfies
    refine (supportIndex_ok hindex (hcited i hi)).2 hlimit ⟨_, ho, cause, ⟨causes, hcauses, hmem⟩, ?_⟩
    rcases hcause with rfl | rfl <;> rfl

end Supported

end PayOps.Orchestrator
