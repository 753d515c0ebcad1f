import PayOps.Orchestrator.Loop

/-!
# What a run reports

Whatever the host answers, a run of the loop ends with evidence of its incident in which every item
has its own name, and with hypotheses that cite this evidence.

## What is proved

* `supported_valid` — the causes of a checked decision are valid.
* `turns_reports`, `run_reports` — **the outcome of a run may be reported**.
-/

namespace PayOps.Orchestrator

open Process Program Evidence

variable [Platform]

/-- The evidence is the incident's own, and every item has its own name. -/
structure Own (incidentId : Identifier) (evidence : List EvidenceItem) : Prop where
  /-- Distinct names. -/
  distinct : (evidence.map EvidenceItem.evidenceId).Nodup
  /-- One incident. -/
  scope : ∀ item ∈ evidence, item.incidentId = incidentId

/-- The published hypotheses are those of the ranked causes, in order. -/
theorem mapM_hypothesis {causes : List RankedCause} {values : List RootCauseHypothesis}
    (h : causes.mapM RankedCause.hypothesis = some values) :
    values.map RootCauseHypothesis.causeCode = causes.map RankedCause.causeCode ∧
      ∀ v ∈ values, ∃ c ∈ causes, RankedCause.hypothesis c = some v := by
  induction causes generalizing values with
  | nil =>
    obtain rfl : [] = values := by simpa using h
    exact ⟨rfl, by simp⟩
  | cons c causes ih =>
    rw [List.mapM_cons] at h
    obtain ⟨v, hv, hrest⟩ := Option.bind_eq_some_iff.mp h
    obtain ⟨vs, hvs, hvalues⟩ := Option.bind_eq_some_iff.mp hrest
    obtain rfl := Option.some.inj hvalues
    obtain ⟨hcodes, hof⟩ := ih hvs
    refine ⟨?_, fun w hw => ?_⟩
    · rw [List.map_cons, List.map_cons, hcodes, (RankedCause.hypothesis_eq_some hv).1]
    · rcases List.mem_cons.mp hw with rfl | hmem
      · exact ⟨c, List.mem_cons_self, hv⟩
      · obtain ⟨c', hc', heq⟩ := hof w hmem
        exact ⟨c', List.mem_cons_of_mem _ hc', heq⟩

/-- A cause that the checks accept is cited well. -/
theorem RankedCause.failure_eq_none {c : RankedCause} {ids : List Identifier} {causes : List String}
    (h : c.failure ids causes = none) : c.supportingEvidenceIds ++ c.refutingEvidenceIds ⊆ ids ∧
      ∀ i ∈ c.supportingEvidenceIds, i ∉ c.refutingEvidenceIds := by
  unfold RankedCause.failure at h
  dsimp only at h
  split_ifs at h with hresolved hconflict
  refine ⟨not_not.mp (not_or.mp hresolved).2, fun i hi hi' => (not_or.mp hconflict).1 ?_⟩
  exact List.any_eq_true.mpr ⟨i, hi, by simpa using hi'⟩

/-- The causes of a decision are distinct. -/
theorem ReasoningDecision.causes_nodup (d : ReasoningDecision) :
    (d.hypotheses.map RankedCause.causeCode).Nodup := by
  have h := d.coherent
  unfold decisionFailure at h
  by_contra hn
  split_ifs at h

/-- The causes of a decision that the checks accept are valid. -/
theorem hypotheses_valid {d : ReasoningDecision} {ids : List Identifier} {causes : List String}
    (hd : d.failure ids causes = none) {values : List RootCauseHypothesis}
    (hv : hypotheses d = .ok values) : ValidCauses ids values := by
  have hmap : d.hypotheses.mapM RankedCause.hypothesis = some values := by
    unfold hypotheses at hv
    split_ifs at hv
    split at hv
    · rename_i list heq
      rw [heq, Except.ok.inj hv]
    · cases hv
  obtain ⟨hcodes, hof⟩ := mapM_hypothesis hmap
  have hfailures : ∀ c ∈ d.hypotheses, c.failure ids causes = none := by
    unfold ReasoningDecision.failure at hd
    split_ifs at hd
    exact List.findSome?_eq_none_iff.mp hd
  have hcited : ∀ h ∈ values, h.supportingEvidenceIds ++ h.refutingEvidenceIds ⊆ ids ∧
      ∀ i ∈ h.supportingEvidenceIds, i ∉ h.refutingEvidenceIds := by
    intro h hh
    obtain ⟨c, hc, heq⟩ := hof h hh
    obtain ⟨-, hsupports, hrefutes⟩ := RankedCause.hypothesis_eq_some heq
    rw [hsupports, hrefutes]
    exact RankedCause.failure_eq_none (hfailures c hc)
  exact ⟨hcodes ▸ d.causes_nodup, fun h hh => (hcited h hh).1, fun h hh => (hcited h hh).2⟩

variable [Rendering] [Retention] [SourceChecks]

namespace LoopSession

variable (L : ReasoningLoop) (T : LoopHost) (I : Investigation)

omit [Rendering] [Retention] in
/-- **The supported causes of a checked decision are valid.** -/
theorem supported_valid {d : ReasoningDecision} {context : ReasoningContext}
    (hd : d.failure context.evidenceIds L.causes = none) {values : List RootCauseHypothesis}
    (hv : supported L d context = .ok values) : ValidCauses context.evidenceIds values := by
  unfold supported at hv
  cases hall : hypotheses d with
  | error x => rw [hall] at hv; cases hv
  | ok all =>
    have hvalid := hypotheses_valid hd hall
    rw [hall] at hv
    have hbranch : (if L.isLocal = true then (supports context).bind fun index =>
        .ok (all.filter fun value => value.supportingEvidenceIds ⊆
          ((index.find? fun x => x.1 == value.causeCode.val).map Prod.snd).getD [] ∧
            value.refutingEvidenceIds = []) else .ok all) = Except.ok values := hv
    split_ifs at hbranch
    · cases hindex : supports context with
      | error x => rw [hindex] at hbranch; cases hbranch
      | ok index =>
        rw [hindex] at hbranch
        cases hbranch
        exact hvalid.mono List.filter_sublist (fun _ => id)
    · cases hbranch
      exact hvalid

/-! ### The evidence of a session -/

/-- The session has gone on: its evidence has grown, and is the incident's own. -/
def Grows (s s' : LoopSession) : Prop :=
  Own I.incident.incidentId s'.evidence ∧ s.evidence ⊆ s'.evidence

omit [Rendering] [Retention] [SourceChecks] in
theorem receipt_returns (s : LoopSession) (operation : Identifier) :
    Returns (fun out => out.2.evidence = s.evidence) (receipt T I s operation) := by
  refine returns_bind fun digest => ?_
  cases digest <;> rfl

omit [Rendering] [SourceChecks] in
theorem restoreModel_returns (s : LoopSession) (turn : ℕ) (context : ReasoningContext)
    (charged : Charge) : Returns (fun out => out.2.evidence = s.evidence ∧ ∀ observation,
      out.1 = .ok observation → ∀ d, observation.decision = some d →
        d.failure context.evidenceIds L.causes = none) (restoreModel L T I s turn context charged) := by
  cases charged with
  | reads charge => trivial
  | model charge =>
    refine returns_bind fun prepared => returns_raiseIf_bind fun _ => ?_
    refine (receipt_returns T I s _).bind fun out hout => ?_
    obtain ⟨digest, s'⟩ := out
    cases digest with
    | error reason => exact ⟨hout, by simp⟩
    | ok digest =>
      refine returns_bind fun saved => returns_raiseIf_bind fun _ => ?_
      split
      · trivial
      · rename_i hfailure
        refine ⟨hout, fun observation hobservation d hd => ?_⟩
        cases hobservation
        simpa [hd] using hfailure

theorem model_returns (s : LoopSession) (turn : ℕ) (context : ReasoningContext) :
    Returns (fun out => out.2.evidence = s.evidence ∧ ∀ observation,
      out.1 = .ok observation → ∀ d, observation.decision = some d →
        d.failure context.evidenceIds L.causes = none) (model L T I s turn context) := by
  refine returns_bind fun record => ?_
  split
  · exact restoreModel_returns ..
  · refine returns_bind fun prepared => ?_
    cases prepared with
    | none => exact ⟨rfl, by simp⟩
    | some prepared =>
      refine returns_bind fun digest => returns_bind fun grant => ?_
      split_ifs
      · exact returns_bind fun observation => returns_bind fun _ => restoreModel_returns ..
      · exact ⟨rfl, by simp⟩

omit [Rendering] in
theorem acceptItem_returns (result : ReadResult) {evidence : List EvidenceItem} (item : EvidenceItem)
    (h : Own I.incident.incidentId evidence) : Returns (fun evidence' =>
      Own I.incident.incidentId evidence' ∧ evidence ⊆ evidence') (acceptItem L I result evidence item) := by
  refine returns_raiseIf_bind fun hscope => returns_bind fun _ => ?_
  split
  · rename_i hnew
    refine ⟨⟨?_, ?_⟩, List.subset_append_left _ _⟩
    · rw [List.map_append, List.map_singleton]
      refine List.nodup_append.mpr ⟨h.distinct, List.nodup_singleton _, fun i hi j hj heq => ?_⟩
      obtain ⟨held, hheld, rfl⟩ := List.mem_map.mp hi
      have hne := List.find?_eq_none.mp hnew held hheld
      rw [List.mem_singleton.mp hj] at heq
      exact hne (beq_iff_eq.mpr heq)
    · intro x hx
      rcases List.mem_append.mp hx with hold | hlast
      · exact h.scope x hold
      · rw [List.mem_singleton.mp hlast]
        exact not_not.mp (not_or.mp hscope).1
  · exact returns_raiseIf_bind fun _ => ⟨h, fun _ => id⟩

omit [Rendering] in
theorem acceptItems_returns (result : ReadResult) (items : List EvidenceItem)
    {evidence : List EvidenceItem} (h : Own I.incident.incidentId evidence) :
    Returns (fun evidence' => Own I.incident.incidentId evidence' ∧ evidence ⊆ evidence')
      (acceptItems L I result evidence items) := by
  induction items generalizing evidence with
  | nil => exact ⟨h, fun _ => id⟩
  | cons item items ih =>
    refine (acceptItem_returns L I result item h).bind fun evidence' h' => ?_
    exact (ih h'.1).mono fun _ hlater => ⟨hlater.1, fun _ hx => hlater.2 (h'.2 hx)⟩

omit [Rendering] in
theorem acceptResults_returns (results : List ReadResult) {m : Merged}
    (h : Own I.incident.incidentId m.evidence) : Returns (fun out =>
      Own I.incident.incidentId out.2.evidence ∧ m.evidence ⊆ out.2.evidence)
      (acceptResults L I m results) := by
  induction results generalizing m with
  | nil => exact ⟨h, fun _ => id⟩
  | cons result results ih =>
    refine returns_raiseIf_bind fun _ => ?_
    split
    · exact ⟨h, fun _ => id⟩
    · refine (acceptItems_returns L I result result.evidence h).bind fun evidence h' => ?_
      exact (ih (m := ⟨evidence, _⟩) h'.1).mono fun _ hlater => ⟨hlater.1, fun _ hx => hlater.2 (h'.2 hx)⟩

omit [Rendering] in
theorem acceptReads_returns (s : LoopSession) (results : List ReadResult)
    (h : Own I.incident.incidentId s.evidence) :
    Returns (fun out => Grows I s out.2) (acceptReads L I s results) := by
  refine (acceptResults_returns L I results (m := ⟨s.evidence, s.feedback⟩) h).bind fun out hout => ?_
  obtain ⟨outcome, merged⟩ := out
  cases outcome with
  | error reason => exact ⟨h, fun _ => id⟩
  | ok u =>
    dsimp only
    split_ifs
    · exact ⟨h, fun _ => id⟩
    · exact hout

omit [Rendering] in
theorem restoreReads_returns (s : LoopSession) (turn : ℕ) (requests : List ReadRequest)
    (h : Own I.incident.incidentId s.evidence) :
    Returns (fun out => Grows I s out.2) (restoreReads L T I s turn requests) := by
  refine (receipt_returns T I s _).bind fun out hout => ?_
  obtain ⟨digest, s'⟩ := out
  have hout : s'.evidence = s.evidence := hout
  cases digest with
  | error reason => exact ⟨hout ▸ h, fun _ hx => hout ▸ hx⟩
  | ok digest =>
    refine returns_bind fun saved => returns_raiseIf_bind fun _ => ?_
    refine (acceptReads_returns L I s' saved.results (hout ▸ h)).mono fun out hgrows => ?_
    exact ⟨hgrows.1, fun _ hx => hgrows.2 (hout ▸ hx)⟩

omit [Rendering] in
theorem reads_returns (s : LoopSession) (turn : ℕ) (requests : List ReadRequest)
    (h : Own I.incident.incidentId s.evidence) :
    Returns (fun out => Grows I s out.2) (reads L T I s turn requests) := by
  refine returns_bind fun record => ?_
  split
  · exact returns_raiseIf_bind fun _ => restoreReads_returns L T I s turn requests h
  · trivial
  · refine returns_bind fun results => ?_
    split_ifs
    · exact ⟨h, fun _ => id⟩
    · exact returns_bind fun _ => restoreReads_returns L T I s turn requests h

omit [Rendering] in
theorem requestReads_returns (s : LoopSession) (turn : ℕ) (requests : List ReadRequest)
    (h : Own I.incident.incidentId s.evidence) :
    Returns (fun out => Grows I s out.2) (requestReads L T I s turn requests) := by
  unfold requestReads
  dsimp only
  split_ifs
  · exact ⟨h, fun _ => id⟩
  · refine (reads_returns L T I s turn _ h).bind fun out hout => ?_
    obtain ⟨outcome, s'⟩ := out
    dsimp only
    split_ifs
    · exact hout
    · exact hout

theorem context_returns (s : LoopSession) : Returns (fun context : ReasoningContext =>
    context.evidenceIds ⊆ s.evidence.map EvidenceItem.evidenceId) (context L I s) := by
  refine ((buildContext_returns _ _ _).program L.store).mono fun context hcontext i hi => ?_
  obtain ⟨e, he, rfl⟩ := List.mem_map.mp hi
  exact List.mem_map_of_mem (hcontext e he)

/-! ### The turns -/

/-- How the turns end may be reported. -/
def Reports (ended : Ended) : Prop :=
  Own I.incident.incidentId ended.session.evidence ∧
    ValidCauses (ended.session.evidence.map EvidenceItem.evidenceId) ended.final

/-- **The turns end in a report.** -/
theorem turns_reports (remaining turn invalid : ℕ) (s : LoopSession)
    (h : Own I.incident.incidentId s.evidence) :
    Returns (Reports I) (turns L T I remaining turn invalid s) := by
  induction remaining generalizing turn invalid s with
  | zero => exact ⟨h, .nil _⟩
  | succ remaining ih =>
    refine returns_bind fun authority => ?_
    split
    · exact ⟨h, .nil _⟩
    refine (context_returns L I s).bind fun context hcontext => ?_
    refine (model_returns L T I s turn context).bind fun out hout => ?_
    obtain ⟨observed, s'⟩ := out
    obtain ⟨hevidence, hchecked⟩ := hout
    have hevidence : s'.evidence = s.evidence := hevidence
    have h' : Own I.incident.incidentId s'.evidence := hevidence ▸ h
    cases observed with
    | error reason => exact ⟨h', .nil _⟩
    | ok observation =>
      dsimp only
      split_ifs
      · exact ⟨h', .nil _⟩
      · exact ih _ _ _ h'
      split
      · exact ⟨h', .nil _⟩
      · trivial
      · rename_i d _ hd
        split_ifs
        · refine returns_ofResult_bind fun final hfinal => ⟨h', ?_⟩
          refine (supported_valid L (hchecked _ rfl d hd) hfinal).mono (List.Sublist.refl _) fun i hi => ?_
          exact hevidence ▸ hcontext hi
        · refine (requestReads_returns L T I s' turn d.reads h').bind fun out hgrows => ?_
          obtain ⟨outcome, s''⟩ := out
          cases outcome with
          | error reason => exact ⟨hgrows.1, .nil _⟩
          | ok u => exact ih _ _ _ hgrows.1

end LoopSession

/-- The outcome of a run has the mode of its loop. -/
theorem run_mode (L : ReasoningLoop) (T : LoopHost) (incident : Incident) (initial : List EvidenceItem) :
    Returns (fun result : LoopResult => result.mode = L.settings.mode) (L.run T incident initial) :=
  returns_bind fun _ => returns_bind fun _ => returns_bind fun _ => returns_bind fun _ =>
    returns_bind fun _ => returns_bind fun _ => returns_bind fun _ => rfl

open LoopSession in
/-- **The outcome of a run may be reported**: its evidence is the incident's own with distinct names, and
its hypotheses are valid over that evidence. -/
theorem run_reports (L : ReasoningLoop) (T : LoopHost) (incident : Incident)
    (initial : List EvidenceItem) (h : Own incident.incidentId initial) :
    Returns (fun result : LoopResult =>
      Own incident.incidentId result.evidence ∧
      ValidCauses (result.evidence.map EvidenceItem.evidenceId) result.hypotheses)
      (L.run T incident initial) := by
  refine returns_bind fun binding => returns_bind fun _ => returns_bind fun _ => returns_bind fun _ => ?_
  refine (turns_reports L T ⟨incident, binding⟩ _ 1 0 { evidence := initial } h).bind fun ended hended => ?_
  refine returns_bind fun _ => Returns.bind (Q := fun out : StopReason × List RootCauseHypothesis =>
    out.2 = [] ∨ out.2 = ended.final) ?_ fun out hout => ?_
  · unfold conclude
    split_ifs
    · refine returns_bind fun authority => ?_
      split
      · exact .inl rfl
      · exact .inr rfl
    · exact .inr rfl
  · obtain ⟨reason, final⟩ := out
    refine ⟨hended.1, ?_⟩
    rcases hout with hnil | hfinal
    · rw [show final = [] from hnil]
      exact .nil _
    · rw [show final = ended.final from hfinal]
      exact hended.2

end PayOps.Orchestrator
