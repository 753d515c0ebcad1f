import PayOps.Orchestrator.Graph
import PayOps.Orchestrator.LoopCalls
import PayOps.Orchestrator.LoopReport
import PayOps.Process.Serial

/-!
# What a node does to the state

A node keeps the inputs of an investigation, and only takes from its allowances. What it reports of
evidence and causes is the outcome of a collection or of a ranking.

## What is proved

* `run_advances` — **a node keeps the inputs, and gives no allowance back**.
* `run_kept`, `run_rank_moves` — what they keep of evidence and causes.
-/

namespace PayOps.Orchestrator

open Process Program Evidence

variable [Platform]

/-! ### Requests -/

/-- The requests of a ranking: they reach no file but an artifact, and no checkpoint. -/
def Effect.reasons : Effect → Bool
  | selectRow _ => true
  | insertRow _ => true
  | swapRow _ _ _ => true
  | writeArtifact _ _ => true
  | readArtifact _ _ => true
  | lock _ => true
  | authority => true
  | countTokens _ _ => true
  | observe _ _ _ _ => true
  | submit _ _ => true
  | await _ _ => true
  | refresh _ => true
  | _ => false

/-- The requests that no guarantee of a restart is about. -/
def Effect.quiet : Effect → Bool
  | createAttempt _ _ => false
  | collect _ => false
  | saveCheckpoint _ _ => false
  | _ => true

theorem Effect.quiet_of_reasons (e : Effect) (h : e.reasons = true) : e.quiet = true := by
  cases e <;> first | rfl | cases h

theorem reading_quiet {α : Type} (root : String) (r : Reading α) :
    Within (fun e : Effect => e.reasons = true) (r.program root) :=
  (Reading.within_program root r).mono (by rintro e ⟨digest, rfl⟩; rfl)

variable [Rendering] [Retention] [SourceChecks]

/-- A run of the loop only reasons. -/
theorem loop_reasons (L : ReasoningLoop) (incident : Incident) (initial : List EvidenceItem) :
    Within (fun e : Effect => e.reasons = true) (L.run .live incident initial) := by
  have ledger : ∀ {ops : Identifier → Prop} (e : Effect), LedgerRequest ops e → e.reasons = true := by
    intro ops e he
    cases e <;> first | rfl | exact he.elim
  refine run_discipline L incident initial (.within ?_ ledger (fun _ _ _ _ _ => rfl) fun _ _ _ => rfl)
    fun binding => ?_
  · intro e he
    cases e <;> first | rfl | cases he
  · have hopen : Within (LedgerRequest AnyOperation)
        (BudgetLedger.openRun incident.incidentId binding L.limits) := BudgetLedger.openRun_requests ..
    exact hopen.mono ledger

/-! ### What stays, and what only grows -/

/-- `s'` has the inputs of `s`, and no allowance was given back. -/
structure Advances (s s' : InvestigationState) : Prop where
  /-- The incident. -/
  incident : s'.incident = s.incident
  /-- The allowances. -/
  budget : s'.budget = s.budget
  /-- The mode. -/
  mode : s'.mode = s.mode
  /-- The reads. -/
  collectionProfile : s'.collectionProfile = s.collectionProfile
  /-- What ranks. -/
  rankingProfile : s'.rankingProfile = s.rankingProfile
  /-- How it ranks. -/
  rankingMethod : s'.rankingMethod = s.rankingMethod
  /-- Attempts. -/
  steps : s.stepsUsed.val ≤ s'.stepsUsed.val
  /-- Reads. -/
  toolCalls : s.toolCallsReserved.val ≤ s'.toolCallsReserved.val
  /-- Commands and queries. -/
  backendReads : s.backendReadsReserved.val ≤ s'.backendReadsReserved.val

omit [Rendering] [Retention] [SourceChecks] in
theorem Advances.refl (s : InvestigationState) : Advances s s :=
  ⟨rfl, rfl, rfl, rfl, rfl, rfl, le_rfl, le_rfl, le_rfl⟩

omit [Rendering] [Retention] [SourceChecks] in
theorem Advances.trans {a b c : InvestigationState} (h : Advances a b) (h' : Advances b c) : Advances a c :=
  ⟨h'.incident.trans h.incident, h'.budget.trans h.budget, h'.mode.trans h.mode,
    h'.collectionProfile.trans h.collectionProfile, h'.rankingProfile.trans h.rankingProfile,
    h'.rankingMethod.trans h.rankingMethod, h.steps.trans h'.steps, h.toolCalls.trans h'.toolCalls,
    h.backendReads.trans h'.backendReads⟩

/-- What may be reported: evidence of the incident with distinct names, and causes that cite it. -/
structure Reportable (s : InvestigationState) : Prop where
  /-- The evidence. -/
  own : Own s.incident.incidentId s.evidence
  /-- The causes. -/
  causes : ValidCauses (s.evidence.map EvidenceItem.evidenceId) s.hypotheses

omit [Rendering] [Retention] [SourceChecks] in
/-- **What may be reported is reported.** -/
theorem reportOf_eq_ok {s : InvestigationState} {traceId : String} :
    (∃ report, reportOf s traceId = .ok report) ↔ Reportable s := by
  have hnone : citationFailure s.incident.incidentId s.evidence s.hypotheses = none ↔ Reportable s := by
    rw [citationFailure_eq_none]
    exact ⟨fun ⟨h₁, h₂, h₃⟩ => ⟨⟨h₁, h₂⟩, h₃⟩, fun ⟨⟨h₁, h₂⟩, h₃⟩ => ⟨h₁, h₂, h₃⟩⟩
  rw [← hnone]
  unfold reportOf
  split
  · rename_i message heq
    simp [heq]
  · rename_i heq
    simp [heq]

/-- What a node does to the state. -/
structure Moves (s s' : InvestigationState) : Prop where
  /-- It keeps the inputs, -/
  advances : Advances s s'
  /-- and what may be reported. -/
  reportable : Reportable s → Reportable s'

omit [Rendering] [Retention] [SourceChecks] in
theorem Moves.refl (s : InvestigationState) : Moves s s := ⟨.refl s, id⟩

omit [Rendering] [Retention] [SourceChecks] in
theorem Moves.trans {a b c : InvestigationState} (h : Moves a b) (h' : Moves b c) : Moves a c :=
  ⟨h.advances.trans h'.advances, fun hr => h'.reportable (h.reportable hr)⟩

/-- Evidence and causes stay too. -/
structure Kept (s s' : InvestigationState) : Prop where
  /-- The inputs stay, -/
  advances : Advances s s'
  /-- the evidence, -/
  evidence : s'.evidence = s.evidence
  /-- and the causes. -/
  hypotheses : s'.hypotheses = s.hypotheses

omit [Rendering] [Retention] [SourceChecks] in
theorem Kept.trans {a b c : InvestigationState} (h : Kept a b) (h' : Kept b c) : Kept a c :=
  ⟨h.advances.trans h'.advances, h'.evidence.trans h.evidence, h'.hypotheses.trans h.hypotheses⟩

omit [Rendering] [Retention] [SourceChecks] in
theorem Kept.moves {s s' : InvestigationState} (h : Kept s s') : Moves s s' := by
  refine ⟨h.advances, fun hr => ⟨?_, ?_⟩⟩
  · rw [h.advances.incident, h.evidence]
    exact hr.own
  · rw [h.evidence, h.hypotheses]
    exact hr.causes

/-! ### The operations -/

omit [Rendering] [Retention] [SourceChecks] in
theorem reserveAttempt_returns (root : String) (s : InvestigationState) (node : Node) :
    Returns (Kept s) (reserveAttempt root s node) := by
  refine returns_bind fun _ => returns_bind fun files => returns_bind fun allowed => ?_
  have more : ∀ {stepsUsed : UpTo 16} {k : ℕ}, UpTo.validate 16 k = .ok stepsUsed →
      s.stepsUsed.val ≤ k → s.stepsUsed.val ≤ stepsUsed.val :=
    fun h hk => (UpTo.validate_eq_ok.mp h).symm ▸ hk
  split_ifs
  · refine returns_bind fun now => returns_bind fun _ => returns_bind fun _ =>
      returns_ofResult_bind fun stepsUsed hsteps => ⟨⟨rfl, rfl, rfl, rfl, rfl, rfl, ?_, le_rfl, le_rfl⟩, rfl, rfl⟩
    exact more hsteps (by omega)
  · refine returns_ofResult_bind fun stepsUsed hsteps =>
      ⟨⟨rfl, rfl, rfl, rfl, rfl, rfl, ?_, le_rfl, le_rfl⟩, rfl, rfl⟩
    exact more hsteps (by omega)

omit [Rendering] [Retention] [SourceChecks] in
theorem triage_kept (s : InvestigationState) : Kept s (triage s) :=
  ⟨⟨rfl, rfl, rfl, rfl, rfl, rfl, le_rfl, le_rfl, le_rfl⟩, rfl, rfl⟩

omit [Rendering] [Retention] [SourceChecks] in
theorem reserve_kept {s s' : InvestigationState} (h : reserve s = .ok s') : Kept s s' := by
  unfold reserve at h
  dsimp only at h
  split_ifs at h
  · cases h
    exact ⟨⟨rfl, rfl, rfl, rfl, rfl, rfl, le_rfl, le_rfl, le_rfl⟩, rfl, rfl⟩
  · cases h
    exact ⟨⟨rfl, rfl, rfl, rfl, rfl, rfl, le_rfl, le_rfl, le_rfl⟩, rfl, rfl⟩
  · cases htool : UpTo.validate 40 (s.toolCallsReserved.val + 20) with
    | error x => rw [htool] at h; cases h
    | ok toolCalls =>
      cases hbackend : UpTo.validate 64 (s.backendReadsReserved.val + s.collectionProfile.backendReads) with
      | error x => rw [htool, hbackend] at h; cases h
      | ok backend =>
        rw [htool, hbackend] at h
        cases h
        refine ⟨⟨rfl, rfl, rfl, rfl, rfl, rfl, le_rfl, ?_, ?_⟩, rfl, rfl⟩
        · have := UpTo.validate_eq_ok.mp htool
          show _ ≤ toolCalls.val
          omega
        · have := UpTo.validate_eq_ok.mp hbackend
          show _ ≤ backend.val
          omega

omit [Rendering] in
theorem collected_advances (root : String) (s : InvestigationState) (result : Collection) :
    Returns (Advances s) (collected root s result) :=
  returns_raiseIf_bind fun _ => returns_bind fun _ => ⟨rfl, rfl, rfl, rfl, rfl, rfl, le_rfl, le_rfl, le_rfl⟩

omit [Rendering] [Retention] [SourceChecks] in
theorem collectionFailed_kept {s s' : InvestigationState} {x : Fault}
    (h : collectionFailed s x = .ok s') : Kept s s' := by
  unfold collectionFailed at h
  split at h
  · cases h
    exact ⟨⟨rfl, rfl, rfl, rfl, rfl, rfl, le_rfl, le_rfl, le_rfl⟩, rfl, rfl⟩
  · split_ifs at h
    cases h
    exact ⟨⟨rfl, rfl, rfl, rfl, rfl, rfl, le_rfl, le_rfl, le_rfl⟩, rfl, rfl⟩

omit [Rendering] in
theorem collection_advances (root : String) (s : InvestigationState) :
    Returns (Advances s) (collection root s) := by
  refine returns_bind fun retained => ?_
  cases retained with
  | true => exact returns_bind fun result => collected_advances root s result
  | false =>
    exact returns_bind fun _ => returns_bind fun result => returns_bind fun _ => returns_bind fun _ =>
      collected_advances root s result

omit [Rendering] in
theorem collect_advances (root : String) (s : InvestigationState) :
    Returns (Advances s) (collect root s) := by
  unfold collect
  split_ifs
  · exact ⟨rfl, rfl, rfl, rfl, rfl, rfl, le_rfl, le_rfl, le_rfl⟩
  · refine returns_bind fun _ => (collection_advances root s).tryCatch fun x => ?_
    exact returns_ofResult.mpr fun s' hs' => (collectionFailed_kept hs').advances

omit [Rendering] [Retention] [SourceChecks] in
/-- The state that the outcome of a run leaves. -/
theorem reasoned_moves {s s' : InvestigationState} {result : LoopResult} {charges : List Charge}
    (h : reasoned s result charges = .ok s') (hmode : methodOf result.mode = s.rankingMethod)
    (hreports : Own s.incident.incidentId s.evidence → Own s.incident.incidentId result.evidence ∧
      ValidCauses (result.evidence.map EvidenceItem.evidenceId) result.hypotheses) : Moves s s' := by
  unfold reasoned at h
  dsimp only at h
  cases hreceipts : validReceipts result.receiptSha256s with
  | error x => rw [hreceipts] at h; cases h
  | ok receipts =>
    rw [hreceipts] at h
    cases htool : UpTo.validate 40 (s.toolCallsReserved.val +
        ((readCharges charges).map fun x => x.requests.length).sum) with
    | error x => rw [htool] at h; cases h
    | ok toolCalls =>
      rw [htool] at h
      cases hbackend : UpTo.validate 64 (s.backendReadsReserved.val +
          ((readCharges charges).map fun x => x.backendReadCount).sum) with
      | error x => rw [hbackend] at h; cases h
      | ok backend =>
        rw [hbackend] at h
        cases h
        refine ⟨⟨rfl, rfl, rfl, rfl, rfl, hmode, le_rfl, ?_, ?_⟩, fun hr => ⟨(hreports hr.own).1, (hreports hr.own).2⟩⟩
        · have := UpTo.validate_eq_ok.mp htool
          show _ ≤ toolCalls.val
          omega
        · have := UpTo.validate_eq_ok.mp hbackend
          show _ ≤ backend.val
          omega

theorem reason_moves (root : String) (s : InvestigationState)
    (factory : InvestigationState → Except Fault ReasoningLoop) :
    Returns (Moves s) (reason root s factory) := by
  refine returns_ofResult_bind fun loop _ => returns_raiseIf_bind fun hfits => ?_
  have hreports : Returns (fun result : LoopResult => Own s.incident.incidentId s.evidence →
      Own s.incident.incidentId result.evidence ∧
        ValidCauses (result.evidence.map EvidenceItem.evidenceId) result.hypotheses)
      (loop.run .live s.incident s.evidence) := by
    by_cases hown : Own s.incident.incidentId s.evidence
    · exact (run_reports loop .live s.incident s.evidence hown).mono fun _ h _ => h
    · exact (returns_true _).mono fun _ _ h => absurd h hown
  refine ((run_mode loop .live s.incident s.evidence).and hreports).bind fun result hresult => ?_
  refine returns_raiseIf_bind fun _ => returns_bind fun record => returns_ofResult.mpr fun s' hs' => ?_
  have hmethod : methodOf loop.settings.mode = s.rankingMethod := by
    have := Bool.of_not_eq_false hfits
    unfold reasonerFits at this
    simp only [Bool.and_eq_true, beq_iff_eq] at this
    exact this.1.1.2
  exact reasoned_moves hs' (hresult.1 ▸ hmethod) hresult.2

variable [BaselineTexts]

/-- A ranking only reasons. -/
theorem rank_reasons (N : InvestigationNodes) (s : InvestigationState) :
    Within (fun e : Effect => e.reasons = true) (rank N s) := by
  refine Within.tryCatch ?_ fun x => within_ofResult _
  refine (reading_quiet _ _).bind fun _ => ?_
  cases N.reasonerFactory with
  | some factory =>
    refine (within_ofResult _).bind fun loop => within_raiseIf.bind fun _ => ?_
    refine (loop_reasons loop s.incident s.evidence).bind fun result => within_raiseIf.bind fun _ => ?_
    refine Within.bind ?_ fun _ => within_ofResult _
    refine (BudgetLedger.get_plain _).mono fun e he => ?_
    cases e <;> first | rfl | cases he
  | none => exact (reading_quiet _ _).bind fun _ => trivial

theorem ranking_moves (N : InvestigationNodes) (s : InvestigationState) :
    Returns (Moves s) (ranking N s) := by
  refine returns_bind fun _ => ?_
  cases N.reasonerFactory with
  | some factory => exact reason_moves N.root s factory
  | none =>
    refine ((Baseline.rankEvidence_valid s.evidence).program _).bind fun hypotheses hvalid => ?_
    exact ⟨⟨rfl, rfl, rfl, rfl, rfl, rfl, le_rfl, le_rfl, le_rfl⟩, fun h => ⟨h.own, hvalid⟩⟩

omit [Rendering] [Retention] [SourceChecks] [BaselineTexts] in
theorem rankingFailed_kept {N : InvestigationNodes} {s s' : InvestigationState} {x : Fault}
    (h : rankingFailed N s x = .ok s') : Kept s s' := by
  unfold rankingFailed at h
  split at h
  · cases h
    exact ⟨⟨rfl, rfl, rfl, rfl, rfl, rfl, le_rfl, le_rfl, le_rfl⟩, rfl, rfl⟩
  · cases h

theorem rank_moves (N : InvestigationNodes) (s : InvestigationState) : Returns (Moves s) (rank N s) :=
  (ranking_moves N s).tryCatch fun _ => returns_ofResult.mpr fun _ h => (rankingFailed_kept h).moves

/-! ### The nodes -/

omit [Rendering] [Retention] [SourceChecks] [BaselineTexts] in
/-- What a node does to the state, from what its attempt and its operation do. -/
theorem step_returns {root : String} {s : InvestigationState} {node : Node}
    {operation : InvestigationState → Program Host InvestigationState}
    {R : InvestigationState → Prop} (hattempt : ∀ r, Kept s r → R r)
    (hop : ∀ r, Kept s r → Returns R (operation r)) (hsteps : ∀ r steps, R r → R { r with steps := steps }) :
    Returns R (step root s node operation) := by
  refine (reserveAttempt_returns root s node).bind fun reserved hreserved => ?_
  refine Returns.bind (Q := R) ?_ fun result hresult => ?_
  · unfold operate
    split_ifs
    · exact hattempt reserved hreserved
    · exact hop reserved hreserved
  · exact returns_bind fun _ => returns_bind fun _ => hsteps result _ hresult

omit [Rendering] [Retention] [SourceChecks] [BaselineTexts] in
theorem Advances.steps_taken {s r : InvestigationState} (h : Advances s r) (steps : List StepRecord) :
    Advances s { r with steps := steps } :=
  ⟨h.incident, h.budget, h.mode, h.collectionProfile, h.rankingProfile, h.rankingMethod, h.steps,
    h.toolCalls, h.backendReads⟩

omit [Rendering] [Retention] [SourceChecks] [BaselineTexts] in
theorem step_kept {root : String} {s : InvestigationState} {node : Node}
    {operation : InvestigationState → Program Host InvestigationState}
    (h : ∀ r, Returns (Kept r) (operation r)) : Returns (Kept s) (step root s node operation) :=
  step_returns (fun _ => id) (fun r hr => (h r).mono fun _ => hr.trans)
    fun _ steps hr => ⟨hr.advances.steps_taken steps, hr.evidence, hr.hypotheses⟩

omit [Rendering] [Retention] [SourceChecks] [BaselineTexts] in
theorem finish_kept (s : InvestigationState) : Returns (Kept s) (finish s) :=
  returns_bind fun _ => returns_ofResult_bind fun _ _ =>
    ⟨⟨rfl, rfl, rfl, rfl, rfl, rfl, le_rfl, le_rfl, le_rfl⟩, rfl, rfl⟩

/-- Before the collection nothing is found, and at the end nothing more. -/
theorem run_kept (N : InvestigationNodes) {node : Node} (hnode : node ≠ .collect ∧ node ≠ .rank)
    (s : InvestigationState) : Returns (Kept s) (N.run node s) := by
  cases node with
  | triage => exact step_kept fun r => triage_kept r
  | reserve => exact step_kept fun r => returns_ofResult.mpr fun _ => reserve_kept
  | collect => exact absurd rfl hnode.1
  | rank => exact absurd rfl hnode.2
  | finish => exact finish_kept s

/-- **A ranking keeps what may be reported.** -/
theorem run_rank_moves (N : InvestigationNodes) (s : InvestigationState) :
    Returns (Moves s) (N.run .rank s) :=
  step_returns (fun _ hr => hr.moves) (fun r hr => (rank_moves N r).mono fun _ => hr.moves.trans)
    fun _ steps hr => ⟨hr.advances.steps_taken steps, fun h => ⟨(hr.reportable h).own,
      (hr.reportable h).causes⟩⟩

/-- **A node keeps the inputs, and gives no allowance back.** -/
theorem run_advances (N : InvestigationNodes) (node : Node) (s : InvestigationState) :
    Returns (Advances s) (N.run node s) := by
  by_cases hcollect : node = .collect
  · subst hcollect
    exact step_returns (fun _ hr => hr.advances)
      (fun r hr => (collect_advances N.root r).mono fun _ => hr.advances.trans)
      fun _ steps hr => hr.steps_taken steps
  by_cases hrank : node = .rank
  · subst hrank
    exact (run_rank_moves N s).mono fun _ h => h.advances
  · exact (run_kept N ⟨hcollect, hrank⟩ s).mono fun _ h => h.advances

end PayOps.Orchestrator
