import PayOps.Orchestrator.Restarts

/-!
# The read allowances of an investigation

The reads of an incident are counted twice: in the checkpoints of the graph, and as charges in the ledger.
The checkpoint gets the reads of the collection from the reserve node, and those of the reasoning from the
rank node, when `reason` returns.

## The model

`reservedReads` is what was reserved: the reads of the collection once the reserve node is saved, and the
charges in the row of the incident. A history is any `Serial` one of the calls on one incident.

## What is proved

* `call_accounting` — **every step of every call is in the guarantee** `Accounting`.
* `reads_allowed` — what was reserved is within the budget, and a finished investigation reports all of it
  unless the rank node was abandoned with reads in the ledger.
* `abandoned_reads` — a history in which it was.
-/

namespace PayOps.Orchestrator

open Process Program Evidence

section Model

variable [Platform]

/-! ### What is reserved -/

/-- A meter of reads. -/
def Meter.ofReads : Meter → Bool
  | toolCalls => true
  | backendReads => true
  | _ => false

/-- What a state has reserved. -/
def InvestigationState.counter (state : InvestigationState) : Meter → ℕ
  | .toolCalls => state.toolCallsReserved.val
  | .backendReads => state.backendReadsReserved.val
  | _ => 0

/-- What an investigation may read. -/
def InvestigationBudget.allowance (budget : InvestigationBudget) : Meter → ℕ
  | .toolCalls => budget.maxToolCalls.val
  | .backendReads => budget.maxBackendReads.val
  | _ => 0

/-- What the collection reads. -/
def CollectionProfile.reads (profile : CollectionProfile) : Meter → ℕ
  | .toolCalls => 20
  | .backendReads => profile.backendReads
  | _ => 0

/-- What the ledger has of an incident. -/
def ledgerReads (incidentId : Identifier) (s : Durable) (m : Meter) : ℕ :=
  (s.budgets incidentId.val).elim 0 fun row => total row.charges m

/-- What the reserve node reserves when it is saved: the collection comes next. -/
def passes (incidentId : Identifier) (m : Meter) : Event Host → ℕ
  | ⟨.saveCheckpoint thread cp, .ok _⟩ =>
    if thread = incidentId.val ∧ cp.next = some .collect then cp.state.collectionProfile.reads m else 0
  | _ => 0

/-- What was reserved for the collection. -/
def collectionReads (incidentId : Identifier) (h : History Host) (m : Meter) : ℕ :=
  (h.map (passes incidentId m)).sum

/-- **What was reserved for the incident.** -/
def reservedReads (incidentId : Identifier) (s : Durable) (h : History Host) (m : Meter) : ℕ :=
  collectionReads incidentId h m + ledgerReads incidentId s m

/-- The rank node was saved with this phase. -/
def ends (incidentId : Identifier) (phase : Phase) : Event Host → Bool
  | ⟨.saveCheckpoint thread cp, .ok _⟩ =>
    thread == incidentId.val && cp.next == some .finish && cp.state.phase == phase
  | _ => false

/-- A ranking returned. -/
def Ranked (incidentId : Identifier) (h : History Host) : Prop := h.any (ends incidentId .ranked) = true

/-- The rank node was saved without a ranking: its attempt was refused, or it was blocked by an
`EvidenceIntegrityError`. -/
def Abandoned (incidentId : Identifier) (h : History Host) : Prop :=
  h.any (ends incidentId .evidenceCollected) = true

/-- No read is charged in the ledger of the incident. -/
def NoReadCharge (incidentId : Identifier) (s : Durable) : Prop :=
  ∀ row, s.budgets incidentId.val = some row → ∀ c, Charge.reads c ∉ row.charges

/-! ### The guarantee -/

/-- The phase in which a node is entered. -/
def Node.entry : Node → Option Phase
  | triage => some .received
  | reserve => some .triaged
  | collect => some .readsReserved
  | rank => some .evidenceCollected
  | finish => none

/-- A state before a node: nothing is decided yet. -/
def Entered (node : Node) (state : InvestigationState) : Prop :=
  ∀ phase ∈ node.entry, state.phase = phase ∧ state.terminal = none

/-- The allowances fit in what the state leaves. -/
def Fits (state : InvestigationState) (limits : ReasoningBudget) : Prop :=
  ∀ m, m.ofReads = true → state.counter m + limits.limit m ≤ state.budget.allowance m

/-- The row of the incident is valid, and its allowances fit. -/
def RowFits (incidentId : Identifier) (state : InvestigationState) (s : Durable) : Prop :=
  ∀ row, s.budgets incidentId.val = some row → row.failure = none ∧ Fits state row.limits

/-- A phase before the ranking, in which the investigation may end. -/
def Phase.unranked : Phase → Bool
  | ranked => false
  | evidenceCollected => false
  | _ => true

/-- The counters stay. -/
def SameReads (s s' : InvestigationState) : Prop := ∀ m, s'.counter m = s.counter m

/-- What a node makes of the counters, and where it leads. -/
inductive Moved (incidentId : Identifier) (s : Durable) (old : InvestigationState) : Node → Checkpoint → Prop
  /-- The investigation ends before the ranking. -/
  | ended {node : Node} {state : InvestigationState} : node.early = true → state.phase.unranked = true →
    SameReads old state → Moved incidentId s old node ⟨state, some .finish⟩
  /-- The incident is in scope. -/
  | triaged {state : InvestigationState} : Entered .reserve state → SameReads old state →
    Moved incidentId s old .triage ⟨state, some .reserve⟩
  /-- The reads of the collection are reserved. -/
  | reserved {state : InvestigationState} : Entered .collect state →
    (∀ m, m.ofReads = true → state.counter m = old.counter m + old.collectionProfile.reads m ∧
      state.counter m ≤ old.budget.allowance m) →
    Moved incidentId s old .reserve ⟨state, some .collect⟩
  /-- The evidence is collected. -/
  | collected {state : InvestigationState} : Entered .rank state → SameReads old state →
    Moved incidentId s old .collect ⟨state, some .rank⟩
  /-- A ranking returned. -/
  | ranked {state : InvestigationState} : state.phase = .ranked →
    (∀ m, m.ofReads = true → state.counter m = old.counter m + ledgerReads incidentId s m) →
    Moved incidentId s old .rank ⟨state, some .finish⟩
  /-- No ranking returned. -/
  | abandoned {state : InvestigationState} : state.phase = .evidenceCollected → SameReads old state →
    Moved incidentId s old .rank ⟨state, some .finish⟩
  /-- The report is made. -/
  | finished {state : InvestigationState} : SameReads old state →
    Moved incidentId s old .finish ⟨state, none⟩

/-- A checkpoint of the incident is saved. -/
def saves (incidentId : Identifier) : Event Host → Bool
  | ⟨.saveCheckpoint thread _, .ok _⟩ => thread == incidentId.val
  | _ => false

/-- The checkpoint and the row of the incident stay. -/
structure Still (incidentId : Identifier) (s s' : Durable) : Prop where
  /-- The checkpoint. -/
  checkpoint : s'.checkpoints incidentId.val = s.checkpoints incidentId.val
  /-- The row. -/
  row : s'.budgets incidentId.val = s.budgets incidentId.val

/-- The guarantee of every step. -/
inductive Accounting (incidentId : Identifier) (s : Durable) : Event Host → Durable → Prop
  /-- Nothing is saved or charged. -/
  | still {ev : Event Host} {s' : Durable} : saves incidentId ev = false → Still incidentId s s' →
    Accounting incidentId s ev s'
  /-- The ledger is written, before the rank node is saved. -/
  | charged {ev : Event Host} {s' : Durable} {cp : Checkpoint} : saves incidentId ev = false →
    s.checkpoints incidentId.val = some cp → s'.checkpoints incidentId.val = some cp → cp.next = some .rank →
    cp.state.rankingMethod ≠ .deterministic → RowFits incidentId cp.state s' → Accounting incidentId s ev s'
  /-- The inputs are saved. -/
  | first {s' : Durable} {cp : Checkpoint} : s.checkpoints incidentId.val = none →
    s'.checkpoints incidentId.val = some cp → s'.budgets incidentId.val = s.budgets incidentId.val →
    cp.next = some .triage → Entered .triage cp.state → cp.state.incident.incidentId = incidentId →
    (∀ m, cp.state.counter m = 0) → Accounting incidentId s ⟨.saveCheckpoint incidentId.val cp, .ok ()⟩ s'
  /-- A node is saved. -/
  | node {s' : Durable} {old cp : Checkpoint} {node : Node} : s.checkpoints incidentId.val = some old →
    s'.checkpoints incidentId.val = some cp → s'.budgets incidentId.val = s.budgets incidentId.val →
    old.next = some node → Advances old.state cp.state → Moved incidentId s old.state node cp →
    Accounting incidentId s ⟨.saveCheckpoint incidentId.val cp, .ok ()⟩ s'

/-- What holds of the state. -/
structure Staged (incidentId : Identifier) (s : Durable) : Prop where
  /-- Without a checkpoint nothing is charged. -/
  unsaved : s.checkpoints incidentId.val = none → s.budgets incidentId.val = none
  /-- The checkpoint is of the incident, -/
  own : ∀ cp, s.checkpoints incidentId.val = some cp → cp.state.incident.incidentId = incidentId
  /-- and before its node. -/
  entered : ∀ cp node, s.checkpoints incidentId.val = some cp → cp.next = some node → Entered node cp.state
  /-- Before the ranking nothing is charged, -/
  early : ∀ cp node, s.checkpoints incidentId.val = some cp → cp.next = some node → node.early = true →
    s.budgets incidentId.val = none
  /-- nor is it where rules rank. -/
  deterministic : ∀ cp, s.checkpoints incidentId.val = some cp →
    cp.state.rankingMethod = .deterministic → s.budgets incidentId.val = none
  /-- What is charged fits. -/
  fits : ∀ cp, s.checkpoints incidentId.val = some cp → cp.next = some .rank → RowFits incidentId cp.state s

section Lemmas

variable {root : String} {incidentId : Identifier} {s s' s'' : Durable}

theorem Still.refl (s : Durable) : Still incidentId s s := ⟨rfl, rfl⟩

theorem Still.trans (h : Still incidentId s s') (h' : Still incidentId s' s'') : Still incidentId s s'' :=
  ⟨h'.checkpoint.trans h.checkpoint, h'.row.trans h.row⟩

theorem RowFits.still {state : InvestigationState} (h : RowFits incidentId state s) (hs : Still incidentId s s') :
    RowFits incidentId state s' := fun row hrow => h row (hs.row ▸ hrow)

theorem Staged.still (h : Staged incidentId s) (hs : Still incidentId s s') : Staged incidentId s' where
  unsaved hnone := hs.row ▸ h.unsaved (hs.checkpoint ▸ hnone)
  own cp hcp := h.own cp (hs.checkpoint ▸ hcp)
  entered cp node hcp := h.entered cp node (hs.checkpoint ▸ hcp)
  early cp node hcp hnext hearly := hs.row ▸ h.early cp node (hs.checkpoint ▸ hcp) hnext hearly
  deterministic cp hcp hmethod := hs.row ▸ h.deterministic cp (hs.checkpoint ▸ hcp) hmethod
  fits cp hcp hnext := (h.fits cp (hs.checkpoint ▸ hcp) hnext).still hs

/-- What a node that is saved says of its own stage. -/
theorem Moved.entered {old : InvestigationState} {node node' : Node} {cp : Checkpoint}
    (h : Moved incidentId s old node cp) (hnext : cp.next = some node') : Entered node' cp.state := by
  cases h with
  | triaged hentered _ => cases hnext; exact hentered
  | reserved hentered _ => cases hnext; exact hentered
  | collected hentered _ => cases hnext; exact hentered
  | finished _ => cases hnext
  | _ => cases hnext; exact fun phase hphase => by cases hphase

theorem Moved.early {old : InvestigationState} {node node' : Node} {cp : Checkpoint}
    (h : Moved incidentId s old node cp) (hnext : cp.next = some node')
    (hnode : node'.early = true ∨ node' = .rank) : node.early = true := by
  cases h with
  | ended hearly _ _ => exact hearly
  | triaged _ _ => rfl
  | reserved _ _ => rfl
  | collected _ _ => rfl
  | finished _ => cases hnext
  | _ => cases hnext; rcases hnode with h | h <;> cases h

/-- **The guarantee keeps the invariant.** -/
theorem Accounting.staged {ev : Event Host} (h : Accounting incidentId s ev s') (hs : Staged incidentId s) :
    Staged incidentId s' := by
  cases h with
  | still _ hstill => exact hs.still hstill
  | @charged _ _ cp _ hcp hcp' hnext hmethod hfits =>
    have huniq : ∀ cp', s'.checkpoints incidentId.val = some cp' → cp' = cp := fun cp' h =>
      Option.some.inj (h.symm.trans hcp')
    refine ⟨fun hnone => ?_, fun cp' h => ?_, fun cp' node h hn => ?_, fun cp' node h hn hearly => ?_,
      fun cp' h hdet => ?_, fun cp' h _ => ?_⟩
    · rw [hcp'] at hnone
      cases hnone
    · exact huniq cp' h ▸ hs.own cp hcp
    · obtain rfl := huniq cp' h
      exact hs.entered cp' node hcp hn
    · obtain rfl := huniq cp' h
      rw [hnext] at hn
      cases hn
      cases hearly
    · exact absurd (huniq cp' h ▸ hdet) hmethod
    · exact huniq cp' h ▸ hfits
  | @first _ cp hnone hcp' hrow hnext hentered hown hzero =>
    have huniq : ∀ cp', s'.checkpoints incidentId.val = some cp' → cp' = cp := fun cp' h =>
      Option.some.inj (h.symm.trans hcp')
    have hempty : s'.budgets incidentId.val = none := hrow ▸ hs.unsaved hnone
    refine ⟨fun _ => hempty, fun cp' h => huniq cp' h ▸ hown, fun cp' node h hn => ?_, fun _ _ _ _ _ => hempty,
      fun _ _ _ => hempty, fun cp' h hn => ?_⟩
    · obtain rfl := huniq cp' h
      rw [hnext] at hn
      cases hn
      exact hentered
    · intro row h'
      rw [hempty] at h'
      cases h'
  | @node _ old cp node hold hcp' hrow hnext hadvances hmoved =>
    have huniq : ∀ cp', s'.checkpoints incidentId.val = some cp' → cp' = cp := fun cp' h =>
      Option.some.inj (h.symm.trans hcp')
    have hearlier : ∀ node', cp.next = some node' → (node'.early = true ∨ node' = .rank) →
        s'.budgets incidentId.val = none := fun node' hn hnode =>
      hrow ▸ hs.early old node hold hnext (hmoved.early hn hnode)
    refine ⟨fun hnone => ?_, fun cp' h => ?_, fun cp' node h hn => ?_, fun cp' node h hn hearly => ?_,
      fun cp' h hdet => ?_, fun cp' h hn => ?_⟩
    · rw [hcp'] at hnone
      cases hnone
    · obtain rfl := huniq cp' h
      exact hadvances.incident ▸ hs.own old hold
    · obtain rfl := huniq cp' h
      exact hmoved.entered hn
    · obtain rfl := huniq cp' h
      exact hearlier node hn (.inl hearly)
    · obtain rfl := huniq cp' h
      exact hrow ▸ hs.deterministic old hold (hadvances.rankingMethod ▸ hdet)
    · obtain rfl := huniq cp' h
      intro row h'
      rw [hearlier .rank hn (.inr rfl)] at h'
      cases h'

/-! ### Requests -/

/-- A request that may write the ledger or a checkpoint. -/
def Effect.accounts : Effect → Bool
  | insertRow _ => true
  | swapRow _ _ _ => true
  | saveCheckpoint _ _ => true
  | _ => false

/-- A fresh row has these allowances. -/
def Effect.Opens (limits : ReasoningBudget) : Effect → Prop
  | insertRow record => record.limits = limits
  | _ => True

variable [Retention]

theorem Durable.Answer.still {e : Effect} {r : Except Fault e.Reply} (h : s.Answer e r s')
    (he : e.accounts = false) : Still incidentId s s' := by
  constructor
  · rcases h.filed.checkpoints with hsame | ⟨_, _, rfl, _⟩
    · rw [hsame]
    · cases he
  · rcases answer_budgets h with ⟨-, hsame⟩ | ⟨w, hw, -⟩
    · rw [hsame]
    · rcases writeOf_eq_some hw with ⟨_, hev, -⟩ | ⟨_, _, _, hev, -⟩
      · obtain rfl := congrArg Event.effect hev
        cases he
      · obtain rfl := congrArg Event.effect hev
        cases he

omit [Retention] in
theorem saves_of_accounts {e : Effect} {r : Except Fault e.Reply} (he : e.accounts = false) :
    saves incidentId ⟨e, r⟩ = false := by
  cases e <;> first | rfl | cases he

/-- A program that writes neither is in the guarantee. -/
theorem still_assures {α : Type} {p : Program Host α} {h : History Host}
    (hp : Within (fun e : Effect => e.accounts = false) p) :
    Assures Environment (fun _ => Accounting incidentId) p h s fun _ _ t => Still incidentId s t := by
  refine Assures.within (R := fun _ t => Still incidentId s t) hp (.refl s) fun h t e r t' hstill he ha => ?_
  have hstep : Still incidentId t t' := Durable.Answer.still ha he
  exact ⟨.still (saves_of_accounts he) hstep, hstill.trans hstep⟩

omit [Retention] in
theorem ask_accounts {e : Effect} (he : e.accounts = false) :
    Within (fun e : Effect => e.accounts = false) (ask e) := within_perform.mpr he

omit [Retention] in
theorem reading_accounts {α : Type} (root : String) (r : Reading α) :
    Within (fun e : Effect => e.accounts = false) (r.program root) :=
  (Reading.within_program root r).mono (by rintro e ⟨digest, rfl⟩; rfl)

/-! ### A run of the loop -/

variable [SourceChecks] [Rendering]

/-- A run opens its row with the allowances of the loop. -/
theorem loop_opens (L : ReasoningLoop) (incident : Incident) (initial : List EvidenceItem) :
    Within (Effect.Opens L.limits) (L.run .live incident initial) := by
  have plain : ∀ e : Effect, e.plain = true → e.Opens L.limits := by
    intro e he
    cases e <;> trivial
  have hget : ∀ runId, Within (Effect.Opens L.limits) (BudgetLedger.get runId) := fun runId =>
    (BudgetLedger.get_plain runId).mono plain
  have hreplace : ∀ expected updated, Within (Effect.Opens L.limits) (BudgetLedger.replace expected updated) := by
    intro expected updated
    refine (within_perform.mpr trivial).bind fun row => ?_
    cases row with
    | none => trivial
    | some payload =>
      exact (within_ofResult _).bind fun _ => within_raiseIf.bind fun _ => (within_perform.mpr trivial).bind
        fun _ => within_raiseIf
  have hdiscipline : Discipline incident.incidentId (LoopSession.TurnOperation 1 L.limits.modelCalls.val)
      (Within (Effect.Opens L.limits)) := by
    refine ⟨fun hp => hp.mono plain, fun hp hf => hp.bind_runs hf, ?_, ?_⟩
    · intro α β record charge act go stop _ _ hact hgo hstop
      refine Within.bind ?_ fun grant => ?_
      · unfold BudgetLedger.reserve
        split
        · exact within_raiseIf.bind fun _ => (hget _).bind fun _ => within_raiseIf.bind fun _ => trivial
        · split
          · trivial
          · exact (hreplace _ _).bind fun _ => trivial
      · split_ifs
        · refine Within.bind (hact.within.mono ?_) hgo
          rintro e (⟨prompt, ids, causes, rfl⟩ | ⟨request, rfl⟩) <;> trivial
        · exact hstop
    · intro record operation artifact _
      unfold BudgetLedger.complete
      split
      · exact within_raiseIf.bind fun _ => (hget _).bind fun _ => within_raiseIf.bind fun _ => trivial
      · exact (within_ofResult _).bind fun _ => (hreplace _ _).bind fun _ => trivial
  refine run_discipline L incident initial hdiscipline fun binding => Within.tryCatch ?_ fun fault => ?_
  · have hinsert : Within (Effect.Opens L.limits)
        (ask (.insertRow (BudgetFields.fresh incident.incidentId binding L.limits))) := within_perform.mpr rfl
    exact hinsert.bind fun _ => trivial
  · split
    · exact (hget _).bind fun _ => within_raiseIf.bind fun _ => trivial
    · trivial

omit [SourceChecks] [Rendering] in
/-- A write of the ledger leaves a row that fits. -/
theorem RowFits.step {state : InvestigationState} {limits : ReasoningBudget} {e : Effect}
    {r : Except Fault e.Reply} (h : RowFits incidentId state s) (hlimits : Fits state limits) (hledgered : Ledgered e)
    (hopens : e.Opens limits) (ha : s.Answer e r s') : RowFits incidentId state s' := by
  rcases answer_budgets ha with ⟨-, hsame⟩ | ⟨w, hw, haccepted, hnew⟩
  · intro row hrow
    exact h row (hsame ▸ hrow)
  intro row hrow
  rw [hnew] at hrow
  by_cases hkey : incidentId.val = w.key
  · rw [hkey, Function.update_self] at hrow
    obtain rfl := Option.some.inj hrow
    refine ⟨(writeOf_proper hw hledgered).valid, ?_⟩
    rcases writeOf_eq_some hw with ⟨record, hev, rfl⟩ | ⟨runId, raw, updated, hev, rfl⟩
    · obtain rfl := congrArg Event.effect hev
      have hfresh : record.limits = limits := hopens
      exact hfresh ▸ hlimits
    · obtain rfl := congrArg Event.effect hev
      have hraw : s.budgets incidentId.val = some raw := hkey ▸ haccepted
      have hgrows : raw.Extends updated := hledgered.2.2.2.extends
      exact hgrows.limits ▸ (h raw hraw).2
  · rw [Function.update_of_ne hkey] at hrow
    exact h row hrow

omit [Platform] [Retention] [SourceChecks] [Rendering] in
theorem within_and {I : Interface} {P Q : I.Effect → Prop} {α : Type} {p : Program I α} (hP : Within P p)
    (hQ : Within Q p) : Within (fun e => P e ∧ Q e) p := by
  induction p with
  | done a => trivial
  | fail x => trivial
  | call e k ih => exact ⟨⟨hP.1, hQ.1⟩, fun r => ih r (hP.2 r) (hQ.2 r)⟩

omit [Retention] [SourceChecks] [Rendering] in
theorem saves_of_reasons {e : Effect} {r : Except Fault e.Reply} (he : e.reasons = true) :
    saves incidentId ⟨e, r⟩ = false := by
  cases e <;> first | rfl | cases he

/-- The state is kept before the rank node. -/
def Ranking (incidentId : Identifier) (cp : Checkpoint) (s : Durable) : Prop :=
  Staged incidentId s ∧ s.checkpoints incidentId.val = some cp

/-- A run of the loop is in the guarantee. -/
theorem loop_assures {cp : Checkpoint} {L : ReasoningLoop} {incident : Incident} {initial : List EvidenceItem}
    {h : History Host} (hs : Ranking incidentId cp s) (hnext : cp.next = some .rank)
    (hmethod : cp.state.rankingMethod ≠ .deterministic) (hlimits : Fits cp.state L.limits) :
    Assures Environment (fun _ => Accounting incidentId) (L.run .live incident initial) h s
      fun _ _ t => Ranking incidentId cp t := by
  have hwithin := within_and (loop_reasons L incident initial)
    (within_and (run_ledgered L incident initial) (loop_opens L incident initial))
  refine Assures.within (R := fun _ t => Ranking incidentId cp t) hwithin hs fun h t e r t' hR he ha => ?_
  obtain ⟨hstaged, hcp⟩ := hR
  obtain ⟨hreasons, hledgered, hopens⟩ := he
  have hsame : t'.checkpoints incidentId.val = some cp := by
    rw [(Durable.Answer.same ha (Effect.quiet_of_reasons e hreasons)).checkpoints]
    exact hcp
  have hfits := (hstaged.fits cp hcp hnext).step hlimits hledgered hopens ha
  have hstep : Accounting incidentId t ⟨e, r⟩ t' :=
    .charged (saves_of_reasons hreasons) hcp hsame hnext hmethod hfits
  exact ⟨hstep, hstep.staged hstaged, hsame⟩

omit [SourceChecks] [Rendering] in
theorem Durable.Answer.selected {runId : String} {row : Option BudgetFields}
    (h : s.Answer (.selectRow runId) (.ok row) s') : row = s'.budgets runId := by
  obtain ⟨t, -, hreply⟩ := h.reply
  simp only [Durable.exec, reduceCtorEq, false_or, Option.some.injEq, Prod.mk.injEq, Except.ok.injEq] at hreply
  rw [← hreply.1, ← hreply.2]

omit [SourceChecks] [Rendering] in
/-- The record that is read is the row. -/
theorem get_assures {h : History Host} :
    Assures Environment (fun _ => Accounting incidentId) (BudgetLedger.get incidentId.val) h s fun r _ t =>
      Still incidentId s t ∧ ∀ record, r = .ok record → t.budgets incidentId.val = some record.toBudgetFields := by
  refine assures_perform_bind.mpr fun r t ha => ?_
  have hstill : Still incidentId s t := Durable.Answer.still ha rfl
  refine ⟨.still rfl hstill, fun x _ => ⟨hstill, by simp⟩, fun row hr => ?_⟩
  subst hr
  have hrow : row = t.budgets incidentId.val := Durable.Answer.selected ha
  cases row with
  | none => exact ⟨hstill, by simp⟩
  | some payload =>
    refine assures_ofResult_bind.mpr ⟨fun x _ => ⟨hstill, by simp⟩, fun record hvalid => ?_⟩
    refine assures_raiseIf_bind.mpr ⟨fun _ => ⟨hstill, by simp⟩, fun _ => ⟨hstill, ?_⟩⟩
    rintro _ ⟨⟩
    rw [BudgetFields.validate_eq_ok.mp hvalid]
    exact hrow.symm

omit [Retention] [SourceChecks] [Rendering] in
/-- What the read charges come to is what the meters say. -/
theorem total_reads (charges : List Charge) :
    total charges .toolCalls = ((readCharges charges).map fun x => x.requests.length).sum ∧
      total charges .backendReads = ((readCharges charges).map fun x => x.backendReadCount).sum := by
  induction charges with
  | nil => exact ⟨rfl, rfl⟩
  | cons c charges ih =>
    have hcons : ∀ m, total (c :: charges) m = c.amount m + total charges m := fun m => by simp [total]
    rw [hcons, hcons, ih.1, ih.2]
    cases c with
    | model c => simp [readCharges, Charge.amount]
    | reads c => simp [readCharges, Charge.amount]

omit [Retention] [SourceChecks] [Rendering] in
/-- `reason` adds what was charged. -/
theorem reasoned_counts {state state' : InvestigationState} {result : LoopResult} {charges : List Charge}
    (h : reasoned state result charges = .ok state') : state'.phase = .ranked ∧
      ∀ m, m.ofReads = true → state'.counter m = state.counter m + total charges m := by
  unfold reasoned at h
  dsimp only at h
  cases hreceipts : validReceipts result.receiptSha256s with
  | error x => rw [hreceipts] at h; cases h
  | ok receipts =>
    rw [hreceipts] at h
    cases htool : UpTo.validate 40 (state.toolCallsReserved.val +
        ((readCharges charges).map fun x => x.requests.length).sum) with
    | error x => rw [htool] at h; cases h
    | ok toolCalls =>
      rw [htool] at h
      cases hbackend : UpTo.validate 64 (state.backendReadsReserved.val +
          ((readCharges charges).map fun x => x.backendReadCount).sum) with
      | error x => rw [hbackend] at h; cases h
      | ok backend =>
        rw [hbackend] at h
        cases h
        obtain ⟨htools, hbackends⟩ := total_reads charges
        refine ⟨rfl, fun m hm => ?_⟩
        cases m with
        | toolCalls => rw [htools]; exact UpTo.validate_eq_ok.mp htool
        | backendReads => rw [hbackends]; exact UpTo.validate_eq_ok.mp hbackend
        | _ => cases hm

/-! ### The rank node -/

/-- What a ranking makes of the state. -/
def RankedAs (incidentId : Identifier) (t : Durable) (old state : InvestigationState) : Prop :=
  (state.phase = .ranked ∧
      ∀ m, m.ofReads = true → state.counter m = old.counter m + ledgerReads incidentId t m) ∨
    (state.phase = old.phase ∧ SameReads old state)

/-- The state that a node works on: an attempt was taken from that of the checkpoint. -/
structure Taken (old state : InvestigationState) : Prop where
  /-- The incident, -/
  incident : state.incident = old.incident
  /-- the allowances, -/
  budget : state.budget = old.budget
  /-- the profile of the collection, -/
  collectionProfile : state.collectionProfile = old.collectionProfile
  /-- the phase -/
  phase : state.phase = old.phase
  /-- and the counters stay. -/
  counters : SameReads old state

theorem reason_assures {cp : Checkpoint} {state : InvestigationState}
    {factory : InvestigationState → Except Fault ReasoningLoop} {h : History Host}
    (hs : Ranking incidentId cp s) (hnext : cp.next = some .rank)
    (hmethod : cp.state.rankingMethod ≠ .deterministic) (htaken : Taken cp.state state) :
    Assures Environment (fun _ => Accounting incidentId) (reason root state factory) h s fun r _ t =>
      Ranking incidentId cp t ∧ ∀ state', r = .ok state' → RankedAs incidentId t state state' := by
  refine assures_ofResult_bind.mpr ⟨fun x _ => ⟨hs, by simp⟩, fun loop _ => ?_⟩
  refine assures_raiseIf_bind.mpr ⟨fun _ => ⟨hs, by simp⟩, fun hok => ?_⟩
  have hlimits : Fits cp.state loop.limits := by
    have hreasoner := Bool.of_not_eq_false hok
    unfold reasonerFits at hreasoner
    simp only [Bool.and_eq_true, decide_eq_true_eq, htaken.budget] at hreasoner
    have htool := htaken.counters .toolCalls
    have hbackend := htaken.counters .backendReads
    intro m hm
    cases m with
    | toolCalls => simp only [InvestigationState.counter, ReasoningBudget.limit,
        InvestigationBudget.allowance] at htool ⊢; omega
    | backendReads => simp only [InvestigationState.counter, ReasoningBudget.limit,
        InvestigationBudget.allowance] at hbackend ⊢; omega
    | _ => cases hm
  refine assures_bind.mpr ((loop_assures hs hnext hmethod hlimits).mono fun r h₁ s₁ hs₁ => ?_)
  cases r with
  | error x => exact ⟨hs₁, by simp⟩
  | ok result =>
  refine assures_raiseIf_bind.mpr ⟨fun _ => ⟨hs₁, by simp⟩, fun hid => ?_⟩
  have hrun : result.runId = incidentId := by
    rw [not_not.mp hid, htaken.incident]
    exact hs₁.1.own cp hs₁.2
  rw [hrun]
  refine assures_bind.mpr (get_assures.mono ?_)
  rintro r h₂ s₂ ⟨hstill, hrow⟩
  have hs₂ : Ranking incidentId cp s₂ := ⟨hs₁.1.still hstill, hstill.checkpoint.trans hs₁.2⟩
  cases r with
  | error x => exact ⟨hs₂, by simp⟩
  | ok record =>
    refine assures_ofResult.mpr ⟨hs₂, fun state' hstate' => .inl ?_⟩
    obtain ⟨hphase, hcounts⟩ := reasoned_counts hstate'
    refine ⟨hphase, fun m hm => ?_⟩
    rw [hcounts m hm, ledgerReads, hrow record rfl]
    rfl

variable [BaselineTexts]

/-- **A ranking is in the guarantee.** -/
theorem rank_assures {N : InvestigationNodes} {cp : Checkpoint} {state : InvestigationState} {h : History Host}
    (hs : Ranking incidentId cp s) (hnext : cp.next = some .rank)
    (hmethod : N.reasonerFactory = none ↔ cp.state.rankingMethod = .deterministic)
    (htaken : Taken cp.state state) :
    Assures Environment (fun _ => Accounting incidentId) (rank N state) h s fun r _ t =>
      Ranking incidentId cp t ∧ ∀ state', r = .ok state' → RankedAs incidentId t state state' := by
  have stays : ∀ {t : Durable}, Still incidentId s t → Ranking incidentId cp t := fun hstill =>
    ⟨hs.1.still hstill, hstill.checkpoint.trans hs.2⟩
  have hranking : Assures Environment (fun _ => Accounting incidentId) (ranking N state) h s fun r _ t =>
      Ranking incidentId cp t ∧ ∀ state', r = .ok state' → RankedAs incidentId t state state' := by
    refine assures_bind.mpr ((still_assures (reading_accounts _ _)).mono fun r h₁ s₁ hstill => ?_)
    cases r with
    | error x => exact ⟨stays hstill, by simp⟩
    | ok u =>
    cases hfactory : N.reasonerFactory with
    | some factory =>
      refine reason_assures (stays hstill) hnext (fun hdet => ?_) htaken
      rw [hmethod.mpr hdet] at hfactory
      cases hfactory
    | none =>
      refine assures_bind.mpr ((still_assures (reading_accounts _ _)).mono fun r h₂ s₂ hstill' => ?_)
      have hs₂ := stays (hstill.trans hstill')
      cases r with
      | error x => exact ⟨hs₂, by simp⟩
      | ok hypotheses =>
        refine ⟨hs₂, ?_⟩
        rintro _ ⟨⟩
        have hempty := hs₂.1.deterministic cp hs₂.2 (hmethod.mp hfactory)
        refine .inl ⟨rfl, fun m _ => ?_⟩
        rw [ledgerReads, hempty]
        cases m <;> rfl
  refine assures_tryCatch.mpr (hranking.mono ?_)
  rintro r h₁ s₁ ⟨hs₁, hranked⟩
  cases r with
  | ok state' => exact ⟨hs₁, hranked⟩
  | error x =>
    refine assures_ofResult.mpr ⟨hs₁, fun state' hstate' => .inr ?_⟩
    unfold rankingFailed at hstate'
    split at hstate'
    · cases hstate'
      exact ⟨rfl, fun m => by cases m <;> rfl⟩
    · cases hstate'

/-! ### The other nodes -/

section Nodes

variable {old state : InvestigationState} {node : Node}

/-- The investigation ends before the ranking. -/
def Ended (old state : InvestigationState) : Prop :=
  state.terminal.isSome = true ∧ state.phase.unranked = true ∧ SameReads old state

/-- What a node before the ranking makes of the state. -/
def Outcome (old : InvestigationState) (node : Node) (state : InvestigationState) : Prop :=
  Ended old state ∨
    match node with
    | .triage => Entered .reserve state ∧ SameReads old state
    | .reserve => Entered .collect state ∧ ∀ m, m.ofReads = true →
        state.counter m = old.counter m + old.collectionProfile.reads m ∧ state.counter m ≤ old.budget.allowance m
    | .collect => Entered .rank state ∧ SameReads old state
    | _ => False

omit [Retention] [SourceChecks] [Rendering] [BaselineTexts] in
theorem SameReads.trans {a b c : InvestigationState} (h : SameReads a b) (h' : SameReads b c) : SameReads a c :=
  fun m => (h' m).trans (h m)

omit [Retention] [SourceChecks] [Rendering] [BaselineTexts] in
/-- The edges of the graph lead where the outcome says. -/
theorem Outcome.moved {next : Option Node} (h : Outcome old node state) (hnode : node.early = true)
    (hedge : edge node state = .ok next) : Moved incidentId s old node ⟨state, next⟩ := by
  have hroute : (route state).map some = .ok next := by
    cases node <;> first | exact hedge | cases hnode
  rcases h with ⟨hterminal, hphase, hsame⟩ | h
  · simp only [route, hterminal, if_true] at hroute
    cases hroute
    exact .ended hnode hphase hsame
  have hentered : ∀ {n : Node} {phase : Phase}, phase ∈ n.entry → Entered n state →
      state.phase = phase ∧ state.terminal.isSome = false := fun hphase hentered => by
    obtain ⟨hp, ht⟩ := hentered _ hphase
    exact ⟨hp, by rw [ht]; rfl⟩
  cases node with
  | triage =>
    obtain ⟨hstate, hsame⟩ := h
    obtain ⟨hp, ht⟩ := hentered rfl hstate
    simp only [route, hp, ht] at hroute
    cases hroute
    exact .triaged hstate hsame
  | reserve =>
    obtain ⟨hstate, hadds⟩ := h
    obtain ⟨hp, ht⟩ := hentered rfl hstate
    simp only [route, hp, ht] at hroute
    cases hroute
    exact .reserved hstate hadds
  | collect =>
    obtain ⟨hstate, hsame⟩ := h
    obtain ⟨hp, ht⟩ := hentered rfl hstate
    simp only [route, hp, ht] at hroute
    cases hroute
    exact .collected hstate hsame
  | rank => cases hnode
  | finish => cases hnode

omit [Retention] [SourceChecks] [Rendering] [BaselineTexts] in
theorem reserveAttempt_accounts (root : String) (state : InvestigationState) (node : Node) :
    Within (fun e : Effect => e.accounts = false) (reserveAttempt root state node) := by
  refine (ask_accounts rfl).bind fun _ => (ask_accounts rfl).bind fun files => Within.bind ?_ fun allowed => ?_
  · unfold mayStart
    split_ifs
    · trivial
    · exact (ask_accounts rfl).bind fun _ => trivial
  · split_ifs
    · exact (ask_accounts rfl).bind fun _ => (ask_accounts rfl).bind fun _ => (ask_accounts rfl).bind fun _ =>
        (within_ofResult _).bind fun _ => trivial
    · exact (within_ofResult _).bind fun _ => trivial

omit [Retention] [SourceChecks] [Rendering] [BaselineTexts] in
/-- An attempt takes only its number, or it is refused. -/
theorem reserveAttempt_taken (root : String) (state : InvestigationState) (node : Node) :
    Returns (fun r => Taken state r ∧ (r.terminal = state.terminal ∨ r.terminal.isSome = true))
      (reserveAttempt root state node) := by
  refine returns_bind fun _ => returns_bind fun files => returns_bind fun allowed => ?_
  split_ifs
  · exact returns_bind fun now => returns_bind fun _ => returns_bind fun _ => returns_ofResult_bind
      fun stepsUsed _ => ⟨⟨rfl, rfl, rfl, rfl, fun m => by cases m <;> rfl⟩, .inl rfl⟩
  · exact returns_ofResult_bind fun stepsUsed _ => ⟨⟨rfl, rfl, rfl, rfl, fun m => by cases m <;> rfl⟩, .inr rfl⟩

omit [Retention] [SourceChecks] [Rendering] [BaselineTexts] in
/-- A node before the ranking, from what its operation does. -/
theorem step_outcome {operation : InvestigationState → Program Host InvestigationState}
    (hentered : Entered node state) (hnode : node.early = true)
    (hop : ∀ r, Taken state r → r.terminal = none → Returns (Outcome state node) (operation r)) :
    Returns (Outcome state node) (step root state node operation) := by
  refine (reserveAttempt_taken root state node).bind fun r hr => ?_
  obtain ⟨htaken, hterminal⟩ := hr
  refine Returns.bind (Q := Outcome state node) ?_ fun result hresult => ?_
  · unfold operate
    split_ifs with hrefused
    · refine .inl ⟨hrefused, ?_, htaken.counters⟩
      rw [htaken.phase]
      cases node with
      | triage => rw [(hentered .received rfl).1]; rfl
      | reserve => rw [(hentered .triaged rfl).1]; rfl
      | collect => rw [(hentered .readsReserved rfl).1]; rfl
      | _ => cases hnode
    · exact hop r htaken (Option.not_isSome_iff_eq_none.mp hrefused)
  · refine returns_bind fun _ => returns_bind fun _ => ?_
    rcases hresult with hended | hresult
    · exact .inl hended
    · refine .inr ?_
      cases node with
      | triage => exact hresult
      | reserve => exact hresult
      | collect => exact hresult
      | _ => cases hnode

omit [Retention] [SourceChecks] [Rendering] [BaselineTexts] in
theorem step_accounts {operation : InvestigationState → Program Host InvestigationState}
    (hop : ∀ r, Within (fun e : Effect => e.accounts = false) (operation r)) :
    Within (fun e : Effect => e.accounts = false) (step root state node operation) := by
  refine (reserveAttempt_accounts root state node).bind fun r => Within.bind ?_ fun result => ?_
  · unfold operate
    split_ifs
    · trivial
    · exact hop r
  · exact (ask_accounts rfl).bind fun _ => (ask_accounts rfl).bind fun _ => trivial

omit [Retention] [SourceChecks] [Rendering] [BaselineTexts] in
theorem triage_outcome (htaken : Taken old state) : Outcome old .triage (triage state) := by
  unfold triage
  split_ifs
  · exact .inr ⟨fun phase hphase => by cases hphase; exact ⟨rfl, rfl⟩,
      fun m => by rw [← htaken.counters m]; cases m <;> rfl⟩
  · exact .inl ⟨rfl, rfl, fun m => by rw [← htaken.counters m]; cases m <;> rfl⟩

omit [Retention] [SourceChecks] [Rendering] [BaselineTexts] in
theorem reserve_outcome {state' : InvestigationState} (hentered : Entered .reserve old) (htaken : Taken old state)
    (hterminal : state.terminal = none) (h : reserve state = .ok state') : Outcome old .reserve state' := by
  have hphase : state.phase.unranked = true := by
    rw [htaken.phase, (hentered .triaged rfl).1]
    rfl
  unfold reserve at h
  dsimp only at h
  split_ifs at h with htools hbackends
  · cases h
    exact .inl ⟨rfl, hphase, fun m => by rw [← htaken.counters m]; cases m <;> rfl⟩
  · cases h
    exact .inl ⟨rfl, hphase, fun m => by rw [← htaken.counters m]; cases m <;> rfl⟩
  · cases htool : UpTo.validate 40 (state.toolCallsReserved.val + 20) with
    | error x => rw [htool] at h; cases h
    | ok toolCalls =>
      cases hbackend : UpTo.validate 64 (state.backendReadsReserved.val + state.collectionProfile.backendReads) with
      | error x => rw [htool, hbackend] at h; cases h
      | ok backend =>
        rw [htool, hbackend] at h
        cases h
        have htool' := UpTo.validate_eq_ok.mp htool
        have hbackend' := UpTo.validate_eq_ok.mp hbackend
        have hcounters := htaken.counters
        refine .inr ⟨fun phase hphase => by cases hphase; exact ⟨rfl, hterminal⟩, fun m hm => ?_⟩
        rw [← hcounters m, ← htaken.collectionProfile, ← htaken.budget]
        cases m with
        | toolCalls =>
          simp only [InvestigationState.counter, CollectionProfile.reads, InvestigationBudget.allowance]
          omega
        | backendReads =>
          simp only [InvestigationState.counter, CollectionProfile.reads, InvestigationBudget.allowance]
          omega
        | _ => cases hm

omit [Rendering] [BaselineTexts] in
theorem collected_outcome (root : String) (result : Collection) (htaken : Taken old state)
    (hterminal : state.terminal = none) : Returns (Outcome old .collect) (collected root state result) := by
  refine returns_raiseIf_bind fun _ => returns_bind fun _ => .inr ⟨fun phase hphase => ?_, fun m => ?_⟩
  · cases hphase
    exact ⟨rfl, hterminal⟩
  · rw [← htaken.counters m]
    cases m <;> rfl

omit [Rendering] [BaselineTexts] in
theorem collect_outcome (root : String) (hentered : Entered .collect old) (htaken : Taken old state)
    (hterminal : state.terminal = none) : Returns (Outcome old .collect) (collect root state) := by
  have hphase : state.phase.unranked = true := by
    rw [htaken.phase, (hentered .readsReserved rfl).1]
    rfl
  unfold collect
  split_ifs
  · exact .inl ⟨rfl, hphase, fun m => by rw [← htaken.counters m]; cases m <;> rfl⟩
  · refine returns_bind fun _ => Returns.tryCatch ?_ fun x => ?_
    · refine returns_bind fun retained => ?_
      cases retained with
      | true => exact returns_bind fun result => collected_outcome root result htaken hterminal
      | false => exact returns_bind fun _ => returns_bind fun result => returns_bind fun _ => returns_bind fun _ =>
          collected_outcome root result htaken hterminal
    · refine returns_ofResult.mpr fun state' h => ?_
      unfold collectionFailed at h
      split at h
      · cases h
        exact .inl ⟨rfl, hphase, fun m => by rw [← htaken.counters m]; cases m <;> rfl⟩
      · split_ifs at h
        cases h
        exact .inl ⟨rfl, hphase, fun m => by rw [← htaken.counters m]; cases m <;> rfl⟩

omit [Rendering] [BaselineTexts] in
theorem collect_accounts (root : String) (state : InvestigationState) :
    Within (fun e : Effect => e.accounts = false) (collect root state) := by
  have hcollected : ∀ result, Within (fun e : Effect => e.accounts = false) (collected root state result) :=
    fun result => within_raiseIf.bind fun _ => (reading_accounts _ _).bind fun _ => trivial
  unfold collect
  split_ifs
  · trivial
  · refine (ask_accounts rfl).bind fun _ => Within.tryCatch ?_ fun x => within_ofResult _
    refine (ask_accounts rfl).bind fun retained => ?_
    cases retained with
    | true => exact (ask_accounts rfl).bind hcollected
    | false => exact (ask_accounts rfl).bind fun _ => (ask_accounts rfl).bind fun result =>
        (ask_accounts rfl).bind fun _ => (ask_accounts rfl).bind fun _ => hcollected result

end Nodes

/-! ### The graph -/

theorem rank_node {N : InvestigationNodes} {cp : Checkpoint} {h : History Host} (hs : Ranking incidentId cp s)
    (hnext : cp.next = some .rank) (hmethod : N.reasonerFactory = none ↔ cp.state.rankingMethod = .deterministic) :
    Assures Environment (fun _ => Accounting incidentId) (N.run .rank cp.state) h s fun r _ t =>
      Ranking incidentId cp t ∧ ∀ state', r = .ok state' → RankedAs incidentId t cp.state state' := by
  have stays : ∀ {t u : Durable}, Ranking incidentId cp t → Still incidentId t u → Ranking incidentId cp u :=
    fun ht hstill => ⟨ht.1.still hstill, hstill.checkpoint.trans ht.2⟩
  refine assures_bind.mpr ((still_assures (reserveAttempt_accounts _ _ _)).and_runs.mono ?_)
  rintro r h₁ s₁ ⟨hstill₁, g, -, hruns⟩
  have hs₁ := stays hs hstill₁
  cases r with
  | error x => exact ⟨hs₁, by simp⟩
  | ok reserved =>
  obtain ⟨htaken, -⟩ := (reserveAttempt_taken _ _ _).runs hruns
  have hoperate : Assures Environment (fun _ => Accounting incidentId) (operate (rank N) reserved) h₁ s₁ fun r _ t =>
      Ranking incidentId cp t ∧ ∀ state', r = .ok state' → RankedAs incidentId t cp.state state' := by
    unfold operate
    split_ifs
    · refine ⟨hs₁, ?_⟩
      rintro _ ⟨⟩
      exact .inr ⟨htaken.phase, htaken.counters⟩
    · refine (rank_assures hs₁ hnext hmethod htaken).mono ?_
      rintro r h₂ s₂ ⟨hs₂, hranked⟩
      refine ⟨hs₂, fun state' hr => ?_⟩
      rcases hranked state' hr with ⟨hphase, hcounts⟩ | ⟨hphase, hsame⟩
      · exact .inl ⟨hphase, fun m hm => (hcounts m hm).trans (by rw [htaken.counters m])⟩
      · exact .inr ⟨hphase.trans htaken.phase, htaken.counters.trans hsame⟩
  refine assures_bind.mpr (hoperate.mono ?_)
  rintro r h₂ s₂ ⟨hs₂, hranked⟩
  cases r with
  | error x => exact ⟨hs₂, by simp⟩
  | ok result =>
  refine Assures.mono (Assures.and_runs (still_assures
    ((ask_accounts rfl).bind fun _ => (ask_accounts rfl).bind fun _ => trivial))) ?_
  rintro r h₃ s₃ ⟨hstill₃, g₃, -, hruns₃⟩
  refine ⟨stays hs₂ hstill₃, fun state' hr => ?_⟩
  subst hr
  obtain ⟨observedAt, g₄, rfl, hrest⟩ := runs_perform_bind_ok.mp hruns₃
  obtain ⟨durationSeconds, g₅, rfl, hdone⟩ := runs_perform_bind_ok.mp hrest
  obtain ⟨-, hstate'⟩ := runs_done.mp hdone
  cases hstate'
  have hledger : ∀ m, ledgerReads incidentId s₃ m = ledgerReads incidentId s₂ m := fun m => by
    rw [ledgerReads, ledgerReads, hstill₃.row]
  rcases hranked result rfl with ⟨hphase, hcounts⟩ | ⟨hphase, hsame⟩
  · refine .inl ⟨hphase, fun m hm => ?_⟩
    rw [hledger, ← hcounts m hm]
    cases m <;> rfl
  · refine .inr ⟨hphase, fun m => ?_⟩
    rw [← hsame m]
    cases m <;> rfl

/-- **A node is in the guarantee**, and leads where the guarantee says. -/
theorem run_accounting {N : InvestigationNodes} {cp : Checkpoint} {node : Node} {h : History Host}
    (hs : Ranking incidentId cp s) (hnode : cp.next = some node)
    (hmethod : N.reasonerFactory = none ↔ cp.state.rankingMethod = .deterministic) :
    Assures Environment (fun _ => Accounting incidentId) (N.run node cp.state) h s fun r _ t =>
      Ranking incidentId cp t ∧ ∀ state', r = .ok state' → ∀ next, edge node state' = .ok next →
        Moved incidentId t cp.state node ⟨state', next⟩ := by
  have hentered := hs.1.entered cp node hs.2 hnode
  have early : ∀ {operation : InvestigationState → Program Host InvestigationState} (node : Node),
      Entered node cp.state → node.early = true →
      (∀ r, Within (fun e : Effect => e.accounts = false) (operation r)) →
      (∀ r, Taken cp.state r → r.terminal = none → Returns (Outcome cp.state node) (operation r)) →
      Assures Environment (fun _ => Accounting incidentId) (step N.root cp.state node operation) h s fun r _ t =>
        Ranking incidentId cp t ∧ ∀ state', r = .ok state' → ∀ next, edge node state' = .ok next →
          Moved incidentId t cp.state node ⟨state', next⟩ := by
    intro operation node hentered hearly hwithin houtcome
    refine (still_assures (step_accounts hwithin)).and_runs.mono ?_
    rintro r h' t ⟨hstill, g, -, hruns⟩
    refine ⟨⟨hs.1.still hstill, hstill.checkpoint.trans hs.2⟩, fun state' hr next hedge => ?_⟩
    subst hr
    exact ((step_outcome hentered hearly houtcome).runs hruns).moved hearly hedge
  cases node with
  | triage => exact early .triage hentered rfl (fun _ => trivial) fun r hr _ => triage_outcome hr
  | reserve => exact early .reserve hentered rfl (fun _ => within_ofResult _) fun r hr hterminal =>
      returns_ofResult.mpr fun state' h => reserve_outcome hentered hr hterminal h
  | collect => exact early .collect hentered rfl (collect_accounts N.root) fun r hr hterminal =>
      collect_outcome N.root hentered hr hterminal
  | rank =>
    refine (rank_node hs hnode hmethod).mono ?_
    rintro r h' t ⟨hs', hranked⟩
    refine ⟨hs', fun state' hr next hedge => ?_⟩
    cases hedge
    rcases hranked state' hr with ⟨hphase, hcounts⟩ | ⟨hphase, hsame⟩
    · exact .ranked hphase hcounts
    · exact .abandoned (hphase.trans (hentered .evidenceCollected rfl).1) hsame
  | finish =>
    have hfinish : Within (fun e : Effect => e.accounts = false) (finish cp.state) :=
      (ask_accounts rfl).bind fun _ => (within_ofResult _).bind fun _ => trivial
    have hsame : Returns (SameReads cp.state) (finish cp.state) :=
      returns_bind fun _ => returns_ofResult_bind fun _ _ => fun m => by cases m <;> rfl
    refine (still_assures hfinish).and_runs.mono ?_
    rintro r h' t ⟨hstill, g, -, hruns⟩
    refine ⟨⟨hs.1.still hstill, hstill.checkpoint.trans hs.2⟩, fun state' hr next hedge => ?_⟩
    subst hr
    cases hedge
    exact .finished (hsame.runs hruns)

omit [SourceChecks] [Rendering] [BaselineTexts] in
/-- A checkpoint is saved, or not. -/
theorem Durable.Answer.save {thread : String} {cp : Checkpoint} {r : Except Fault Unit}
    (h : s.Answer (.saveCheckpoint thread cp) r s') :
    (∃ x, r = .error x ∧ s'.checkpoints = s.checkpoints ∧ s'.budgets = s.budgets) ∨
      (r = .ok () ∧ s'.checkpoints thread = some cp ∧ s'.budgets = s.budgets) := by
  cases h with
  | fault hgrown => exact .inl ⟨_, rfl, hgrown.checkpoints, hgrown.budgets⟩
  | exec hgrown hexec =>
    simp only [Durable.exec, Option.some.injEq, Prod.mk.injEq] at hexec
    obtain ⟨rfl, rfl⟩ := hexec
    exact .inr ⟨rfl, Function.update_self .., hgrown.budgets⟩
  | outside _ hexec => cases hexec

/-- **The graph is in the guarantee.** -/
theorem drive_accounting {W : InvestigationWorker} {limit : ℕ} {entered : Bool} {node : Node}
    {state : InvestigationState} {h : History Host} (hs : Ranking incidentId ⟨state, some node⟩ s)
    (hmethod : W.rankingMethod = state.rankingMethod) :
    Assures Environment (fun _ => Accounting incidentId) (W.drive incidentId.val limit entered node state) h s
      fun _ _ _ => True := by
  induction limit generalizing entered node state h s with
  | zero => trivial
  | succ limit ih =>
    unfold InvestigationWorker.drive
    split_ifs
    · trivial
    have hnodes : W.nodes.reasonerFactory = none ↔ state.rankingMethod = .deterministic := hmethod ▸ W.methodical
    refine assures_bind.mpr ((run_accounting hs rfl hnodes).and_runs.mono ?_)
    rintro r h₁ s₁ ⟨⟨hs₁, hmoved⟩, g, -, hruns⟩
    cases r with
    | error x => trivial
    | ok state' =>
    have hadvances : Advances state state' := (run_advances W.nodes node state).runs hruns
    refine assures_ofResult_bind.mpr ⟨fun _ _ => trivial, fun next hedge => ?_⟩
    refine assures_perform_bind.mpr fun r s₂ ha => ?_
    rcases Durable.Answer.save ha with ⟨x, rfl, hcheckpoints, hbudgets⟩ | ⟨rfl, hsaved, hbudgets⟩
    · exact ⟨.still rfl ⟨by rw [hcheckpoints], by rw [hbudgets]⟩, fun _ _ => trivial, fun _ hok => by cases hok⟩
    · have hstep : Accounting incidentId s₁ ⟨.saveCheckpoint incidentId.val ⟨state', next⟩, .ok ()⟩ s₂ :=
        .node hs₁.2 hsaved (by rw [hbudgets]) rfl hadvances (hmoved state' rfl next hedge)
      refine ⟨hstep, fun _ _ => trivial, fun _ _ => ?_⟩
      cases next with
      | none => trivial
      | some node' =>
        exact ih ⟨hstep.staged hs₁.1, hsaved⟩ (hmethod.trans hadvances.rankingMethod.symm)

theorem invoke_accounting {W : InvestigationWorker} {initial : Option InvestigationState}
    (hinitial : ∀ state ∈ initial, state.incident.incidentId = incidentId ∧ Entered .triage state ∧
      W.rankingMethod = state.rankingMethod ∧ ∀ m, state.counter m = 0)
    {h : History Host} (hs : Staged incidentId s) :
    Assures Environment (fun _ => Accounting incidentId) (W.invoke incidentId initial) h s fun _ _ _ => True := by
  refine assures_perform_bind.mpr fun r s₁ ha => ?_
  have hstill₁ : Still incidentId s s₁ := Durable.Answer.still ha rfl
  refine ⟨.still rfl hstill₁, fun _ _ => trivial, fun _ _ => ?_⟩
  refine assures_perform_bind.mpr fun r s₂ ha => ?_
  have hstill₂ : Still incidentId s₁ s₂ := Durable.Answer.still ha rfl
  have hs₂ := (hs.still hstill₁).still hstill₂
  refine ⟨.still rfl hstill₂, fun _ _ => trivial, fun found hfound => ?_⟩
  subst hfound
  have hloaded : s₂.checkpoints incidentId.val = found := by
    rw [hstill₂.checkpoint]
    exact (Durable.Answer.loaded ha).symm
  cases found with
  | some snapshot =>
    refine assures_ofResult_bind.mpr ⟨fun _ _ => trivial, fun _ hcompatible => ?_⟩
    have hmethod : W.rankingMethod = snapshot.state.rankingMethod := by
      unfold InvestigationWorker.compatible at hcompatible
      split_ifs at hcompatible with _ _ _ hmethod
      exact (not_not.mp hmethod).symm
    cases initial with
    | some state => exact assures_raiseIf_bind.mpr ⟨fun _ => trivial, fun _ => trivial⟩
    | none =>
      dsimp only
      split_ifs
      · trivial
      cases hnext : snapshot.next with
      | none => trivial
      | some node =>
        refine drive_accounting ⟨hs₂, ?_⟩ hmethod
        rw [← hnext]
        exact hloaded
  | none =>
    cases initial with
    | none => trivial
    | some state =>
      obtain ⟨hown, hentered, hmethod, hzero⟩ := hinitial state rfl
      refine assures_perform_bind.mpr fun r s₃ hsave => ?_
      rcases Durable.Answer.save hsave with ⟨x, rfl, hcheckpoints, hbudgets⟩ | ⟨rfl, hsaved, hbudgets⟩
      · exact ⟨.still rfl ⟨by rw [hcheckpoints], by rw [hbudgets]⟩, fun _ _ => trivial, fun _ hok => by cases hok⟩
      · have hstep : Accounting incidentId s₂ ⟨.saveCheckpoint incidentId.val ⟨state, some .triage⟩, .ok ()⟩ s₃ :=
          .first hloaded hsaved (by rw [hbudgets]) rfl hentered hown hzero
        exact ⟨hstep, fun _ _ => trivial, fun _ _ => drive_accounting ⟨hstep.staged hs₂, hsaved⟩ hmethod⟩

/-- **Every step of every call is in the guarantee.** -/
theorem call_accounting {p : Program Host InvestigationState} (hp : GraphCall root incidentId p)
    (hs : Staged incidentId s) :
    Assures Environment (fun _ => Accounting incidentId) p [] s fun _ _ _ => True := by
  cases hp with
  | start W incident budget _ hown =>
    subst hown
    have hinitial : ∀ b, ∀ state ∈ some (W.initial incident b), state.incident.incidentId = incident.incidentId ∧
        Entered .triage state ∧ W.rankingMethod = state.rankingMethod ∧ ∀ m, state.counter m = 0 := by
      rintro b state ⟨⟩
      exact ⟨rfl, fun phase hphase => by cases hphase; exact ⟨rfl, rfl⟩, rfl, fun m => by cases m <;> rfl⟩
    cases budget with
    | some budget => exact invoke_accounting (hinitial budget) hs
    | none =>
      refine assures_perform_bind.mpr fun r s₁ ha => ?_
      have hstill : Still incident.incidentId s s₁ := Durable.Answer.still ha rfl
      exact ⟨.still rfl hstill, fun _ _ => trivial, fun now _ => invoke_accounting (hinitial _) (hs.still hstill)⟩
  | resume W _ => exact invoke_accounting (by simp) hs

end Lemmas

/-! ### Histories -/

section Histories

variable {root : String} {incidentId : Identifier} {s s' s₀ : Durable} {tr : History Host} {ev : Event Host}

/-- What the checkpoint, the ledger and the events so far have in common. -/
structure Tallied (incidentId : Identifier) (s : Durable) (tr : History Host) : Prop where
  /-- Before the inputs are saved nothing is reserved, -/
  unsaved : s.checkpoints incidentId.val = none → (∀ m, collectionReads incidentId tr m = 0) ∧
    ¬Ranked incidentId tr ∧ ¬Abandoned incidentId tr
  /-- nor before the reserve node is. -/
  unreserved : ∀ cp, s.checkpoints incidentId.val = some cp → cp.next = some .triage ∨ cp.next = some .reserve →
    ∀ m, collectionReads incidentId tr m = 0
  /-- Before the rank node is saved it has not ended. -/
  before : ∀ cp node, s.checkpoints incidentId.val = some cp → cp.next = some node → node.entry.isSome = true →
    ¬Ranked incidentId tr ∧ ¬Abandoned incidentId tr
  /-- It ends once. -/
  exclusive : Ranked incidentId tr → ¬Abandoned incidentId tr
  /-- After a ranking the state has counted everything, -/
  ranked : ∀ cp, s.checkpoints incidentId.val = some cp → Ranked incidentId tr → ∀ m, m.ofReads = true →
    cp.state.counter m = reservedReads incidentId s tr m
  /-- and else the collection. -/
  unranked : ∀ cp, s.checkpoints incidentId.val = some cp → ¬Ranked incidentId tr → ∀ m, m.ofReads = true →
    cp.state.counter m = collectionReads incidentId tr m
  /-- An investigation that did not come to the ranking has no charges. -/
  uncharged : ∀ cp, s.checkpoints incidentId.val = some cp → (∀ node, cp.next = some node → node.entry = none) →
    ¬Ranked incidentId tr → ¬Abandoned incidentId tr → s.budgets incidentId.val = none
  /-- Everything is within the budget. -/
  allowed : ∀ cp, s.checkpoints incidentId.val = some cp → ∀ m, m.ofReads = true →
    reservedReads incidentId s tr m ≤ cp.state.budget.allowance m

theorem collectionReads_snoc (m : Meter) :
    collectionReads incidentId (tr ++ [ev]) m = collectionReads incidentId tr m + passes incidentId m ev := by
  simp [collectionReads]

theorem ranked_snoc : Ranked incidentId (tr ++ [ev]) ↔ Ranked incidentId tr ∨ ends incidentId .ranked ev = true := by
  simp [Ranked]

theorem abandoned_snoc :
    Abandoned incidentId (tr ++ [ev]) ↔ Abandoned incidentId tr ∨ ends incidentId .evidenceCollected ev = true := by
  simp [Abandoned]

/-- An event that saves no checkpoint is counted nowhere. -/
theorem uncounted (hev : saves incidentId ev = false) :
    (∀ m, passes incidentId m ev = 0) ∧ ∀ phase, ends incidentId phase ev = false := by
  obtain ⟨e, r⟩ := ev
  cases e with
  | saveCheckpoint thread cp =>
    cases r with
    | error x => exact ⟨fun m => rfl, fun phase => rfl⟩
    | ok u =>
      have hthread : ¬thread = incidentId.val := by simpa [saves] using hev
      exact ⟨fun m => by simp [passes, hthread], fun phase => by simp [ends, hthread]⟩
  | _ => exact ⟨fun m => rfl, fun phase => rfl⟩

/-- What the ledger has is within the allowances of the row. -/
theorem ledger_allowed {state : InvestigationState} (hfits : RowFits incidentId state s) {m : Meter}
    (hm : m.ofReads = true) (hallowed : state.counter m ≤ state.budget.allowance m) :
    state.counter m + ledgerReads incidentId s m ≤ state.budget.allowance m := by
  unfold ledgerReads
  cases hrow : s.budgets incidentId.val with
  | none => exact hallowed
  | some row =>
    obtain ⟨hvalid, hlimits⟩ := hfits row hrow
    have htotal := (BudgetFields.failure_eq_none.mp hvalid).2.2.2 m
    have := hlimits m hm
    simp only [Option.elim_some]
    omega

/-- Nothing is counted. -/
theorem Tallied.uncounted (h : Tallied incidentId s tr) (hev : saves incidentId ev = false)
    (hcp : s'.checkpoints incidentId.val = s.checkpoints incidentId.val)
    (hranked : ∀ cp, s.checkpoints incidentId.val = some cp → Ranked incidentId tr →
      s'.budgets incidentId.val = s.budgets incidentId.val)
    (huncharged : ∀ cp, s.checkpoints incidentId.val = some cp →
      (∀ node, cp.next = some node → node.entry = none) → s'.budgets incidentId.val = s.budgets incidentId.val)
    (hallowed : ∀ cp, s.checkpoints incidentId.val = some cp → ∀ m, m.ofReads = true →
      reservedReads incidentId s' tr m ≤ cp.state.budget.allowance m) :
    Tallied incidentId s' (tr ++ [ev]) := by
  obtain ⟨hpasses, hends⟩ := PayOps.Orchestrator.uncounted hev
  have hreads : ∀ m, collectionReads incidentId (tr ++ [ev]) m = collectionReads incidentId tr m := fun m => by
    rw [collectionReads_snoc, hpasses, Nat.add_zero]
  have hr : Ranked incidentId (tr ++ [ev]) ↔ Ranked incidentId tr := by
    rw [ranked_snoc, hends]
    simp
  have ha : Abandoned incidentId (tr ++ [ev]) ↔ Abandoned incidentId tr := by
    rw [abandoned_snoc, hends]
    simp
  refine ⟨fun hnone => ?_, fun cp h' hnext m => ?_, fun cp node h' hnext hentry => ?_, fun hrank => ?_,
    fun cp h' hrank m hm => ?_, fun cp h' hrank m hm => ?_, fun cp h' hend hrank habandoned => ?_,
    fun cp h' m hm => ?_⟩
  · obtain ⟨hzero, hnr, hna⟩ := h.unsaved (hcp ▸ hnone)
    exact ⟨fun m => (hreads m).trans (hzero m), hr.not.mpr hnr, ha.not.mpr hna⟩
  · rw [hreads]
    exact h.unreserved cp (hcp ▸ h') hnext m
  · obtain ⟨hnr, hna⟩ := h.before cp node (hcp ▸ h') hnext hentry
    exact ⟨hr.not.mpr hnr, ha.not.mpr hna⟩
  · exact ha.not.mpr (h.exclusive (hr.mp hrank))
  · rw [h.ranked cp (hcp ▸ h') (hr.mp hrank) m hm, reservedReads, reservedReads, hreads, ledgerReads, ledgerReads,
      hranked cp (hcp ▸ h') (hr.mp hrank)]
  · rw [hreads]
    exact h.unranked cp (hcp ▸ h') (hr.not.mp hrank) m hm
  · rw [huncharged cp (hcp ▸ h') hend]
    exact h.uncharged cp (hcp ▸ h') hend (hr.not.mp hrank) (ha.not.mp habandoned)
  · have := hallowed cp (hcp ▸ h') m hm
    rwa [reservedReads, hreads]

/-- What an event that saves a checkpoint counts. -/
theorem ends_save {cp : Checkpoint} {phase : Phase} :
    ends incidentId phase ⟨.saveCheckpoint incidentId.val cp, .ok ()⟩ = true ↔
      cp.next = some .finish ∧ cp.state.phase = phase := by
  simp [ends]

omit [Platform] in
theorem Phase.unranked_ne {phase : Phase} (h : phase.unranked = true) :
    phase ≠ .ranked ∧ phase ≠ .evidenceCollected := by
  cases phase <;> first | exact ⟨by decide, by decide⟩ | cases h

section Saved

variable {old cp : Checkpoint} {node : Node}

/-- A node is saved that ends no ranking and reserves nothing. -/
theorem Tallied.plain (h : Tallied incidentId s tr) (hold : s.checkpoints incidentId.val = some old)
    (hcp : s'.checkpoints incidentId.val = some cp) (hrow : s'.budgets incidentId.val = s.budgets incidentId.val)
    (hbudget : cp.state.budget = old.state.budget) (hsame : SameReads old.state cp.state)
    (hcollect : cp.next ≠ some .collect) (hphase : cp.next = some .finish → cp.state.phase.unranked = true)
    (hfirst : cp.next = some .triage ∨ cp.next = some .reserve → ∀ m, collectionReads incidentId tr m = 0)
    (hbefore : ∀ n, cp.next = some n → n.entry.isSome = true → ¬Ranked incidentId tr ∧ ¬Abandoned incidentId tr)
    (hempty : (∀ n, cp.next = some n → n.entry = none) → ¬Ranked incidentId tr → ¬Abandoned incidentId tr →
      s.budgets incidentId.val = none) :
    Tallied incidentId s' (tr ++ [⟨.saveCheckpoint incidentId.val cp, .ok ()⟩]) := by
  have huniq : ∀ cp', s'.checkpoints incidentId.val = some cp' → cp' = cp := fun cp' h' =>
    Option.some.inj (h'.symm.trans hcp)
  have hreads : ∀ m, collectionReads incidentId (tr ++ [⟨.saveCheckpoint incidentId.val cp, .ok ()⟩]) m =
      collectionReads incidentId tr m := fun m => by
    rw [collectionReads_snoc]
    simp [passes, hcollect]
  have hr : Ranked incidentId (tr ++ [⟨.saveCheckpoint incidentId.val cp, .ok ()⟩]) ↔ Ranked incidentId tr := by
    rw [ranked_snoc, ends_save]
    refine or_iff_left fun hend => ?_
    exact (Phase.unranked_ne (hphase hend.1)).1 hend.2
  have ha : Abandoned incidentId (tr ++ [⟨.saveCheckpoint incidentId.val cp, .ok ()⟩]) ↔
      Abandoned incidentId tr := by
    rw [abandoned_snoc, ends_save]
    refine or_iff_left fun hend => ?_
    exact (Phase.unranked_ne (hphase hend.1)).2 hend.2
  have hledger : ∀ m, ledgerReads incidentId s' m = ledgerReads incidentId s m := fun m => by
    rw [ledgerReads, ledgerReads, hrow]
  refine ⟨fun hnone => ?_, fun cp' h' hnext m => ?_, fun cp' n h' hnext hentry => ?_, fun hrank => ?_,
    fun cp' h' hrank m hm => ?_, fun cp' h' hrank m hm => ?_, fun cp' h' hend hrank habandoned => ?_,
    fun cp' h' m hm => ?_⟩
  · rw [hcp] at hnone
    cases hnone
  · obtain rfl := huniq cp' h'
    rw [hreads]
    exact hfirst hnext m
  · obtain rfl := huniq cp' h'
    exact ⟨hr.not.mpr (hbefore n hnext hentry).1, ha.not.mpr (hbefore n hnext hentry).2⟩
  · exact ha.not.mpr (h.exclusive (hr.mp hrank))
  · obtain rfl := huniq cp' h'
    rw [hsame m, h.ranked old hold (hr.mp hrank) m hm, reservedReads, reservedReads, hreads, hledger]
  · obtain rfl := huniq cp' h'
    rw [hsame m, hreads]
    exact h.unranked old hold (hr.not.mp hrank) m hm
  · obtain rfl := huniq cp' h'
    rw [hrow]
    exact hempty hend (hr.not.mp hrank) (ha.not.mp habandoned)
  · obtain rfl := huniq cp' h'
    rw [hbudget, reservedReads, hreads, hledger]
    exact h.allowed old hold m hm

/-- **The reserve node is saved.** -/
theorem Tallied.reserved (h : Tallied incidentId s tr) (hold : s.checkpoints incidentId.val = some old)
    (hcp : s'.checkpoints incidentId.val = some cp) (hempty : s'.budgets incidentId.val = none)
    (hnext : old.next = some .reserve) (hadvances : Advances old.state cp.state) (hcollect : cp.next = some .collect)
    (hadds : ∀ m, m.ofReads = true → cp.state.counter m = old.state.counter m + old.state.collectionProfile.reads m ∧
      cp.state.counter m ≤ old.state.budget.allowance m) :
    Tallied incidentId s' (tr ++ [⟨.saveCheckpoint incidentId.val cp, .ok ()⟩]) := by
  have huniq : ∀ cp', s'.checkpoints incidentId.val = some cp' → cp' = cp := fun cp' h' =>
    Option.some.inj (h'.symm.trans hcp)
  have hzero := h.unreserved old hold (.inr hnext)
  obtain ⟨hnr, hna⟩ := h.before old .reserve hold hnext rfl
  have hreads : ∀ m, m.ofReads = true →
      collectionReads incidentId (tr ++ [⟨.saveCheckpoint incidentId.val cp, .ok ()⟩]) m = cp.state.counter m := by
    intro m hm
    have hcounter := h.unranked old hold hnr m hm
    rw [collectionReads_snoc, (hadds m hm).1, hcounter]
    simp [passes, hcollect, hadvances.collectionProfile]
  have hledger : ∀ m, ledgerReads incidentId s' m = 0 := fun m => by
    rw [ledgerReads, hempty]
    rfl
  have hr : ¬Ranked incidentId (tr ++ [⟨.saveCheckpoint incidentId.val cp, .ok ()⟩]) := by
    rw [ranked_snoc, ends_save, hcollect]
    simpa using hnr
  have ha : ¬Abandoned incidentId (tr ++ [⟨.saveCheckpoint incidentId.val cp, .ok ()⟩]) := by
    rw [abandoned_snoc, ends_save, hcollect]
    simpa using hna
  refine ⟨fun hnone => ?_, fun cp' h' hfirst => ?_, fun _ _ _ _ _ => ⟨hr, ha⟩, fun hrank => absurd hrank hr,
    fun _ _ hrank => absurd hrank hr, fun cp' h' _ m hm => ?_, fun _ _ _ _ _ => hempty, fun cp' h' m hm => ?_⟩
  · rw [hcp] at hnone
    cases hnone
  · obtain rfl := huniq cp' h'
    rw [hcollect] at hfirst
    rcases hfirst with hfirst | hfirst <;> cases hfirst
  · obtain rfl := huniq cp' h'
    exact (hreads m hm).symm
  · obtain rfl := huniq cp' h'
    rw [reservedReads, hreads m hm, hledger, Nat.add_zero, hadvances.budget]
    exact (hadds m hm).2

/-- **The rank node is saved.** -/
theorem Tallied.rank (h : Tallied incidentId s tr) (hold : s.checkpoints incidentId.val = some old)
    (hcp : s'.checkpoints incidentId.val = some cp)
    (hrow : s'.budgets incidentId.val = s.budgets incidentId.val) (hnext : old.next = some .rank)
    (hbudget : cp.state.budget = old.state.budget) (hfinish : cp.next = some .finish)
    (hends : cp.state.phase = .ranked ∧
        (∀ m, m.ofReads = true → cp.state.counter m = old.state.counter m + ledgerReads incidentId s m) ∨
      cp.state.phase = .evidenceCollected ∧ SameReads old.state cp.state) :
    Tallied incidentId s' (tr ++ [⟨.saveCheckpoint incidentId.val cp, .ok ()⟩]) := by
  have huniq : ∀ cp', s'.checkpoints incidentId.val = some cp' → cp' = cp := fun cp' h' =>
    Option.some.inj (h'.symm.trans hcp)
  obtain ⟨hnr, hna⟩ := h.before old .rank hold hnext rfl
  have hreads : ∀ m, collectionReads incidentId (tr ++ [⟨.saveCheckpoint incidentId.val cp, .ok ()⟩]) m =
      collectionReads incidentId tr m := fun m => by
    rw [collectionReads_snoc]
    simp [passes, hfinish]
  have hledger : ∀ m, ledgerReads incidentId s' m = ledgerReads incidentId s m := fun m => by
    rw [ledgerReads, ledgerReads, hrow]
  have hr : Ranked incidentId (tr ++ [⟨.saveCheckpoint incidentId.val cp, .ok ()⟩]) ↔ cp.state.phase = .ranked := by
    rw [ranked_snoc, ends_save, or_iff_right hnr, and_iff_right hfinish]
  have ha : Abandoned incidentId (tr ++ [⟨.saveCheckpoint incidentId.val cp, .ok ()⟩]) ↔
      cp.state.phase = .evidenceCollected := by
    rw [abandoned_snoc, ends_save, or_iff_right hna, and_iff_right hfinish]
  refine ⟨fun hnone => ?_, fun cp' h' hfirst => ?_, fun cp' n h' hn hentry => ?_, fun hrank habandoned => ?_,
    fun cp' h' hrank m hm => ?_, fun cp' h' hrank m hm => ?_, fun cp' h' _ hrank habandoned => ?_,
    fun cp' h' m hm => ?_⟩
  · rw [hcp] at hnone
    cases hnone
  · obtain rfl := huniq cp' h'
    rw [hfinish] at hfirst
    rcases hfirst with hfirst | hfirst <;> cases hfirst
  · obtain rfl := huniq cp' h'
    rw [hfinish] at hn
    cases hn
    cases hentry
  · rw [hr.mp hrank] at ha
    cases ha.mp habandoned
  · obtain rfl := huniq cp' h'
    rcases hends with ⟨-, hadds⟩ | ⟨hphase, -⟩
    · rw [hadds m hm, reservedReads, hreads, hledger, h.unranked old hold hnr m hm]
    · rw [hphase] at hr
      cases hr.mp hrank
  · obtain rfl := huniq cp' h'
    rcases hends with ⟨hphase, -⟩ | ⟨-, hsame⟩
    · exact absurd (hr.mpr hphase) hrank
    · rw [hsame m, hreads, h.unranked old hold hnr m hm]
  · obtain rfl := huniq cp' h'
    rcases hends with ⟨hphase, -⟩ | ⟨hphase, -⟩
    · exact absurd (hr.mpr hphase) hrank
    · exact absurd (ha.mpr hphase) habandoned
  · obtain rfl := huniq cp' h'
    rw [hbudget, reservedReads, hreads, hledger]
    exact h.allowed old hold m hm

end Saved

/-- **A step keeps the tally.** -/
theorem Tallied.step (hs : Staged incidentId s) (h : Tallied incidentId s tr) (hstep : Accounting incidentId s ev s') :
    Tallied incidentId s' (tr ++ [ev]) := by
  cases hstep with
  | still hev hstill =>
    refine h.uncounted hev hstill.checkpoint (fun _ _ _ => hstill.row) (fun _ _ _ => hstill.row) fun cp hcp m hm => ?_
    rw [reservedReads, ledgerReads, hstill.row]
    exact h.allowed cp hcp m hm
  | @charged _ _ cp hev hcp hcp' hnext _ hfits =>
    obtain ⟨hnr, hna⟩ := h.before cp .rank hcp hnext rfl
    have huniq : ∀ cp', s.checkpoints incidentId.val = some cp' → cp' = cp := fun cp' h' =>
      Option.some.inj (h'.symm.trans hcp)
    refine h.uncounted hev (hcp'.trans hcp.symm) (fun _ _ hrank => absurd hrank hnr) (fun cp' h' hend => ?_)
      fun cp' h' m hm => ?_
    · obtain rfl := huniq cp' h'
      cases hend .rank hnext
    · obtain rfl := huniq cp' h'
      have hcounter := h.unranked cp' h' hnr m hm
      have hallowed := h.allowed cp' h' m hm
      unfold reservedReads at hallowed ⊢
      rw [← hcounter] at hallowed ⊢
      exact ledger_allowed hfits hm (by omega)
  | @first _ cp hnone hcp hrow hnext _ _ hzero =>
    have huniq : ∀ cp', s'.checkpoints incidentId.val = some cp' → cp' = cp := fun cp' h' =>
      Option.some.inj (h'.symm.trans hcp)
    obtain ⟨hreads, hnr, hna⟩ := h.unsaved hnone
    have hempty : s'.budgets incidentId.val = none := hrow ▸ hs.unsaved hnone
    have hreads' : ∀ m, collectionReads incidentId (tr ++ [⟨.saveCheckpoint incidentId.val cp, .ok ()⟩]) m = 0 :=
      fun m => by
        rw [collectionReads_snoc, hreads]
        simp [passes, hnext]
    have hr : ¬Ranked incidentId (tr ++ [⟨.saveCheckpoint incidentId.val cp, .ok ()⟩]) := by
      rw [ranked_snoc, ends_save, hnext]
      simpa using hnr
    have ha : ¬Abandoned incidentId (tr ++ [⟨.saveCheckpoint incidentId.val cp, .ok ()⟩]) := by
      rw [abandoned_snoc, ends_save, hnext]
      simpa using hna
    refine ⟨fun _ => ⟨hreads', hr, ha⟩, fun _ _ _ => hreads', fun _ _ _ _ _ => ⟨hr, ha⟩,
      fun hrank => absurd hrank hr, fun _ _ hrank => absurd hrank hr, fun cp' h' _ m _ => ?_,
      fun _ _ _ _ _ => hempty, fun cp' h' m _ => ?_⟩
    · rw [huniq cp' h', hzero, hreads']
    · rw [reservedReads, hreads', ledgerReads, hempty]
      exact Nat.zero_le _
  | @node _ old cp node hold hcp hrow hnext hadvances hmoved =>
    have hbefore := fun hentry => h.before old node hold hnext hentry
    cases hmoved with
    | @ended _ state hearly hphase hsame =>
      refine h.plain hold hcp hrow hadvances.budget hsame (by simp) (fun _ => hphase) (by simp) ?_ fun _ _ _ => ?_
      · rintro n ⟨⟩ hentry
        cases hentry
      · exact hs.early old node hold hnext hearly
    | triaged _ hsame =>
      refine h.plain hold hcp hrow hadvances.budget hsame (by simp) (by simp) (fun _ => ?_) (fun _ _ _ => ?_)
        fun hend => ?_
      · exact h.unreserved old hold (.inl hnext)
      · exact hbefore rfl
      · cases hend .reserve rfl
    | reserved _ hadds =>
      refine h.reserved hold hcp (hrow ▸ hs.early old .reserve hold hnext rfl) hnext hadvances rfl hadds
    | collected _ hsame =>
      refine h.plain hold hcp hrow hadvances.budget hsame (by simp) (by simp) (by simp) (fun _ _ _ => ?_)
        fun hend => ?_
      · exact hbefore rfl
      · cases hend .rank rfl
    | ranked hphase hadds => exact h.rank hold hcp hrow hnext hadvances.budget rfl (.inl ⟨hphase, hadds⟩)
    | abandoned hphase hsame => exact h.rank hold hcp hrow hnext hadvances.budget rfl (.inr ⟨hphase, hsame⟩)
    | finished hsame =>
      refine h.plain hold hcp hrow hadvances.budget hsame (by simp) (by simp) (by simp) (by simp) fun _ hnr hna => ?_
      refine h.uncharged old hold (fun n hn => ?_) hnr hna
      rw [hnext] at hn
      cases hn
      rfl

/-- Without a read charge the ledger has no reads, and a read charge is one at least. -/
theorem noReadCharge_iff : NoReadCharge incidentId s ↔ ∀ m, m.ofReads = true → ledgerReads incidentId s m = 0 := by
  unfold NoReadCharge ledgerReads
  cases hrow : s.budgets incidentId.val with
  | none => simp
  | some row =>
    simp only [Option.some.injEq, forall_eq', Option.elim_some]
    obtain ⟨htools, hbackends⟩ := total_reads row.charges
    constructor
    · intro hnone m hm
      have hempty : readCharges row.charges = [] := by
        refine List.filterMap_eq_nil_iff.mpr fun c hc => ?_
        cases c with
        | model c => rfl
        | reads c => exact absurd hc (hnone c)
      rw [hempty] at htools hbackends
      cases m with
      | toolCalls => exact htools
      | backendReads => exact hbackends
      | _ => cases hm
    · intro hzero c hc
      have hmem : c ∈ readCharges row.charges := List.mem_filterMap.mpr ⟨.reads c, hc, rfl⟩
      have hsum := htools ▸ hzero .toolCalls rfl
      have hlength := List.sum_eq_zero_iff.mp hsum c.requests.length (List.mem_map_of_mem hmem)
      have := c.bounded.1
      omega

variable [Retention] [SourceChecks] [Rendering] [BaselineTexts] {c : Sessions Host Durable InvestigationState}

/-- **The reads of an investigation**, in every history of starts, resumptions and crashes of one that had
nothing reserved. What is reserved never exceeds the budget. The state at the end has counted all of it if and
only if the rank node was not saved without a ranking while a read was charged. -/
theorem reads_allowed (hcheckpoint : s₀.checkpoints incidentId.val = none)
    (hrow : s₀.budgets incidentId.val = none) (h : Serial Environment (GraphCall root incidentId) s₀ c) {cp : Checkpoint}
    (hcp : c.shared.checkpoints incidentId.val = some cp) :
    (∀ m, m.ofReads = true →
      reservedReads incidentId c.shared c.events m ≤ cp.state.budget.allowance m) ∧
    (cp.state.phase = .finished →
      ((∀ m, m.ofReads = true → cp.state.counter m = reservedReads incidentId c.shared c.events m) ↔
        (Abandoned incidentId c.events → NoReadCharge incidentId c.shared))) := by
  have hstart : Staged incidentId s₀ := by
    have hnone : ∀ cp, s₀.checkpoints incidentId.val ≠ some cp := by simp [hcheckpoint]
    exact ⟨fun _ => hrow, fun cp hcp => absurd hcp (hnone cp), fun cp _ hcp => absurd hcp (hnone cp),
      fun cp _ hcp => absurd hcp (hnone cp), fun cp hcp => absurd hcp (hnone cp), fun cp hcp => absurd hcp (hnone cp)⟩
  have htally : Tallied incidentId s₀ [] := by
    refine ⟨fun _ => ⟨fun m => rfl, by simp [Ranked], by simp [Abandoned]⟩, ?_, ?_, ?_, ?_, ?_, ?_, ?_⟩
    · exact fun cp hcp => absurd (hcheckpoint.symm.trans hcp) (by simp)
    · exact fun cp _ hcp => absurd (hcheckpoint.symm.trans hcp) (by simp)
    · simp [Ranked]
    all_goals exact fun cp hcp => absurd (hcheckpoint.symm.trans hcp) (by simp)
  have hkeep : ∀ (g : History Host) s ev s', Staged incidentId s → Accounting incidentId s ev s' →
      Staged incidentId s' := fun _ _ _ _ hs hstep => hstep.staged hs
  have hassures : ∀ p s, GraphCall root incidentId p → Staged incidentId s →
      Assures Environment (fun _ => Accounting incidentId) p [] s fun _ _ _ => True := fun _ _ => call_accounting
  obtain ⟨hstaged, -⟩ := h.guarded hstart hkeep hassures
  have htallied := h.tally hstart hkeep hassures htally fun _ _ _ _ _ hs ht hstep => ht.step hs hstep
  refine ⟨htallied.allowed cp hcp, fun hfinished => ?_⟩
  have hends : ∀ node, cp.next = some node → node.entry = none := by
    intro node hnext
    cases hentry : node.entry with
    | none => rfl
    | some phase =>
      have hphase := (hstaged.entered cp node hcp hnext phase hentry).1
      rw [hfinished] at hphase
      subst hphase
      cases node <;> cases hentry
  by_cases hranked : Ranked incidentId c.events
  · exact iff_of_true (htallied.ranked cp hcp hranked) fun habandoned =>
      absurd habandoned (htallied.exclusive hranked)
  · have hcounter := htallied.unranked cp hcp hranked
    have hsum : (∀ m, m.ofReads = true → cp.state.counter m = reservedReads incidentId c.shared c.events m) ↔
        ∀ m, m.ofReads = true → ledgerReads incidentId c.shared m = 0 := by
      refine forall₂_congr fun m hm => ?_
      rw [hcounter m hm, reservedReads]
      omega
    rw [hsum, ← noReadCharge_iff]
    refine ⟨fun hnone _ => hnone, fun hnone => ?_⟩
    by_cases habandoned : Abandoned incidentId c.events
    · exact hnone habandoned
    · intro row hrow
      rw [htallied.uncharged cp hcp hends hranked habandoned] at hrow
      cases hrow

end Histories

end Model

/-! ### A resumption that comes too late -/

section TooLate

attribute [local instance] plainPlatform plainRetention plainRendering plainChecks plainTexts

theorem unasked_bounded : ∀ q ∈ (none : Option String), 1 ≤ q.toList.length ∧ q.toList.length ≤ 240 := by simp

theorem unasked_scope : queryScope .workloadStatus none = true := rfl

/-- A read of a workload. -/
def workloadRead : ReadRequest := ⟨.workloadStatus, .paymentsApi, none, unasked_bounded, unasked_scope⟩

/-- A decision that asks for it. -/
def readDecision : ReasoningDecision where
  decision := .read
  summary := ⟨"Read the workload.", by decide⟩
  reads := [workloadRead]
  hypotheses := []
  readsBounded := by decide
  hypothesesBounded := by decide
  coherent := by decide

theorem localKind_allowed : ReportMode.localKind = .localKind ∨ ReportMode.localKind = .fixtureReplay := .inl rfl

/-- A worker that ranks by a model, and pauses before. -/
def modelWorker : InvestigationWorker where
  nodes := ⟨"incidents", some fun state =>
    .ok { sampleLoop with store := artifactsRoot "incidents" state.incident.incidentId }⟩
  pause := true
  mode := .localKind
  collectionProfile := .instantV1
  rankingProfile := ⟨"model-v1", by decide⟩
  rankingMethod := .modelFixture
  profiled := by simp
  methodical := by simp
  local_or_replayed := localKind_allowed

/-- Four reads more than the collection makes. -/
def modelBudget : InvestigationBudget :=
  ⟨⟨6, by decide⟩, ⟨24, by decide⟩, ⟨38, by decide⟩, seconds 600⟩

/-- A host at this time, whose model asks for a read that cannot be submitted. -/
def readingOutside (now : Time) : (e : Effect) → Except Fault e.Reply
  | .lock _ => .ok ()
  | .mkdir _ => .ok ()
  | .utcNow => .ok now
  | .elapsed => .ok .zero
  | .newId => .ok "trace"
  | .writeAttempt _ _ _ => .ok ()
  | .collect _ => .ok ⟨"inc-1", [], []⟩
  | .authority => .ok .ok
  | .countTokens _ _ => .ok 10
  | .observe _ _ _ _ => .ok ⟨.ok, some readDecision, [], by decide⟩
  | _ => .error (.other "")

/-- The start, up to the pause. -/
def pausedRun : Sessions Host Durable InvestigationState :=
  Sessions.ran (Durable.handler (readingOutside 0)) ⟨.empty, []⟩
    (modelWorker.start sandboxIncident (some modelBudget))

/-- The state before the ranking. -/
def readyState : InvestigationState :=
  ((pausedRun.shared.checkpoints sandboxIncident.incidentId.val).map Checkpoint.state).getD
    (modelWorker.initial sandboxIncident modelBudget)

theorem four_steps : 4 ≤ 16 := by decide

/-- The state in which the model ranks. -/
def runningState : InvestigationState := { readyState with stepsUsed := ⟨4, four_steps⟩ }

/-- Its loop. -/
def rankingLoop : ReasoningLoop :=
  { sampleLoop with store := artifactsRoot "incidents" sandboxIncident.incidentId }

/-- What it is about. -/
def rankingRun : Investigation := ⟨sandboxIncident, plainDigest 'b'⟩

/-- The system message of its prompt. -/
def promptSystem : String := PROVIDER_INSTRUCTION ++ Rendering.decisionSchema

/-- The user message. -/
def promptUser : String :=
  (promptData rankingLoop rankingRun { evidence := [] } 1 ⟨[], 0⟩ [] false).text .compact

theorem length_append (a b : String) : (a ++ b).toList.length = a.toList.length + b.toList.length := by
  rw [String.toList_append, List.length_append]

theorem promptSystem_ok : contentOk promptSystem = true := by
  have hlength : promptSystem.toList.length ≤ 32768 ∧ 1 ≤ promptSystem.toList.length := by
    unfold promptSystem PROVIDER_INSTRUCTION
    rw [length_append, length_append, length_append, length_append, length_append]
    -- the characters of the literals are written out before the kernel counts them
    repeat rw [String.toList_ofList]
    decide +kernel
  simp only [contentOk, hlength, decide_true, Bool.and_self]

theorem promptData_weight :
    (promptData rankingLoop rankingRun { evidence := [] } 1 ⟨[], 0⟩ [] false).weight ≤ 32768 := by
  decide +kernel

theorem promptUser_ok : contentOk promptUser = true := by
  have hlength : promptUser.toList.length ≤ 32768 := by
    rw [promptUser, Json.text, String.toList_ofList]
    exact (Json.dumps_length _).trans promptData_weight
  have hopen : 1 ≤ promptUser.toList.length := by
    rw [promptUser, Json.text, String.toList_ofList, promptData, Json.dumps]
    simp
  simp only [contentOk, hlength, hopen, decide_true, Bool.and_self]

/-- A prompt within the bounds is prepared. -/
theorem prepare_eq (L : ReasoningLoop) (T : LoopHost) {system user : String} (hsystem : contentOk system = true)
    (huser : contentOk user = true) :
    prepare L T system user = (T.countTokens system user).bind fun count =>
      (ofResult (UpTo.validate 100000 count)).bind fun inputTokens =>
        (raiseIf (L.settings.inputTokenLimit.val < count ∨
          (L.settings.tokenAccounting = .providerCeiling ∧ count ≠ L.settings.inputTokenLimit.val))
          (Fault.value "prepared prompt exceeds model input allowance")).bind fun _ =>
        .done ⟨⟨system, hsystem⟩, ⟨user, huser⟩, inputTokens, L.settings.tokenAccounting⟩ :=
  dif_pos ⟨hsystem, huser⟩

/-- The prompt of the first turn. -/
theorem prompt_eq : LoopSession.prompt rankingLoop .live rankingRun { evidence := [] } 1 ⟨[], 0⟩ =
    (ask (.countTokens promptSystem promptUser)).bind fun count =>
      (ofResult (UpTo.validate 100000 count)).bind fun inputTokens =>
        (raiseIf (rankingLoop.settings.inputTokenLimit.val < count ∨
          (rankingLoop.settings.tokenAccounting = .providerCeiling ∧
            count ≠ rankingLoop.settings.inputTokenLimit.val))
          (Fault.value "prepared prompt exceeds model input allowance")).bind fun _ =>
        .done ⟨sandboxIncident.incidentId, modelOperation 1, plainDigest 'b', ⟨[], 0⟩,
          ⟨promptSystem, promptSystem_ok⟩, ⟨promptUser, promptUser_ok⟩, inputTokens, .fixtureExact⟩ := by
  have hlocal : rankingLoop.isLocal = false := by decide +kernel
  have hchecked : LoopSession.checkedBy rankingLoop ⟨[], 0⟩ = .ok [] := by
    unfold LoopSession.checkedBy
    exact if_neg (by rw [hlocal]; exact Bool.false_ne_true)
  have hdone : ofResult (I := Host) (Except.ok ([] : List (String × List Identifier))) = .done [] := rfl
  have hprepare : LoopSession.prompt rankingLoop .live rankingRun { evidence := [] } 1 ⟨[], 0⟩ =
      (prepare rankingLoop .live promptSystem promptUser).bind fun prepared =>
        .done ⟨rankingRun.incident.incidentId, modelOperation 1, rankingRun.binding, ⟨[], 0⟩, prepared⟩ := by
    unfold LoopSession.prompt promptSystem promptUser
    rw [hchecked, hdone, bind_eq, done_bind]
    simp only [hlocal, Bool.false_and]
    rw [if_neg Bool.false_ne_true]
    rfl
  rw [hprepare, prepare_eq rankingLoop .live promptSystem_ok promptUser_ok]
  simp only [bind_assoc, done_bind]
  rfl

/-- The prepared prompt. -/
def preparedTurn : PreparedTurn :=
  ⟨sandboxIncident.incidentId, modelOperation 1, plainDigest 'b', ⟨[], 0⟩,
    ⟨⟨promptSystem, promptSystem_ok⟩, ⟨promptUser, promptUser_ok⟩, ⟨10, by decide⟩, .fixtureExact⟩⟩

/-- What the model answers. -/
def readingReceipt : ModelReceipt :=
  ⟨sandboxIncident.incidentId, modelOperation 1, plainDigest 'a', ⟨.ok, some readDecision, [], by decide⟩⟩

theorem readReceipt_accepted : (readingReceipt.observation.decision.bind fun d =>
    d.failure (ReasoningContext.evidenceIds ⟨[], 0⟩) rankingLoop.causes) = none := by
  decide +kernel

/-- An artifact that is held is restored. -/
theorem restored {α β : Type} {root : String} {digest : Digest} {schema : Artifact → Option β}
    (content : Artifact) {value : β} {f : β → Program Host α} {s s' : Durable} {Q : History Host → Durable → Prop}
    (ha : s.Answer (.readArtifact root digest) (.ok (some content)) s') (hintact : intact digest content = true)
    (hschema : schema content = some value)
    (h : (f value).Leads Environment s' fun g s'' => Q (⟨.readArtifact root digest, .ok (some content)⟩ :: g) s'') :
    (((restore digest schema).program root).bind f).Leads Environment s Q := by
  rw [restore, Reading.program, call_bind]
  refine Leads.act _ ha ?_
  simpa [hintact, hschema, Reading.program] using h

/-- What the checkpoint counts, and what was reserved, after one more resumption, at 600 seconds. -/
def countedLate (h : History Host) (s : Durable) : Option (Phase × ℕ × ℕ) :=
  let o := (modelWorker.resume sandboxIncident.incidentId).run
    (Durable.handler (readingOutside (seconds 600))) s
  (o.state.checkpoints sandboxIncident.incidentId.val).map fun cp =>
    (cp.state.phase, cp.state.counter .toolCalls,
      reservedReads sandboxIncident.incidentId o.state (h ++ o.events) .toolCalls)

/-- The resumption after the pause comes to the charge of a read. If it ends there, the next one is late. -/
theorem charged_then_late : (modelWorker.resume sandboxIncident.incidentId).Leads Environment pausedRun.shared
    fun g s => countedLate (pausedRun.events ++ g) s = some (.finished, 20, 21) := by
  have answers := Durable.handler_answer (readingOutside 0)
  refine Leads.act (.ok ()) (answers _ _) ?_
  refine Leads.act (.ok (some ⟨readyState, some .rank⟩)) (answers _ _) ?_
  change Leads Environment (modelWorker.drive _ 16 false .rank readyState) _ _
  refine Leads.bind (p := modelWorker.nodes.run .rank readyState) ?_
  -- the attempt
  refine Leads.act (.ok ()) (answers _ _) ?_
  refine Leads.act (.ok (3 : ℕ)) (answers _ _) ?_
  refine Leads.act (.ok (0 : Time)) (answers _ _) ?_
  refine Leads.act (.ok (0 : Time)) (answers _ _) ?_
  refine Leads.act (.ok ()) (answers _ _) ?_
  refine Leads.act (.ok ()) (answers _ _) ?_
  change Leads Environment ((rank modelWorker.nodes runningState).bind _) _ _
  refine Leads.bind (Leads.tryCatch ?_)
  change Leads Environment ((rankingLoop.run .live sandboxIncident []).bind _) _ _
  refine Leads.bind ?_
  -- the binding, the lock and the ledger of the run
  refine Leads.act (.ok (plainDigest 'b')) (answers _ _) ?_
  refine Leads.act (.ok ()) (answers _ _) ?_
  refine Leads.act (.ok ()) (answers _ _) ?_
  change Leads Environment
    ((LoopSession.turns rankingLoop .live rankingRun 2 1 0 { evidence := [] }).bind _) _ _
  refine Leads.bind ?_
  refine Leads.act (.ok Authority.ok) (answers _ _) ?_
  change Leads Environment
    ((LoopSession.model rankingLoop .live rankingRun { evidence := [] } 1 ⟨[], 0⟩).bind _) _ _
  rw [LoopSession.model]
  simp only [prompt_eq]
  -- the charge of the prompt, the observation and its receipt
  refine Leads.act _ (answers _ _) ?_
  refine Leads.act (.ok (10 : ℕ)) (answers _ _) ?_
  refine Leads.act (.ok (plainDigest 'a')) (answers _ _) ?_
  refine Leads.act _ (answers _ _) ?_
  refine Leads.act (.ok true) (answers _ _) ?_
  refine Leads.act _ (answers _ _) ?_
  refine Leads.act (.ok (plainDigest 'c')) (answers _ _) ?_
  refine Leads.act _ (answers _ _) ?_
  refine Leads.act _ (answers _ _) ?_
  refine Leads.act (.ok true) (answers _ _) ?_
  simp only [bind_eq, pure_eq, done_bind, raiseIf, Bool.true_eq_false, if_false]
  rw [LoopSession.restoreModel]
  simp only [bind_eq, bind_assoc]
  refine restored (.preparedTurn preparedTurn) (answers _ _) rfl rfl ?_
  refine Leads.act _ (answers _ _) ?_
  change Leads Environment
    ((((restore (plainDigest 'c') Artifact.asModelReceipt).program rankingLoop.store).bind _).bind _) _ _
  rw [bind_assoc]
  refine restored (.modelReceipt readingReceipt) (answers _ _) rfl rfl ?_
  rw [raiseIf, if_neg (not_ne_iff.mpr ?_), done_bind, readReceipt_accepted]
  -- the charge of the read
  · refine Leads.act _ (answers _ _) ?_
    refine Leads.act _ (answers _ _) ?_
    refine Leads.act (.ok true) (answers _ _) ?_
    refine Leads.here ?_
    decide +kernel
  · rfl

/-- **A resumption after the last moment to start a node ends the investigation, and the read that the ledger
has is not counted**: 20 of 21. -/
theorem abandoned_reads : ∃ (c : Sessions Host Durable InvestigationState) (cp : Checkpoint),
    Serial Environment (GraphCall "incidents" sandboxIncident.incidentId) .empty c ∧
      c.shared.checkpoints sandboxIncident.incidentId.val = some cp ∧ cp.state.phase = .finished ∧
      cp.state.counter .toolCalls = 20 ∧
      reservedReads sandboxIncident.incidentId c.shared c.events .toolCalls = 21 := by
  have hpaused : Serial Environment (GraphCall "incidents" sandboxIncident.incidentId) .empty pausedRun :=
    Serial.call .refl (Durable.handler_answer _) (.start modelWorker sandboxIncident _ rfl rfl)
  obtain ⟨g, q, s, hrun, hcounted⟩ := charged_then_late
  have hcharged : Serial Environment (GraphCall "incidents" sandboxIncident.incidentId) .empty
      ⟨s, pausedRun.log ++ [⟨modelWorker.resume sandboxIncident.incidentId, g, q⟩]⟩ :=
    Serial.perform pausedRun.log hpaused (.resume modelWorker rfl) hrun
  obtain ⟨cp, hcp, hcounts⟩ := Option.map_eq_some_iff.mp hcounted
  obtain ⟨hphase, hcounter, hreserved⟩ := Prod.mk.inj hcounts |>.imp_right Prod.mk.inj
  refine ⟨_, cp, Serial.call hcharged (Durable.handler_answer (readingOutside (seconds 600)))
    (.resume modelWorker rfl), hcp, hphase, hcounter, ?_⟩
  rw [← hreserved]
  congr 1
  simp [Sessions.events, Sessions.ran]

/-- An investigation that ends in a report without a model has reserved what it counts. -/
theorem reads_allowed_sample : ∃ cp, (collectorRun [sampleItem]).shared.checkpoints "inc-1" = some cp ∧
    cp.state.phase = .finished ∧ ∀ m, m.ofReads = true →
      reservedReads sampleId (collectorRun [sampleItem]).shared (collectorRun [sampleItem]).events m ≤
          cp.state.budget.allowance m ∧
        cp.state.counter m =
          reservedReads sampleId (collectorRun [sampleItem]).shared (collectorRun [sampleItem]).events m := by
  have hserial : Serial Environment (GraphCall "incidents" sampleId) .empty (collectorRun [sampleItem]) :=
    Serial.call .refl (collectorHost_answer [sampleItem]) (.start sampleWorker sandboxIncident _ rfl rfl)
  have hended : ((collectorRun [sampleItem]).shared.checkpoints sampleId.val).map
      (fun cp => cp.state.phase) = some .finished := by decide +kernel
  have hnone : ((collectorRun [sampleItem]).shared.budgets sampleId.val).isNone = true := by
    decide +kernel
  -- from here on the run is any run
  generalize collectorRun [sampleItem] = c at hserial hended hnone ⊢
  obtain ⟨cp, hcp, hphase⟩ := Option.map_eq_some_iff.mp hended
  have huncharged : NoReadCharge sampleId c.shared := by
    intro row hrow
    rw [Option.isNone_iff_eq_none.mp hnone] at hrow
    cases hrow
  obtain ⟨hallowed, hcounted⟩ := reads_allowed rfl rfl hserial hcp
  exact ⟨cp, hcp, hphase, fun m hm => ⟨hallowed m hm, (hcounted hphase).mpr (fun _ => huncharged) m hm⟩⟩

end TooLate

end PayOps.Orchestrator
