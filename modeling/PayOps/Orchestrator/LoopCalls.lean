import PayOps.Orchestrator.Loop

/-!
# What a run asks for

Most methods of the loop only read, and retain artifacts (`Plain`). The others charge an operation,
dispatch it under a new grant, and complete it; nothing else of a run writes to the ledger or
reaches the model or a backend.

## The model

A `Discipline` is a property of programs that plain programs have, that composition keeps, and that
holds of a dispatch after its grant. What a run asks for is proved once, for every discipline.

## What is proved

* `restoreModel_plain`, `restoreReads_plain` — what is charged already is only restored.
* `turns_discipline`, `run_discipline` — a run has every discipline over the operations of its turns.
* `run_ledgered` — a run writes to the ledger only as the ledger does.
-/

namespace PayOps.Orchestrator

open Process Program Evidence

variable [Platform]

/-- A request of a run that neither writes to the ledger nor reaches the model or a backend. -/
def Effect.plain : Effect → Bool
  | selectRow _ => true
  | writeArtifact _ _ => true
  | readArtifact _ _ => true
  | lock _ => true
  | authority => true
  | countTokens _ _ => true
  | await _ _ => true
  | refresh _ => true
  | _ => false

/-- A program of plain requests. -/
def Plain {α : Type} (p : Program Host α) : Prop := Within (fun e : Effect => e.plain = true) p

theorem Plain.mono {α : Type} {p : Program Host α} {P : Effect → Prop} (h : Plain p)
    (hP : ∀ e, e.plain = true → P e) : Within P p := Within.mono h hP

theorem plain_reading {α : Type} (root : String) (r : Reading α) : Plain (r.program root) :=
  (Reading.within_program root r).mono (by rintro e ⟨digest, rfl⟩; rfl)

theorem plain_ask {e : Effect} (h : e.plain = true) : Plain (ask e) := within_perform.mpr h

namespace BudgetLedger

theorem get_plain (runId : String) : Plain (get runId) := by
  refine (plain_ask rfl).bind fun row => ?_
  cases row with
  | none => trivial
  | some payload => exact within_ofResult_bind fun record _ => within_raiseIf.bind fun _ => trivial

theorem completion_plain (runId operation : Identifier) : Plain (ledger.completion runId operation) :=
  (get_plain _).bind fun _ => trivial

end BudgetLedger

variable [Retention]

theorem write_plain (root : String) (content : Artifact) : Plain (ArtifactStore.write root content) :=
  within_raiseIf.bind fun _ => plain_ask rfl

/-! ### Reads -/

section Registry

variable [SourceChecks]

namespace ReadRegistry

theorem verifyFound_plain (root : String) (incidentId : Identifier) (request : ReadRequest)
    (items : List EvidenceItem) : Plain (verifyFound root incidentId request items) := by
  induction items with
  | nil => trivial
  | cons item items ih =>
    exact within_raiseIf.bind fun _ => (plain_reading root _).bind fun _ => ih

theorem authorizedRead_plain (root : String) (incidentId : Identifier) (request : ReadRequest)
    (before : Except Fault Bool) (found : Except Fault (List EvidenceItem)) (after : Except Fault Bool) :
    Plain (authorizedRead root incidentId request before found after) := by
  refine Within.tryCatch ?_ fun x => ?_
  · refine (within_ofResult _).bind fun granted => ?_
    cases granted with
    | false => trivial
    | true =>
      refine (within_ofResult _).bind fun evidence => ?_
      by_cases hlen : evidence.length ≤ 64
      · simp only [hlen, dif_pos]
        refine within_raiseIf.bind fun _ => (verifyFound_plain ..).bind fun _ =>
          (within_ofResult _).bind fun granted => ?_
        cases granted <;> trivial
      · simp only [hlen]
        trivial
  · split <;> trivial

theorem resultAll_plain (root : String) (incidentId operation : Identifier)
    (pending : List (ReadRequest × Bool)) :
    Plain (resultAll LoopHost.live.reads root incidentId operation pending) := by
  induction pending with
  | nil => trivial
  | cons head pending ih =>
    obtain ⟨request, submitted⟩ := head
    have hresult : Plain (result LoopHost.live.reads root incidentId operation request submitted) := by
      cases submitted with
      | false => trivial
      | true =>
        refine Within.tryCatch ((plain_ask rfl).bind fun awaited => ?_) fun _ => trivial
        cases awaited with
        | late => trivial
        | raised => trivial
        | completed before found after => exact authorizedRead_plain ..
    exact hresult.bind fun _ => ih.bind fun _ => trivial

omit [Retention] [SourceChecks] in
theorem publish_plain (operation : Identifier) (results : List ReadResult) :
    Plain (publish LoopHost.live.reads operation results) := by
  unfold publish
  split_ifs
  · exact (plain_ask rfl).bind fun _ => trivial
  · trivial

end ReadRegistry

end Registry

variable [Rendering] [SourceChecks]

namespace LoopSession

variable (L : ReasoningLoop) (I : Investigation)

/-! ### Methods that only read -/

theorem context_plain (s : LoopSession) : Plain (context L I s) := plain_reading _ _

omit [Retention] [Rendering] [SourceChecks] in
theorem receipt_plain (s : LoopSession) (operation : Identifier) :
    Plain (receipt .live I s operation) := by
  refine (BudgetLedger.completion_plain _ _).bind fun digest => ?_
  cases digest <;> trivial

omit [Retention] [Rendering] [SourceChecks] in
theorem prepare_plain (system user : String) : Plain (prepare L .live system user) := by
  unfold prepare
  split_ifs
  · exact (plain_ask rfl).bind fun _ => (within_ofResult _).bind fun _ => within_raiseIf.bind fun _ => trivial
  · trivial

omit [Retention] in
theorem prompt_plain (s : LoopSession) (turn : ℕ) (context : ReasoningContext) :
    Plain (prompt L .live I s turn context) := by
  exact (within_ofResult _).bind fun _ => (prepare_plain L _ _).bind fun _ => trivial

omit [Rendering] [SourceChecks] in
/-- **A charged call of the model is only restored.** -/
theorem restoreModel_plain (s : LoopSession) (turn : ℕ) (context : ReasoningContext)
    (charged : Charge) : Plain (restoreModel L .live I s turn context charged) := by
  cases charged with
  | reads _ => trivial
  | model charge =>
    refine (plain_reading _ _).bind fun prepared => within_raiseIf.bind fun _ =>
      (receipt_plain I s _).bind fun out => ?_
    obtain ⟨digest, s'⟩ := out
    cases digest with
    | error reason => trivial
    | ok digest =>
      refine (plain_reading _ _).bind fun saved => within_raiseIf.bind fun _ => ?_
      dsimp only
      split <;> trivial

omit [Rendering] in
theorem acceptItems_plain (result : ReadResult) (evidence items : List EvidenceItem) :
    Plain (acceptItems L I result evidence items) := by
  induction items generalizing evidence with
  | nil => trivial
  | cons item items ih =>
    refine Within.bind ?_ fun evidence => ih evidence
    refine within_raiseIf.bind fun _ => (plain_reading _ _).bind fun _ => ?_
    cases evidence.find? fun x => x.evidenceId == item.evidenceId with
    | none => trivial
    | some held => exact within_raiseIf.bind fun _ => trivial

omit [Rendering] in
theorem acceptResults_plain (m : Merged) (results : List ReadResult) :
    Plain (acceptResults L I m results) := by
  induction results generalizing m with
  | nil => trivial
  | cons result results ih =>
    refine within_raiseIf.bind fun _ => ?_
    cases resultStop result.status with
    | some reason => trivial
    | none => exact (acceptItems_plain L I _ _ _).bind fun _ => ih _

omit [Rendering] in
theorem acceptReads_plain (s : LoopSession) (results : List ReadResult) :
    Plain (acceptReads L I s results) := by
  refine (acceptResults_plain L I _ _).bind fun out => ?_
  obtain ⟨outcome, merged⟩ := out
  cases outcome with
  | error reason => trivial
  | ok _ =>
    dsimp only
    split_ifs <;> trivial

omit [Rendering] in
/-- **A charged batch of reads is only restored.** -/
theorem restoreReads_plain (s : LoopSession) (turn : ℕ) (requests : List ReadRequest) :
    Plain (restoreReads L .live I s turn requests) := by
  refine (receipt_plain I s _).bind fun out => ?_
  obtain ⟨digest, s'⟩ := out
  cases digest with
  | error reason => trivial
  | ok digest =>
    exact (plain_reading _ _).bind fun _ => within_raiseIf.bind fun _ => acceptReads_plain L I _ _

end LoopSession

/-! ### Disciplines -/

/-- A dispatch of an operation: a call of the model, or the hand-over of distinct reads. -/
inductive Dispatch (operation : Identifier) : {β : Type} → Program Host β → Prop
  /-- The model is asked. -/
  | model (prompt : ModelPrompt) (evidenceIds : List Identifier) (causes : List String) :
    Dispatch operation (ask (.observe operation prompt evidenceIds causes))
  /-- Reads are handed to the pool. -/
  | reads {requests : List ReadRequest} : requests.Nodup →
    Dispatch operation (ReadRegistry.submitAll LoopHost.live.reads operation requests)

/-- A property of programs that plain programs have, and that composition keeps. -/
structure Composed (Q : ∀ {α : Type}, Program Host α → Prop) : Prop where
  /-- Plain programs have it. -/
  plain : ∀ {α : Type} {p : Program Host α}, Plain p → Q p
  /-- What follows a program may use that it came to its result. -/
  bind : ∀ {α β : Type} {p : Program Host α} {f : α → Program Host β}, Q p →
    (∀ a h, Runs p h (.ok a) → Q (f a)) → Q (p.bind f)

omit [Retention] [Rendering] [SourceChecks] in
theorem Composed.done {Q : ∀ {α : Type}, Program Host α → Prop} (hQ : Composed @Q) {α : Type} (a : α) :
    Q (.done a) := hQ.plain trivial

/-- A property of programs that is kept by all that a run of `runId` does for operations in `ops`. -/
structure Discipline (runId : Identifier) (ops : Identifier → Prop)
    (Q : ∀ {α : Type}, Program Host α → Prop) : Prop where
  /-- Plain programs have it. -/
  plain : ∀ {α : Type} {p : Program Host α}, Plain p → Q p
  /-- What follows a program may use that it came to its result. -/
  bind : ∀ {α β : Type} {p : Program Host α} {f : α → Program Host β}, Q p →
    (∀ a h, Runs p h (.ok a) → Q (f a)) → Q (p.bind f)
  /-- A dispatch may follow the grant of its operation. -/
  spend : ∀ {α β : Type} {record : BudgetRecord} {charge : Charge} {act : Program Host β}
    {go : β → Program Host α} {stop : Program Host α}, record.runId = runId →
    ops charge.operationId → Dispatch charge.operationId act → (∀ b, Q (go b)) → Q stop →
    Q ((BudgetLedger.reserve record charge).bind fun grant => if grant = .new then act.bind go else stop)
  /-- An operation is completed. -/
  complete : ∀ (record : BudgetRecord) {operation : Identifier} (artifact : Digest), ops operation →
    Q (BudgetLedger.complete record operation artifact)

namespace Discipline

variable {runId : Identifier} {ops : Identifier → Prop} {Q : ∀ {α : Type}, Program Host α → Prop}
variable {α : Type}

omit [Retention] [Rendering] [SourceChecks] in
theorem composed (hQ : Discipline runId ops @Q) : Composed @Q := ⟨hQ.plain, hQ.bind⟩

omit [Retention] [Rendering] [SourceChecks] in
theorem done (hQ : Discipline runId ops @Q) (a : α) : Q (.done a) := hQ.composed.done a

omit [Retention] [Rendering] [SourceChecks] in
/-- What follows the run's record may use that it is the run's. -/
theorem get (hQ : Discipline runId ops @Q) {f : BudgetRecord → Program Host α}
    (hf : ∀ record, record.runId = runId → Q (f record)) :
    Q ((BudgetLedger.get runId.val).bind f) :=
  hQ.bind (hQ.plain (BudgetLedger.get_plain _)) fun record _ hr =>
    hf record (Subtype.ext (BudgetLedger.get_ok hr).2)

omit [Rendering] [SourceChecks] in
theorem publish (hQ : Discipline runId ops @Q) {operation : Identifier} (hop : ops operation)
    (root : String) (receipt : Artifact) :
    Q (BudgetLedger.ledger.publish root runId operation receipt) :=
  hQ.bind (hQ.plain (write_plain _ _)) fun digest _ _ => hQ.get fun record _ =>
    hQ.bind (hQ.complete record digest hop) fun _ _ _ => hQ.done _

end Discipline

namespace LoopSession

variable (L : ReasoningLoop) (I : Investigation) {ops : Identifier → Prop}
variable {Q : ∀ {α : Type}, Program Host α → Prop}

/-- **The model is asked under a new charge only.** -/
theorem model_discipline (hQ : Discipline I.incident.incidentId ops @Q) {turn : ℕ}
    (hop : ops (modelOperation turn)) (s : LoopSession) (context : ReasoningContext) :
    Q (model L .live I s turn context) := by
  refine hQ.get fun record hrun => ?_
  cases record.charge? (modelOperation turn) with
  | some charged => exact hQ.plain (restoreModel_plain ..)
  | none =>
    refine hQ.bind (hQ.plain ?_) fun prepared _ _ => ?_
    · refine Within.tryCatch ((prompt_plain ..).bind fun _ => trivial) fun x => ?_
      split_ifs <;> trivial
    cases prepared with
    | none => exact hQ.done _
    | some prepared =>
      refine hQ.bind (hQ.plain (write_plain _ _)) fun digest _ _ => ?_
      refine hQ.spend hrun hop (.model ..) (fun observation => ?_) (hQ.done _)
      exact hQ.bind (hQ.publish hop _ _) fun _ _ _ => hQ.plain (restoreModel_plain ..)

omit [Rendering] in
/-- A batch is handed to the pool under a new charge only. -/
theorem dispatch_discipline (hQ : Discipline I.incident.incidentId ops @Q) {turn : ℕ}
    (hop : ops (readsOperation turn)) {record : BudgetRecord}
    (hrun : record.runId = I.incident.incidentId) (requests : List ReadRequest) :
    Q (ReadRegistry.dispatch LoopHost.live.reads L.store I.incident.incidentId (readsOperation turn)
      requests (reserveReads .live record turn)) := by
  refine hQ.bind (hQ.plain within_raiseIf) fun _ _ hchecked => ?_
  obtain ⟨-, hbatch⟩ := runs_raiseIf_ok.mp hchecked
  obtain ⟨hlen, hnodup⟩ := not_or.mp hbatch
  have hcharge : (1 ≤ requests.length ∧ requests.length ≤ 2) ∧ requests.Nodup ∧
      backendCost requests = backendCost requests := ⟨not_not.mp hlen, not_not.mp hnodup, rfl⟩
  rw [reserveReads, dif_pos hcharge, bind_eq, bind_eq, bind_assoc]
  simp only [pure_eq, done_bind, decide_eq_true_eq]
  refine hQ.spend hrun hop (.reads hcharge.2.1) (fun pending => ?_) (hQ.done _)
  exact hQ.plain ((ReadRegistry.resultAll_plain ..).bind fun _ => ReadRegistry.publish_plain ..)

omit [Rendering] in
/-- **Reads are dispatched under a new charge only.** -/
theorem reads_discipline (hQ : Discipline I.incident.incidentId ops @Q) {turn : ℕ}
    (hop : ops (readsOperation turn)) (s : LoopSession) (requests : List ReadRequest) :
    Q (reads L .live I s turn requests) := by
  refine hQ.get fun record hrun => ?_
  cases record.charge? (readsOperation turn) with
  | some charged =>
    cases charged with
    | reads charge => exact hQ.plain (within_raiseIf.bind fun _ => restoreReads_plain ..)
    | model _ => exact hQ.plain trivial
  | none =>
    refine hQ.bind (dispatch_discipline L I hQ hop hrun requests) fun results _ _ => ?_
    split_ifs
    · exact hQ.done _
    · exact hQ.bind (hQ.publish hop _ _) fun _ _ _ => hQ.plain (restoreReads_plain ..)

omit [Rendering] in
theorem requestReads_discipline (hQ : Discipline I.incident.incidentId ops @Q) {turn : ℕ}
    (hop : ops (readsOperation turn)) (s : LoopSession) (requests : List ReadRequest) :
    Q (requestReads L .live I s turn requests) := by
  unfold requestReads
  dsimp only
  split_ifs
  · exact hQ.done _
  · refine hQ.bind (reads_discipline L I hQ hop _ _) fun out _ _ => ?_
    obtain ⟨outcome, s'⟩ := out
    dsimp only
    split_ifs <;> exact hQ.done _

/-- The operations of the turns from `turn` on, while `remaining` remain. -/
def TurnOperation (turn remaining : ℕ) (operation : Identifier) : Prop :=
  ∃ t, turn ≤ t ∧ t < turn + remaining ∧
    (operation = modelOperation t ∨ operation = readsOperation t)

/-- **The turns of a run**, when asking the model and requesting reads in them has a property that plain
programs have and composition keeps. -/
theorem turns_composed (hQ : Composed @Q) {remaining turn : ℕ}
    (hmodel : ∀ t, turn ≤ t → t < turn + remaining → ∀ s context, Q (model L .live I s t context))
    (hreads : ∀ t, turn ≤ t → t < turn + remaining → ∀ s requests, Q (requestReads L .live I s t requests))
    (invalid : ℕ) (s : LoopSession) : Q (turns L .live I remaining turn invalid s) := by
  have later : ∀ (remaining' turn' invalid : ℕ) (s : LoopSession),
      turn ≤ turn' → turn' + remaining' = turn + remaining →
        Q (turns L .live I remaining' turn' invalid s) := by
    intro remaining'
    induction remaining' with
    | zero => exact fun _ _ _ _ _ => hQ.done _
    | succ remaining' ih =>
      intro turn' invalid s hle hsum
      have hlt : turn' < turn + remaining := by omega
      have hnext := fun invalid s => ih (turn' + 1) invalid s (by omega) (by omega)
      refine hQ.bind (hQ.plain (plain_ask rfl)) fun authority _ _ => ?_
      cases authority.stop with
      | some reason => exact hQ.done _
      | none =>
        refine hQ.bind (hQ.plain (context_plain L I s)) fun context _ _ => ?_
        refine hQ.bind (hmodel turn' hle hlt s context) fun out _ _ => ?_
        obtain ⟨observed, s'⟩ := out
        cases observed with
        | error reason => exact hQ.done _
        | ok observation =>
          dsimp only
          split_ifs
          · exact hQ.done _
          · exact hnext _ _
          · split
            · exact hQ.done _
            · exact hQ.plain trivial
            · split_ifs
              · exact hQ.bind (hQ.plain (within_ofResult _)) fun _ _ _ => hQ.done _
              · refine hQ.bind (hreads turn' hle hlt _ _) fun out _ _ => ?_
                obtain ⟨outcome, s''⟩ := out
                cases outcome with
                | error reason => exact hQ.done _
                | ok _ => exact hnext _ _
  exact later remaining turn invalid s le_rfl rfl

/-- **A run has every discipline over the operations of its turns.** -/
theorem turns_discipline {remaining turn : ℕ}
    (hQ : Discipline I.incident.incidentId (TurnOperation turn remaining) @Q) (invalid : ℕ)
    (s : LoopSession) : Q (turns L .live I remaining turn invalid s) :=
  turns_composed L I hQ.composed
    (fun t hle hlt s context => model_discipline L I hQ ⟨t, hle, hlt, .inl rfl⟩ s context)
    (fun t hle hlt s requests => requestReads_discipline L I hQ ⟨t, hle, hlt, .inr rfl⟩ s requests) invalid s

omit [Retention] [Rendering] [SourceChecks] in
theorem conclude_plain (ended : Ended) : Plain (conclude ended) := by
  unfold conclude
  split_ifs
  · refine (plain_ask rfl).bind fun authority => ?_
    cases authority.stop <;> trivial
  · trivial

/-- What `LoopSession.run` does around its turns is plain. -/
theorem session_composed (hQ : Composed @Q) {initial : List EvidenceItem}
    (hturns : Q (turns L .live I L.limits.modelCalls.val 1 0 ⟨initial, [], [], false, [], []⟩)) :
    Q (run L .live I initial) := by
  refine hQ.bind (hQ.plain (plain_reading _ _)) fun _ _ _ => ?_
  refine hQ.bind hturns fun ended _ _ => hQ.plain ?_
  exact (plain_reading _ _).bind fun _ => (conclude_plain ended).bind fun _ => trivial

end LoopSession

/-- What a run does before its session is plain, apart from the opening of its record. -/
theorem run_composed (L : ReasoningLoop) (incident : Incident) (initial : List EvidenceItem)
    {Q : ∀ {α : Type}, Program Host α → Prop} (hQ : Composed @Q)
    (hopen : ∀ binding, Q (BudgetLedger.openRun incident.incidentId binding L.limits))
    (hsession : ∀ binding, Q (LoopSession.run L .live ⟨incident, binding⟩ initial)) :
    Q (L.run .live incident initial) :=
  hQ.bind (hQ.plain (write_plain _ _)) fun binding _ _ =>
    hQ.bind (hQ.plain (plain_ask rfl)) fun _ _ _ => hQ.bind (hopen binding) fun _ _ _ => hsession binding

/-- **A whole run**, where opening it has the property too. -/
theorem run_discipline (L : ReasoningLoop) (incident : Incident) (initial : List EvidenceItem)
    {Q : ∀ {α : Type}, Program Host α → Prop}
    (hQ : Discipline incident.incidentId (LoopSession.TurnOperation 1 L.limits.modelCalls.val) @Q)
    (hopen : ∀ binding, Q (BudgetLedger.openRun incident.incidentId binding L.limits)) :
    Q (L.run .live incident initial) :=
  run_composed L incident initial hQ.composed hopen fun binding =>
    LoopSession.session_composed L ⟨incident, binding⟩ hQ.composed
      (LoopSession.turns_discipline L ⟨incident, binding⟩ hQ 0 _)

/-! ### Footprints -/

omit [Rendering] [SourceChecks] [Retention] in
/-- A dispatch asks the model, or hands reads to the pool, for its operation. -/
theorem Dispatch.within {operation : Identifier} {β : Type} {act : Program Host β}
    (h : Dispatch operation act) :
    Within (fun e : Effect => (∃ prompt ids causes, e = .observe operation prompt ids causes) ∨
      ∃ request, e = .submit operation request) act := by
  cases h with
  | model prompt ids causes => exact within_perform.mpr (.inl ⟨prompt, ids, causes, rfl⟩)
  | @reads requests hnodup =>
    clear hnodup
    induction requests with
    | nil => trivial
    | cons request requests ih =>
      exact (within_perform.mpr (.inr ⟨request, rfl⟩)).bind fun _ => ih.bind fun _ => trivial

omit [Rendering] [SourceChecks] [Retention] in
/-- A footprint is a discipline. -/
theorem Discipline.within {runId : Identifier} {ops : Identifier → Prop} {P : Effect → Prop}
    (hplain : ∀ e, e.plain = true → P e) (hledger : ∀ e, LedgerRequest ops e → P e)
    (hmodel : ∀ operation prompt ids causes, ops operation → P (.observe operation prompt ids causes))
    (hreads : ∀ operation request, ops operation → P (.submit operation request)) :
    Discipline runId ops (Within P) where
  plain h := h.mono hplain
  bind hp hf := hp.bind_runs hf
  spend := by
    intro α β record charge act go stop _ hop hact hgo hstop
    refine ((BudgetLedger.reserve_requests record hop).mono hledger).bind fun grant => ?_
    split_ifs
    · refine Within.bind (hact.within.mono ?_) hgo
      rintro e (⟨prompt, ids, causes, rfl⟩ | ⟨request, rfl⟩)
      · exact hmodel _ _ _ _ hop
      · exact hreads _ _ hop
    · exact hstop
  complete record operation artifact hop :=
    (BudgetLedger.complete_requests record hop artifact).mono hledger

/-- **A run writes to the ledger only as the ledger does.** -/
theorem run_ledgered (L : ReasoningLoop) (incident : Incident) (initial : List EvidenceItem) :
    Within Ledgered (L.run .live incident initial) := by
  refine run_discipline L incident initial (.within ?_ (fun _ => LedgerRequest.ledgered)
    (fun _ _ _ _ _ => trivial) fun _ _ _ => trivial) fun binding => ?_
  · intro e he
    cases e <;> trivial
  · have hopen : Within (LedgerRequest AnyOperation)
        (BudgetLedger.openRun incident.incidentId binding L.limits) := BudgetLedger.openRun_requests ..
    exact hopen.mono fun _ => LedgerRequest.ledgered

end PayOps.Orchestrator
