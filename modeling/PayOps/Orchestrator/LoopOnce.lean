import PayOps.Orchestrator.LedgerHistory
import PayOps.Orchestrator.LoopCalls

/-!
# A reasoning run never repeats an operation

Any number of runs about one incident share a ledger and an artifact store. They may be on hosts
that do not share the file lock, so their requests interleave in every order, and each may crash
at any point.

## What is proved

* `dispatch_le_one` — an operation asks the model at most once, and hands each of its reads to the
  pool at most once, over all runs.
* `charged_elsewhere` — a run that reads a row in which an operation is charged, without having
  charged it, never dispatches it.
* `model_unresolved`, `reads_unresolved` — a method that finds its operation charged, and no
  result of it, stops with `UNKNOWN_COMPLETION` or an integrity error and dispatches nothing;
  `turns_of_model_stop`, `turns_of_reads_stop` — the run ends there.
* `loop_once` — **main result**: these together.
-/

namespace PayOps.Orchestrator

open Process Program Evidence Relation

variable [Platform]

/-! ### Dispatches -/

/-- The event asks the model for `operation`, or hands a read of it to the pool. -/
def dispatches (operation : Identifier) (read : Option ReadRequest) : Event Host → Bool
  | ⟨.observe op _ _ _, _⟩ => op == operation && read == none
  | ⟨.submit op request, _⟩ => op == operation && read == some request
  | _ => false

section Debt

variable {runId : Identifier} {operation : Identifier} {read : Option ReadRequest}

/-- A dispatch owes one grant of its operation, and none of another one. -/
def owed (operation operation' : Identifier) : ℕ := if operation' = operation then 1 else 0

theorem plain_covered {α : Type} {p : Program Host α} (h : Plain p) :
    Covered (dispatches operation read) (grants runId.val operation) p := by
  refine Covered.of_within h fun ev hev => ?_
  obtain ⟨e, r⟩ := ev
  cases e <;> first | rfl | cases hev

theorem ledger_covered {α : Type} {ops : Identifier → Prop} {p : Program Host α}
    (h : Within (LedgerRequest ops) p) :
    Covered (dispatches operation read) (grants runId.val operation) p := by
  refine Covered.of_within h fun ev hev => ?_
  obtain ⟨e, r⟩ := ev
  cases e <;> first | rfl | cases hev

/-- The reads of a batch are handed over once each. -/
theorem submitAll_debt {operation' : Identifier} {requests : List ReadRequest} :
    Debt (dispatches operation read) (grants runId.val operation)
      (if operation' = operation then requests.countP fun r => read == some r else 0)
      (ReadRegistry.submitAll LoopHost.live.reads operation' requests) := by
  induction requests with
  | nil => exact (covered_done _).debt _
  | cons request requests ih =>
    have hask : Debt (dispatches operation read) (grants runId.val operation)
        (if operation' = operation ∧ read = some request then 1 else 0)
        (ask (.submit operation' request)) := by
      split_ifs with hsame
      · exact debt_perform
      · exact (covered_perform fun r => by simpa [dispatches, Subtype.ext_iff] using hsame).debt 0
    refine (hask.bind fun submitted => ih.bind fun rest => (covered_done _).debt 0).mono ?_
    rw [List.countP_cons]
    by_cases hop : operation' = operation <;> by_cases hread : read = some request <;>
      simp [hop, hread]; omega

theorem Dispatch.debt {operation' : Identifier} {β : Type} {act : Program Host β}
    (h : Dispatch operation' act) :
    Debt (dispatches operation read) (grants runId.val operation) (owed operation operation') act := by
  unfold owed
  cases h with
  | model prompt ids causes =>
    split_ifs with hop
    · exact debt_perform
    · exact (covered_perform fun r => by simp [dispatches, beq_false_of_ne hop]).debt 0
  | @reads requests hnodup =>
    refine submitAll_debt.mono ?_
    split_ifs
    · cases read with
      | none => simp
      | some request =>
        have hcount := List.nodup_iff_count_le_one.mp hnodup request
        simpa [List.count, Bool.beq_comm] using hcount
    · exact le_rfl

/-- A new grant of an operation is one. -/
theorem reserve_earns {record : BudgetRecord} {charge : Charge} (hrun : record.runId = runId)
    {grant : Grant} {h : History Host} (hr : Runs (BudgetLedger.reserve record charge) h (.ok grant)) :
    h.countP (dispatches operation read) +
      (if grant = .new then owed operation charge.operationId else 0) ≤
        h.countP (grants runId.val operation) := by
  have hrequests : Within (LedgerRequest AnyOperation) (BudgetLedger.reserve record charge) :=
    BudgetLedger.reserve_requests record trivial
  have hcovered : h.countP (dispatches operation read) ≤ h.countP (grants runId.val operation) :=
    ledger_covered hrequests h _ hr
  unfold owed
  split_ifs with hnew hop
  · subst hnew hop hrun
    obtain ⟨hfound, -, rfl⟩ := BudgetLedger.reserve_new hr
    have hgrant : grants record.runId.val charge.operationId ⟨.swapRow record.runId.val
        record.toBudgetFields (record.toBudgetFields.charge charge), .ok true⟩ = true := by
      refine grants_iff.mpr ⟨_, _, rfl, BudgetFields.charge?_eq_none.mp hfound, ?_⟩
      simp [BudgetFields.operations, BudgetFields.charge]
    simp [List.countP_cons, dispatches, hgrant]
  · exact hcovered
  · exact hcovered

/-- **What a run dispatches, it has charged before.** -/
theorem covered_discipline {ops : Identifier → Prop} : Discipline runId ops
    (Covered (dispatches operation read) (grants runId.val operation)) where
  plain := plain_covered
  bind hp hf := hp.bind_runs hf
  spend := by
    intro α β record charge act go stop hrun hop hact hgo hstop
    refine Covered.earn (m := fun grant => if grant = .new then owed operation charge.operationId else 0)
      (ledger_covered (BudgetLedger.reserve_requests record hop))
      (fun grant h hr => reserve_earns hrun hr) fun grant => ?_
    split_ifs
    · exact hact.debt.bind fun b => (hgo b).debt 0
    · exact hstop.debt 0
  complete record operation artifact hop :=
    ledger_covered (BudgetLedger.complete_requests record hop artifact)

end Debt

/-! ### All runs about one incident -/

variable [Retention] [Rendering] [SourceChecks]

/-- The runs about an incident, under any configuration. -/
def LoopCall (incidentId : Identifier) (p : Program Host LoopResult) : Prop :=
  ∃ (L : ReasoningLoop) (incident : Incident) (initial : List EvidenceItem),
    incident.incidentId = incidentId ∧ p = L.run .live incident initial

theorem LoopCall.ledgered {incidentId : Identifier} {p : Program Host LoopResult}
    (h : LoopCall incidentId p) : Within Ledgered p := by
  obtain ⟨L, incident, initial, -, rfl⟩ := h
  exact run_ledgered L incident initial

theorem LoopCall.covered {incidentId : Identifier} {p : Program Host LoopResult}
    (h : LoopCall incidentId p) (operation : Identifier) (read : Option ReadRequest) :
    Covered (dispatches operation read) (grants incidentId.val operation) p := by
  obtain ⟨L, incident, initial, rfl, rfl⟩ := h
  refine run_discipline L incident initial covered_discipline fun binding => ?_
  have hrequests : Within (LedgerRequest AnyOperation)
      (BudgetLedger.openRun incident.incidentId binding L.limits) := BudgetLedger.openRun_requests ..
  exact ledger_covered hrequests

section Runs

variable {incidentId : Identifier} {s₀ : Durable} {c : Config Host Durable LoopResult}

/-- **An operation is dispatched at most once over all runs.** -/
theorem dispatch_le_one (h : Reachable Environment (LoopCall incidentId) s₀ c) (h₀ : s₀.NoBudgets)
    (operation : Identifier) (read : Option ReadRequest) :
    (c.trace.countP fun x => dispatches operation read x.2) ≤ 1 :=
  (h.count_le fun _ hp => hp.covered operation read).trans
    (grants_le_one h h₀ (fun _ => LoopCall.ledgered) incidentId.val operation)

/-- **All dispatches of an operation are one run's**, that has charged it. -/
theorem dispatch_by_grantee (h : Reachable Environment (LoopCall incidentId) s₀ c)
    (h₀ : s₀.NoBudgets) {operation : Identifier} {read : Option ReadRequest} {i j : ℕ}
    {ev ev' : Event Host} (hi : (i, ev) ∈ c.trace) (hev : dispatches operation read ev = true)
    (hj : (j, ev') ∈ c.trace) (hev' : grants incidentId.val operation ev' = true) : j = i := by
  obtain ⟨own, hown, hgrant⟩ := h.covered_by (fun _ hp => hp.covered operation read) hi hev
  exact grant_unique h h₀ (fun _ => LoopCall.ledgered) hj hown hev' hgrant

/-- Where an operation is charged, some run has charged it before. -/
structure Accounted (incidentId : Identifier) (s : Durable) (tr : Trace Host) : Prop where
  /-- The charges of the row. -/
  row : ∀ row, s.budgets incidentId.val = some row → ∀ operation ∈ row.operations,
    ∃ x ∈ tr, grants incidentId.val operation x.2 = true
  /-- The charges of the rows that were read. -/
  read : ∀ tr₁ i row tr₂, tr = tr₁ ++ (i, ⟨.selectRow incidentId.val, .ok (some row)⟩) :: tr₂ →
    ∀ operation ∈ row.operations, ∃ x ∈ tr₁, grants incidentId.val operation x.2 = true

omit [Rendering] [SourceChecks] in
/-- One answer keeps the account. -/
theorem Accounted.step {s s' : Durable} {tr : Trace Host} {i : ℕ} {e : Effect}
    {r : Except Fault e.Reply} (hinv : Accounted incidentId s tr) (hl : Ledgered e)
    (ha : s.Answer e r s') : Accounted incidentId s' (tr ++ [(i, ⟨e, r⟩)]) := by
  have earlier : ∀ {operation}, (∃ x ∈ tr, grants incidentId.val operation x.2 = true) →
      ∃ x ∈ tr ++ [(i, ⟨e, r⟩)], grants incidentId.val operation x.2 = true := fun ⟨x, hx, hg⟩ =>
    ⟨x, List.mem_append_left _ hx, hg⟩
  constructor
  · intro row hrow operation hop
    rcases answer_budgets ha with ⟨-, hsame⟩ | ⟨w, hw, haccepted, hnew⟩
    · exact earlier (hinv.row row (hsame ▸ hrow) operation hop)
    by_cases hkey : incidentId.val = w.key
    · rw [hnew, hkey, Function.update_self] at hrow
      obtain rfl := Option.some.inj hrow
      rcases writeOf_eq_some hw with ⟨record, hev, rfl⟩ | ⟨runId, raw, updated, hev, rfl⟩
      · have hcharges := (writeOf_proper hw hl).insert _ _ rfl
        simp [BudgetFields.operations, Write.value, hcharges] at hop
      · rw [Write.Accepted, ← show incidentId.val = runId from hkey] at haccepted
        by_cases hold : operation ∈ raw.operations
        · exact earlier (hinv.row raw haccepted operation hold)
        · refine ⟨_, List.mem_append_right _ List.mem_cons_self, ?_⟩
          rw [hev]
          exact grants_iff.mpr ⟨raw, updated, by rw [show incidentId.val = runId from hkey], hold, hop⟩
    · rw [hnew, Function.update_of_ne hkey] at hrow
      exact earlier (hinv.row row hrow operation hop)
  · intro tr₁ j row tr₂ hsplit operation hop
    rcases List.eq_nil_or_concat tr₂ with rfl | ⟨tr₂, last, rfl⟩
    · obtain ⟨rfl, hlast⟩ := List.append_inj' hsplit rfl
      obtain ⟨-, hev⟩ := Prod.mk.inj (List.cons.inj hlast).1
      cases hev
      refine hinv.row row ?_ operation hop
      cases ha with
      | exec hgrown hexec =>
        simp only [Durable.exec, Option.some.injEq, Prod.mk.injEq, Except.ok.injEq] at hexec
        obtain ⟨hread, rfl⟩ := hexec
        rw [← hread, hgrown.budgets]
      | outside _ hnone => simp [Durable.exec] at hnone
    · rw [List.concat_eq_append, ← List.cons_append, ← List.append_assoc] at hsplit
      obtain ⟨rfl, -⟩ := List.append_inj' hsplit rfl
      exact hinv.read tr₁ j row tr₂ rfl operation hop

theorem accounted (h : Reachable Environment (LoopCall incidentId) s₀ c) (h₀ : s₀.NoBudgets) :
    Accounted incidentId c.shared c.trace := by
  refine Reachable.invariant (Accounted incidentId) h ⟨?_, ?_⟩ ?_
  · intro row hrow
    rw [h₀] at hrow
    cases hrow
  · intro tr₁ j row tr₂ hsplit
    exact absurd hsplit.symm (by simp)
  · intro s tr j p e r s' q hinv hp hpath ha
    have hl := (hp.ledgered.path hpath).1 ⟨e, r⟩ (by simp)
    exact hinv.step hl ha

/-- **A charge of another run is never dispatched**: a run that reads a row in which an operation
is charged, without having charged it, has no dispatch of it. -/
theorem charged_elsewhere (h : Reachable Environment (LoopCall incidentId) s₀ c) (h₀ : s₀.NoBudgets)
    {i : ℕ} {h₁ h₂ : History Host} {row : BudgetFields} {operation : Identifier}
    (hown : c.trace.own i = h₁ ++ ⟨.selectRow incidentId.val, .ok (some row)⟩ :: h₂)
    (hop : operation ∈ row.operations)
    (hfirst : ∀ ev ∈ h₁, grants incidentId.val operation ev = false) (read : Option ReadRequest) :
    ∀ ev ∈ c.trace.own i, dispatches operation read ev = false := by
  intro ev hev
  by_contra hdispatch
  rw [Bool.not_eq_false] at hdispatch
  obtain ⟨tr₁, tr₂, htr, hown₁⟩ := own_split hown
  obtain ⟨⟨j, ev'⟩, hmem, hgrant⟩ := (accounted h h₀).read tr₁ i row tr₂ htr operation hop
  have hmem' : (j, ev') ∈ c.trace := htr ▸ List.mem_append_left _ hmem
  obtain rfl := dispatch_by_grantee h h₀ (mem_own.mp hev) hdispatch hmem' hgrant
  have hearly : ev' ∈ h₁ := hown₁ ▸ mem_own.mpr hmem
  rw [hfirst ev' hearly] at hgrant
  cases hgrant

end Runs

/-! ### Operations that are charged and not completed -/

/-- The row of a run that was read, if the event read one. -/
def rowRead (runId : Identifier) : Event Host → Option BudgetFields
  | ⟨.selectRow key, .ok (some row)⟩ => if key = runId.val then some row else none
  | _ => none

/-- No request failed, and every row that was read is the run's own and valid. -/
structure Answered (runId : Identifier) (h : History Host) : Prop where
  /-- Every request was answered. -/
  ok : ∀ ev ∈ h, ∃ v, ev.reply = .ok v
  /-- The row is there and valid. -/
  row : ∀ payload, ⟨.selectRow runId.val, .ok payload⟩ ∈ h →
    ∃ row, payload = some row ∧ row.failure = none ∧ row.runId = runId

/-- The first row that was read has `operation` charged, and none of them has a result of it. -/
structure Unresolved (runId operation : Identifier) (h : History Host) : Prop where
  /-- It is charged. -/
  charged : ∃ row rest, h.filterMap (rowRead runId) = row :: rest ∧ operation ∈ row.operations
  /-- It has no result. -/
  pending : ∀ row ∈ h.filterMap (rowRead runId), row.completion? operation = none

section Unresolved

variable {runId operation : Identifier} {h h₁ h₂ : History Host}

omit [Retention] [Rendering] [SourceChecks] in
theorem Answered.append (ha : Answered runId (h₁ ++ h₂)) : Answered runId h₁ ∧ Answered runId h₂ :=
  ⟨⟨fun ev hev => ha.ok ev (List.mem_append_left _ hev),
      fun payload hp => ha.row payload (List.mem_append_left _ hp)⟩,
    ⟨fun ev hev => ha.ok ev (List.mem_append_right _ hev),
      fun payload hp => ha.row payload (List.mem_append_right _ hp)⟩⟩

omit [Retention] [Rendering] [SourceChecks] in
/-- An answered `get` does not raise. -/
theorem get_answered (ha : Answered runId h) {x : Fault} :
    ¬Runs (BudgetLedger.get runId.val) h (.error x) := by
  intro hr
  rcases runs_perform_bind.mp hr with ⟨y, rfl, -⟩ | ⟨payload, h', rfl, hrest⟩
  · obtain ⟨v, hv⟩ := ha.ok _ List.mem_cons_self
    cases hv
  · obtain ⟨row, rfl, hvalid, hid⟩ := ha.row payload List.mem_cons_self
    have hok : row.validate = .ok ⟨row, hvalid⟩ := BudgetFields.validate_eq_ok.mpr rfl
    simp [hok, ofResult, hid, runs_raiseIf_bind] at hrest

omit [Rendering] [SourceChecks] in
/-- An answered reading raises an integrity error. -/
theorem restore_answered {root : String} {β : Type} {digest : Digest} {schema : Artifact → Option β}
    (ha : Answered runId h) {x : Fault} (hr : Runs ((restore digest schema).program root) h (.error x)) :
    ∃ m, x = .integrity m := by
  rw [restore, Reading.program] at hr
  rcases path_call.mp hr with ⟨-, hq⟩ | ⟨r, h', rfl, hrest⟩
  · cases hq
  obtain ⟨v, rfl⟩ : ∃ v, r = .ok v := ha.ok _ List.mem_cons_self
  cases v with
  | none => exact ⟨_, Except.error.inj (runs_fail.mp hrest).2⟩
  | some content =>
    dsimp only at hrest
    split_ifs at hrest
    · exact ⟨_, Except.error.inj (runs_fail.mp hrest).2⟩
    · cases hs : schema content with
      | none => rw [hs] at hrest; exact ⟨_, Except.error.inj (runs_fail.mp hrest).2⟩
      | some value => rw [hs] at hrest; cases (runs_done.mp hrest).2

namespace LoopSession

variable (L : ReasoningLoop) (I : Investigation)

omit [Retention] [Rendering] [SourceChecks] in
/-- An operation without a result has no receipt. -/
theorem receipt_unresolved {s : LoopSession} (ha : Answered I.incident.incidentId h)
    (hpending : ∀ row ∈ h.filterMap (rowRead I.incident.incidentId), row.completion? operation = none)
    {r : Except Fault (Except StopReason Digest × LoopSession)}
    (hr : Runs (receipt .live I s operation) h r) : r = .ok (.error .unknownCompletion, s) := by
  rcases runs_bind.mp hr with ⟨x, -, hcompletion⟩ | ⟨digest, h₁, h₂, rfl, hcompletion, hrest⟩
  · rcases runs_bind.mp hcompletion with ⟨y, -, hget⟩ | ⟨record, h₁, h₂, -, -, hdone⟩
    · exact absurd hget (get_answered ha)
    · cases (runs_done.mp hdone).2
  · obtain ⟨record, g₁, g₂, rfl, hget, hdone⟩ := runs_bind_ok.mp hcompletion
    obtain ⟨rfl, hdigest⟩ := runs_done.mp hdone
    obtain ⟨rfl, -⟩ := BudgetLedger.get_ok hget
    have hnone : record.completion? operation = none := hpending _ (by simp [rowRead])
    rw [hnone] at hdigest
    obtain rfl := Except.ok.inj hdigest
    exact (runs_done.mp hrest).2

omit [Rendering] [SourceChecks] in
theorem restoreModel_unresolved {s : LoopSession} {turn : ℕ} {context : ReasoningContext}
    {charged : Charge} (ha : Answered I.incident.incidentId h)
    (hpending : ∀ row ∈ h.filterMap (rowRead I.incident.incidentId),
      row.completion? (modelOperation turn) = none)
    {r : Except Fault (Except StopReason ModelObservation × LoopSession)}
    (hr : Runs (restoreModel L .live I s turn context charged) h r) :
    r = .ok (.error .unknownCompletion, s) ∨ ∃ m, r = .error (.integrity m) := by
  cases charged with
  | reads _ => exact .inr ⟨_, (runs_fail.mp hr).2⟩
  | model charge =>
    rcases runs_bind.mp hr with ⟨x, rfl, hrestore⟩ | ⟨prepared, h₁, h₂, rfl, -, hrest⟩
    · obtain ⟨m, rfl⟩ := restore_answered ha hrestore
      exact .inr ⟨m, rfl⟩
    rcases runs_raiseIf_bind.mp hrest with ⟨-, -, rfl⟩ | ⟨-, hrest⟩
    · exact .inr ⟨_, rfl⟩
    have ha₂ := ha.append.2
    have hp₂ : ∀ row ∈ h₂.filterMap (rowRead I.incident.incidentId),
        row.completion? (modelOperation turn) = none := fun row hrow =>
      hpending row (by rw [List.filterMap_append]; exact List.mem_append_right _ hrow)
    rcases runs_bind.mp hrest with ⟨x, -, hreceipt⟩ | ⟨out, g₁, g₂, rfl, hreceipt, hlast⟩
    · cases receipt_unresolved I ha₂ hp₂ hreceipt
    · rw [List.filterMap_append] at hp₂
      have hout := receipt_unresolved I ha₂.append.1
        (fun row hrow => hp₂ row (List.mem_append_left _ hrow)) hreceipt
      obtain rfl := Except.ok.inj hout
      exact .inl (runs_done.mp hlast).2

omit [Rendering] in
theorem restoreReads_unresolved {s : LoopSession} {turn : ℕ} {requests : List ReadRequest}
    (ha : Answered I.incident.incidentId h)
    (hpending : ∀ row ∈ h.filterMap (rowRead I.incident.incidentId),
      row.completion? (readsOperation turn) = none)
    {r : Except Fault (Except StopReason Unit × LoopSession)}
    (hr : Runs (restoreReads L .live I s turn requests) h r) :
    r = .ok (.error .unknownCompletion, s) := by
  rcases runs_bind.mp hr with ⟨x, -, hreceipt⟩ | ⟨out, h₁, h₂, rfl, hreceipt, hlast⟩
  · cases receipt_unresolved I ha hpending hreceipt
  · rw [List.filterMap_append] at hpending
    have hout := receipt_unresolved I ha.append.1
      (fun row hrow => hpending row (List.mem_append_left _ hrow)) hreceipt
    obtain rfl := Except.ok.inj hout
    exact (runs_done.mp hlast).2

omit [Retention] [Rendering] [SourceChecks] in
/-- A method begins with the run's record, which has the operation charged. -/
theorem charged_first {α : Type} {f : BudgetRecord → Program Host α} {r : Except Fault α}
    (ha : Answered I.incident.incidentId h) (hu : Unresolved I.incident.incidentId operation h)
    (hr : Runs ((BudgetLedger.get I.incident.incidentId.val).bind f) h r) :
    ∃ (record : BudgetRecord) (charged : Charge) (h₁ h₂ : History Host), h = h₁ ++ h₂ ∧
      (∀ ev ∈ h₁, ev.effect.plain = true) ∧ record.charge? operation = some charged ∧
      Runs (f record) h₂ r ∧ Answered I.incident.incidentId h₂ ∧
      ∀ row ∈ h₂.filterMap (rowRead I.incident.incidentId), row.completion? operation = none := by
  rcases runs_bind.mp hr with ⟨x, -, hget⟩ | ⟨record, h₁, h₂, rfl, hget, hrest⟩
  · exact absurd hget (get_answered ha)
  obtain ⟨rfl, -⟩ := BudgetLedger.get_ok hget
  obtain ⟨row, rest, hfirst, hop⟩ := hu.charged
  have hrow : row = record.toBudgetFields := by
    simp only [List.cons_append, List.nil_append, List.filterMap_cons, rowRead, if_true] at hfirst
    exact (List.cons.inj hfirst).1.symm
  subst hrow
  cases hcharge : record.charge? operation with
  | none => exact absurd hop (BudgetFields.charge?_eq_none.mp hcharge)
  | some charged =>
    refine ⟨record, charged, _, h₂, rfl, ?_, hcharge, hrest, ha.append.2, fun row hrow => ?_⟩
    · rintro ev hev
      obtain rfl := List.mem_singleton.mp hev
      rfl
    · exact hu.pending row (by rw [List.filterMap_append]; exact List.mem_append_right _ hrow)

/-- **A call of the model that is charged and has no result is not made again**: the method stops
with `UNKNOWN_COMPLETION` or an integrity error, and has only read. -/
theorem model_unresolved {s : LoopSession} {turn : ℕ} {context : ReasoningContext}
    (ha : Answered I.incident.incidentId h)
    (hu : Unresolved I.incident.incidentId (modelOperation turn) h)
    {r : Except Fault (Except StopReason ModelObservation × LoopSession)}
    (hr : Runs (model L .live I s turn context) h r) :
    (∀ ev ∈ h, ev.effect.plain = true) ∧
      (r = .ok (.error .unknownCompletion, s) ∨ ∃ m, r = .error (.integrity m)) := by
  obtain ⟨record, charged, h₁, h₂, rfl, hplain, hcharge, hrest, ha₂, hp₂⟩ := charged_first I ha hu hr
  simp only [hcharge] at hrest
  refine ⟨fun ev hev => ?_, restoreModel_unresolved L I ha₂ hp₂ hrest⟩
  rcases List.mem_append.mp hev with hev | hev
  · exact hplain ev hev
  · exact ((restoreModel_plain L I s turn context charged).path hrest).1 ev hev

omit [Rendering] in
/-- **Reads that are charged and have no result are not dispatched again**: the method stops with
`UNKNOWN_COMPLETION` or an integrity error, and has only read. -/
theorem reads_unresolved {s : LoopSession} {turn : ℕ} {requests : List ReadRequest}
    (ha : Answered I.incident.incidentId h)
    (hu : Unresolved I.incident.incidentId (readsOperation turn) h)
    {r : Except Fault (Except StopReason Unit × LoopSession)}
    (hr : Runs (reads L .live I s turn requests) h r) :
    (∀ ev ∈ h, ev.effect.plain = true) ∧
      (r = .ok (.error .unknownCompletion, s) ∨ ∃ m, r = .error (.integrity m)) := by
  obtain ⟨record, charged, h₁, h₂, rfl, hplain, hcharge, hrest, ha₂, hp₂⟩ := charged_first I ha hu hr
  have all : (∀ ev ∈ h₂, ev.effect.plain = true) → ∀ ev ∈ h₁ ++ h₂, ev.effect.plain = true :=
    fun hlater ev hev => (List.mem_append.mp hev).elim (hplain ev) (hlater ev)
  cases charged with
  | model _ =>
    simp only [hcharge] at hrest
    obtain ⟨rfl, rfl⟩ := runs_fail.mp hrest
    exact ⟨all (by simp), .inr ⟨_, rfl⟩⟩
  | reads charge =>
    simp only [hcharge] at hrest
    rcases runs_raiseIf_bind.mp hrest with ⟨-, rfl, rfl⟩ | ⟨-, hrest⟩
    · exact ⟨all (by simp), .inr ⟨_, rfl⟩⟩
    · exact ⟨all ((restoreReads_plain L I s turn requests).path hrest).1,
        .inl (restoreReads_unresolved L I ha₂ hp₂ hrest)⟩

/-- **A run ends where the model's part of a turn stops.** -/
theorem turns_of_model_stop {remaining turn invalid : ℕ} {s s' : LoopSession}
    {found : ReasoningContext} {reason : StopReason}
    (hcontext : Runs (context L I s) h₁ (.ok found))
    (hmodel : Runs (model L .live I s turn found) h₂ (.ok (.error reason, s'))) :
    Runs (turns L .live I (remaining + 1) turn invalid s) (⟨.authority, .ok .ok⟩ :: (h₁ ++ (h₂ ++ [])))
      (.ok ⟨reason, [], s'⟩) :=
  runs_perform_bind_ok.mpr ⟨.ok, _, rfl, runs_bind_ok.mpr ⟨found, _, _, rfl, hcontext,
    runs_bind_ok.mpr ⟨(.error reason, s'), _, _, rfl, hmodel, runs_done.mpr ⟨rfl, rfl⟩⟩⟩⟩

omit [Rendering] in
/-- What `request_reads` makes of a stop without a result. -/
theorem requestReads_of_stop {turn : ℕ} {s s' : LoopSession} {requests : List ReadRequest}
    (hfresh : (L.isLocal && (freshReads L s requests).isEmpty) = false)
    (hreads : Runs (reads L .live I s turn (freshReads L s requests)) h
      (.ok (.error .unknownCompletion, s'))) :
    Runs (requestReads L .live I s turn requests) (h ++ []) (.ok (.error .unknownCompletion, s')) := by
  unfold requestReads
  dsimp only
  rw [hfresh, if_neg Bool.false_ne_true]
  refine runs_bind_ok.mpr ⟨(.error .unknownCompletion, s'), _, _, rfl, hreads, ?_⟩
  simp

/-- **A run ends where the reads of a turn stop without a result.** -/
theorem turns_of_reads_stop {remaining turn invalid : ℕ} {s s' s'' : LoopSession}
    {found : ReasoningContext} {observation : ModelObservation} {decision : ReasoningDecision}
    (hcontext : Runs (context L I s) h (.ok found))
    (hmodel : Runs (model L .live I s turn found) h₁ (.ok (.ok observation, s')))
    (hok : observation.status = .ok) (hdecision : observation.decision = some decision)
    (hread : decision.decision ≠ .finish)
    (hfresh : (L.isLocal && (freshReads L s' decision.reads).isEmpty) = false)
    (hreads : Runs (reads L .live I s' turn (freshReads L s' decision.reads)) h₂
      (.ok (.error .unknownCompletion, s''))) :
    Runs (turns L .live I (remaining + 1) turn invalid s)
      (⟨.authority, .ok .ok⟩ :: (h ++ (h₁ ++ (h₂ ++ [] ++ [])))) (.ok ⟨.unknownCompletion, [], s''⟩) := by
  refine runs_perform_bind_ok.mpr ⟨.ok, _, rfl, runs_bind_ok.mpr ⟨found, _, _, rfl, hcontext,
    runs_bind_ok.mpr ⟨(.ok observation, s'), _, _, rfl, hmodel, ?_⟩⟩⟩
  simp only [hok, hdecision, reduceCtorEq, if_false, ObservationStatus.stop, if_neg hread]
  exact runs_bind_ok.mpr ⟨(.error .unknownCompletion, s''), _, _, rfl,
    requestReads_of_stop L I hfresh hreads, runs_done.mpr ⟨rfl, rfl⟩⟩

end LoopSession

end Unresolved

/-! ### The main result -/

/-- **Main result**: whatever runs about an incident interleave, on however many hosts and with a
crash anywhere, each turn asks the model at most once, and hands each of its reads to the pool at
most once; the reads of a turn are all handed over by one run; a run that finds an operation
charged by another has no dispatch of it; and a run whose method finds its operation charged and
without a result dispatches nothing there, and stops with `UNKNOWN_COMPLETION` or an integrity
error. -/
theorem loop_once {incidentId : Identifier} {s₀ : Durable} {c : Config Host Durable LoopResult}
    (h : Reachable Environment (LoopCall incidentId) s₀ c) (h₀ : s₀.NoBudgets) :
    (∀ turn, (c.trace.countP fun x => dispatches (modelOperation turn) none x.2) ≤ 1) ∧
    (∀ turn request,
      (c.trace.countP fun x => dispatches (readsOperation turn) (some request) x.2) ≤ 1) ∧
    (∀ operation read read' i j ev ev', (i, ev) ∈ c.trace → dispatches operation read ev = true →
      (j, ev') ∈ c.trace → dispatches operation read' ev' = true → i = j) ∧
    (∀ i h₁ row h₂ operation, c.trace.own i =
        h₁ ++ ⟨.selectRow incidentId.val, .ok (some row)⟩ :: h₂ → operation ∈ row.operations →
      (∀ ev ∈ h₁, grants incidentId.val operation ev = false) →
        ∀ read, ∀ ev ∈ c.trace.own i, dispatches operation read ev = false) ∧
    (∀ (L : ReasoningLoop) (I : Investigation) (turn : ℕ) (s : LoopSession) (g : History Host),
      Answered I.incident.incidentId g →
      (Unresolved I.incident.incidentId (modelOperation turn) g → ∀ context r,
        Runs (LoopSession.model L .live I s turn context) g r →
          (∀ ev ∈ g, ev.effect.plain = true) ∧
            (r = .ok (.error .unknownCompletion, s) ∨ ∃ m, r = .error (.integrity m))) ∧
      (Unresolved I.incident.incidentId (readsOperation turn) g → ∀ requests r,
        Runs (LoopSession.reads L .live I s turn requests) g r →
          (∀ ev ∈ g, ev.effect.plain = true) ∧
            (r = .ok (.error .unknownCompletion, s) ∨ ∃ m, r = .error (.integrity m)))) := by
  refine ⟨fun turn => dispatch_le_one h h₀ _ _, fun turn request => dispatch_le_one h h₀ _ _, ?_, ?_, ?_⟩
  · intro operation read read' i j ev ev' hi hev hj hev'
    obtain ⟨own, hown, hgrant⟩ := h.covered_by (fun _ hp => hp.covered operation read') hj hev'
    exact (dispatch_by_grantee h h₀ hi hev hown hgrant).symm
  · intro i h₁ row h₂ operation hown hop hfirst read
    exact charged_elsewhere h h₀ hown hop hfirst read
  · intro L I turn s g ha
    exact ⟨fun hu context r hr => LoopSession.model_unresolved L I ha hu hr,
      fun hu requests r hr => LoopSession.reads_unresolved L I ha hu hr⟩

end PayOps.Orchestrator

namespace PayOps.Orchestrator

open Process Program Evidence Relation

/-! ### Two runs -/

attribute [local instance] plainPlatform plainRetention

/-- A rendering that shows nothing. -/
@[reducible] def plainRendering : Rendering where
  incident _ := .null
  evidence _ := []
  decisionSchema := "schema"
  requestSchema := .null

/-- Sources that verify, and facts that support no cause. -/
@[reducible] def plainChecks : SourceChecks where
  paymentWindow _ := .done []
  traceSpan _ := .done []
  traceLog _ := .done ()
  retrieval _ := .done []
  supportIndex _ := .ok []

attribute [local instance] plainRendering plainChecks

/-- An incident. -/
def sampleIncident : Incident where
  incidentId := sampleId
  title := ⟨"payments are late", by decide⟩
  severity := .critical
  createdAt := 0
  nameSpace := ⟨"payops", by decide⟩
  service := ⟨"payments-api", by decide⟩
  report := none
  scope := by simp

/-- A loop over a provider's model. -/
def sampleLoop : ReasoningLoop where
  root := "locks"
  store := "artifacts"
  settings :=
    { provider := ⟨"fixture", by decide⟩
      model := "fixture"
      mode := .fixture
      inputTokenLimit := ⟨1000, by decide⟩
      outputTokenLimit := sampleOutputLimit
      timeoutSeconds := 1
      price := samplePrice
      tokenAccounting := .fixtureExact
      accountingMode := by decide }
  subject := "operator"
  causes := ["unknown"]
  limits := sampleLimits
  subjectBounded := by decide
  causesBounded := by decide

/-- A host that grants everything, and whose model fails. -/
def sampleOutside : (e : Effect) → Except Fault e.Reply
  | .authority => .ok .ok
  | .lock _ => .ok ()
  | .countTokens _ _ => .ok 10
  | .observe _ _ _ _ => .ok ⟨.error, none, [], by decide⟩
  | _ => .error (.other "")

/-- Two runs about one incident, one after the other. -/
def sampleRuns : Config Host Durable LoopResult :=
  let call (c : Config Host Durable LoopResult) :=
    c.ran (Durable.handler sampleOutside) (sampleLoop.run .live sampleIncident [])
  call (call ⟨Durable.empty, [], []⟩)

theorem sampleRuns_reached :
    Reachable Environment (LoopCall sampleIncident.incidentId) Durable.empty sampleRuns :=
  (Reachable.call .refl (Durable.handler_answer _) ⟨_, _, _, rfl, rfl⟩).call (Durable.handler_answer _)
    ⟨_, _, _, rfl, rfl⟩

/-- In these runs the model is asked at most once for the first turn. -/
theorem loop_once_sample :
    (sampleRuns.trace.countP fun x => dispatches (modelOperation 1) none x.2) ≤ 1 :=
  (loop_once sampleRuns_reached rfl).1 1

end PayOps.Orchestrator
