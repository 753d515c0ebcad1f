import PayOps.Orchestrator.Ledger
import PayOps.Process.Register

/-!
# The history of a budget

Any number of workers write to one ledger, each with an expected record that may be arbitrarily
stale. The rows are then a family of registers (`Register`), whose accepted writes are those of
the trace.

The first part is about any calls that write to the ledger only as the ledger does
(`Ledgered`), so that it holds of whole investigations as well; the last part is about calls of
`open`, `reserve` and `complete`.

## What is proved

* `writes_written` — **refinement**: the rows of a reachable state are what the writes of its trace
  made them; `row_valid` — every row is within its allowances.
* `row_later` — from one state to a later one a row keeps its binding and its allowances, and its
  charges and results only grow at the end.
* `grants_le_one` — an operation is charged by at most one write.
* `budget_history` — **main result**: these together, for calls of the ledger.
-/

namespace PayOps.Orchestrator

open Process Program Relation

variable [Platform] [Retention] {α : Type}

/-! ### Writes -/

/-- The write to the ledger that an answered request made, if it made one. -/
def writeOf : Event Host → Option (Write String BudgetFields)
  | ⟨.insertRow record, .ok _⟩ => some (.insert record.runId.val record)
  | ⟨.swapRow runId raw updated, .ok true⟩ => some (.swap runId raw updated)
  | _ => none

/-- The writes of a trace, oldest first. -/
def writes (tr : Trace Host) : List (Write String BudgetFields) := tr.filterMap fun x => writeOf x.2

omit [Retention] in
theorem writes_append (tr : Trace Host) (i : ℕ) (ev : Event Host) :
    writes (tr ++ [(i, ev)]) = writes tr ++ (writeOf ev).toList := by
  rw [writes, List.filterMap_append]
  rfl

omit [Retention] in
/-- A write was made by an insertion or by a swap. -/
theorem writeOf_eq_some {ev : Event Host} {w : Write String BudgetFields} (h : writeOf ev = some w) :
    (∃ record, ev = ⟨.insertRow record, .ok ()⟩ ∧ w = .insert record.runId.val record) ∨
      ∃ runId raw updated, ev = ⟨.swapRow runId raw updated, .ok true⟩ ∧ w = .swap runId raw updated := by
  unfold writeOf at h
  split at h
  · cases h
    exact .inl ⟨_, rfl, rfl⟩
  · cases h
    exact .inr ⟨_, _, _, rfl, rfl⟩
  · cases h

/-- What the execution of a request does to the ledger: nothing, or one accepted write. -/
theorem exec_budgets {t u : Durable} {e : Effect} {r : Except Fault e.Reply}
    (h : t.exec e = some (r, u)) :
    (writeOf ⟨e, r⟩ = none ∧ u.budgets = t.budgets) ∨
      ∃ w, writeOf ⟨e, r⟩ = some w ∧ w.Accepted t.budgets ∧
        u.budgets = Function.update t.budgets w.key (some w.value) := by
  cases e with
  | insertRow record =>
    simp only [Durable.exec] at h
    split_ifs at h with hrow <;> cases h
    · exact .inl ⟨rfl, rfl⟩
    · refine .inr ⟨_, rfl, ?_, rfl⟩
      simpa [Write.Accepted] using hrow
  | swapRow runId raw updated =>
    simp only [Durable.exec] at h
    split_ifs at h with hrow <;> cases h
    · exact .inr ⟨_, rfl, hrow, rfl⟩
    · exact .inl ⟨rfl, rfl⟩
  | _ =>
    refine .inl ⟨rfl, ?_⟩
    simp only [Durable.exec] at h
    (repeat' split at h) <;> cases h <;> rfl

/-- **What one answer does to the ledger**: nothing, or one accepted write. -/
theorem answer_budgets {s s' : Durable} {e : Effect} {r : Except Fault e.Reply} (h : s.Answer e r s') :
    (writeOf ⟨e, r⟩ = none ∧ s'.budgets = s.budgets) ∨
      ∃ w, writeOf ⟨e, r⟩ = some w ∧ w.Accepted s.budgets ∧
        s'.budgets = Function.update s.budgets w.key (some w.value) := by
  cases h with
  | fault hgrown => exact .inl ⟨by cases e <;> rfl, hgrown.budgets⟩
  | exec hgrown hexec => exact hgrown.budgets ▸ exec_budgets hexec
  | outside hgrown hnone =>
    refine .inl ⟨?_, hgrown.budgets⟩
    cases e with
    | insertRow record => simp only [Durable.exec] at hnone; split_ifs at hnone
    | swapRow runId raw updated => simp only [Durable.exec] at hnone; split_ifs at hnone
    | _ => rfl

/-! ### Calls that write as the ledger does -/

/-- A ledger with no rows. -/
def Durable.NoBudgets (s : Durable) : Prop := s.budgets = fun _ => none

/-- What a write of the ledger is like. -/
structure ProperWrite (w : Write String BudgetFields) : Prop where
  /-- What is written is valid, -/
  valid : w.value.failure = none
  /-- and written to its own row. -/
  key : w.value.runId.val = w.key
  /-- An inserted record has no charges. -/
  insert : ∀ k v, w = .insert k v → v.charges = []
  /-- A replaced record grows. -/
  swap : ∀ k old new, w = .swap k old new → Grows AnyOperation old new

omit [Retention] in
theorem writeOf_proper {ev : Event Host} {w : Write String BudgetFields} (h : writeOf ev = some w)
    (hl : Ledgered ev.effect) : ProperWrite w := by
  rcases writeOf_eq_some h with ⟨record, rfl, rfl⟩ | ⟨runId, raw, updated, rfl, rfl⟩
  · obtain ⟨hvalid, hcharges, -⟩ := hl
    exact ⟨hvalid, rfl, fun k v hw => by cases hw; exact hcharges, nofun⟩
  · obtain ⟨hkey, -, hvalid, hgrows⟩ := hl
    refine ⟨hvalid, ?_, nofun, fun k old new hw => by cases hw; exact hgrows⟩
    exact (congrArg Subtype.val hgrows.extends.runId).trans hkey

section Ledgered

variable {Start : Program Host α → Prop} {s₀ : Durable} {c : Config Host Durable α}

/-- **Refinement**: the rows of a reachable state are what the writes of its trace made them. -/
theorem writes_written (h : Reachable Environment Start s₀ c) (h₀ : s₀.NoBudgets) :
    Written (writes c.trace) c.shared.budgets := by
  refine Reachable.invariant (fun s tr => Written (writes tr) s.budgets) h ?_ ?_
  · rw [h₀]
    exact .nil
  · intro s tr i p e r s' q hinv _ _ ha
    rw [writes_append]
    rcases answer_budgets ha with ⟨hnone, hsame⟩ | ⟨w, hw, haccepted, hnew⟩
    · rw [hnone, hsame, Option.toList_none, List.append_nil]
      exact hinv
    · rw [hw, hnew, Option.toList_some]
      exact hinv.snoc haccepted

theorem writes_proper (h : Reachable Environment Start s₀ c) (hS : ∀ p, Start p → Within Ledgered p) :
    ∀ w ∈ writes c.trace, ProperWrite w := by
  intro w hw
  obtain ⟨⟨i, ev⟩, hev, hwrite⟩ := List.mem_filterMap.mp hw
  exact writeOf_proper hwrite (Reachable.within h hS hev)

/-- **Every row is within its allowances**, and its run's own. -/
theorem row_valid (h : Reachable Environment Start s₀ c) (h₀ : s₀.NoBudgets)
    (hS : ∀ p, Start p → Within Ledgered p) {runId : String} {row : BudgetFields}
    (hrow : c.shared.budgets runId = some row) : row.runId.val = runId ∧ row.failure = none := by
  have hlast := (writes_written h h₀).getLast?_versions runId
  rw [hrow] at hlast
  obtain ⟨w, hw, rfl, rfl⟩ := mem_versions.mp (List.mem_of_getLast? hlast)
  have hproper := writes_proper h hS w hw
  exact ⟨hproper.key, hproper.valid⟩

omit [Retention] in
theorem BudgetFields.Extends.of_grows {row old new : BudgetFields} (h : row.Extends old)
    (hg : Grows AnyOperation old new) : row.Extends new := h.trans hg.extends

/-- One answer leaves a row or lets it grow. -/
theorem answer_row {s s' : Durable} {e : Effect} {r : Except Fault e.Reply} (hl : Ledgered e)
    (ha : s.Answer e r s') {runId : String} {row : BudgetFields} (hrow : s.budgets runId = some row) :
    ∃ next, s'.budgets runId = some next ∧ row.Extends next := by
  rcases answer_budgets ha with ⟨-, hsame⟩ | ⟨w, hw, haccepted, hnew⟩
  · exact ⟨row, hsame ▸ hrow, .refl row⟩
  by_cases hkey : runId = w.key
  · subst hkey
    refine ⟨w.value, by rw [hnew, Function.update_self], ?_⟩
    have hproper := writeOf_proper hw hl
    cases w with
    | insert k v => rw [Write.Accepted] at haccepted; rw [Write.key, haccepted] at hrow; cases hrow
    | swap k old new =>
      rw [Write.Accepted] at haccepted
      rw [Write.key, haccepted] at hrow
      cases hrow
      exact (hproper.swap k _ new rfl).extends
  · exact ⟨row, by rw [hnew, Function.update_of_ne hkey, hrow], .refl row⟩

/-- **From one state to a later one** a row keeps its binding and its allowances, and its charges
and results only grow at the end. -/
theorem row_later (h : Reachable Environment Start s₀ c) (hS : ∀ p, Start p → Within Ledgered p)
    {c' : Config Host Durable α} (hlater : ReflTransGen (Step Environment Start) c c')
    {runId : String} {row : BudgetFields} (hrow : c.shared.budgets runId = some row) :
    ∃ later, c'.shared.budgets runId = some later ∧ row.Extends later := by
  induction hlater with
  | refl => exact ⟨row, hrow, .refl row⟩
  | @tail b c' hb hs ih =>
    obtain ⟨later, hlrow, hextends⟩ := ih
    rcases Reachable.shared_step (h.trans hb) hS hs with heq | ⟨e, r, he, ha⟩
    · exact ⟨later, heq ▸ hlrow, hextends⟩
    · obtain ⟨next, hnrow, hnext⟩ := answer_row he ha hlrow
      exact ⟨next, hnrow, hextends.trans hnext⟩

/-! ### Grants -/

/-- The event commits the charge of `operation` to the run. -/
def grants (runId : String) (operation : Identifier) : Event Host → Bool
  | ⟨.swapRow key raw updated, .ok true⟩ =>
    key == runId && !(operation ∈ raw.operations) && operation ∈ updated.operations
  | _ => false

omit [Retention] in
theorem grants_iff {runId : String} {operation : Identifier} {ev : Event Host} :
    grants runId operation ev = true ↔ ∃ raw updated, ev = ⟨.swapRow runId raw updated, .ok true⟩ ∧
      operation ∉ raw.operations ∧ operation ∈ updated.operations := by
  constructor
  · intro h
    unfold grants at h
    split at h
    · simp only [Bool.and_eq_true, beq_iff_eq, Bool.not_eq_true', decide_eq_false_iff_not,
        decide_eq_true_eq] at h
      obtain ⟨⟨rfl, hraw⟩, hupdated⟩ := h
      exact ⟨_, _, rfl, hraw, hupdated⟩
    · cases h
  · rintro ⟨raw, updated, rfl, hraw, hupdated⟩
    simp [grants, hraw, hupdated]

omit [Retention] in
/-- A grant is a write that gains the operation. -/
theorem grants_eq_flips (runId : String) (operation : Identifier) (ev : Event Host) :
    grants runId operation ev =
      (writeOf ev).any (Write.flips runId fun r => decide (operation ∈ r.operations)) := by
  cases hw : writeOf ev with
  | none =>
    unfold grants
    split
    · cases hw
    · rfl
  | some w =>
    rcases writeOf_eq_some hw with ⟨record, rfl, rfl⟩ | ⟨key, raw, updated, rfl, rfl⟩
    · rfl
    · simp [grants, Write.flips]

omit [Retention] in
theorem countP_grants (runId : String) (operation : Identifier) (tr : Trace Host) :
    (tr.countP fun x => grants runId operation x.2) =
      (writes tr).countP (Write.flips runId fun r => decide (operation ∈ r.operations)) := by
  rw [writes, List.countP_filterMap]
  congr 1
  funext x
  rw [grants_eq_flips]
  cases writeOf x.2 <;> rfl

/-- **An operation is charged by at most one write.** -/
theorem grants_le_one (h : Reachable Environment Start s₀ c) (h₀ : s₀.NoBudgets)
    (hS : ∀ p, Start p → Within Ledgered p) (runId : String) (operation : Identifier) :
    (c.trace.countP fun x => grants runId operation x.2) ≤ 1 := by
  rw [countP_grants]
  refine (writes_written h h₀).flips_le_one (fun k old new hm hold => ?_) runId
  have hgrows := (writes_proper h hS _ hm).swap k old new rfl
  rw [decide_eq_true_eq] at hold ⊢
  exact (hgrows.extends.charges.map Charge.operationId).subset hold

/-- The call that charged an operation is one call. -/
theorem grant_unique (h : Reachable Environment Start s₀ c) (h₀ : s₀.NoBudgets)
    (hS : ∀ p, Start p → Within Ledgered p) {runId : String} {operation : Identifier} {i j : ℕ}
    {ev ev' : Event Host} (hi : (i, ev) ∈ c.trace) (hj : (j, ev') ∈ c.trace)
    (hev : grants runId operation ev = true) (hev' : grants runId operation ev' = true) : i = j :=
  congrArg Prod.fst (eq_of_countP_le_one (grants_le_one h h₀ hS runId operation) hi hj hev hev')

end Ledgered

/-! ### Calls of the ledger -/

/-- What a call of the ledger returns. -/
inductive LedgerReply where
  /-- `open` returns the record. -/
  | opened (record : BudgetRecord)
  /-- `reserve` returns a grant. -/
  | reserved (grant : Grant)
  /-- `complete` returns a grant. -/
  | completed (grant : Grant)

/-- The calls of the ledger; an expected record may be any. -/
inductive LedgerCall : Program Host LedgerReply → Prop
  /-- `open`. -/
  | openRun (runId : Identifier) (binding : Digest) (limits : ReasoningBudget) :
    LedgerCall ((BudgetLedger.openRun runId binding limits).bind fun r => .done (.opened r))
  /-- `reserve`. -/
  | reserve (expected : BudgetRecord) (charge : Charge) :
    LedgerCall ((BudgetLedger.reserve expected charge).bind fun g => .done (.reserved g))
  /-- `complete`. -/
  | complete (expected : BudgetRecord) (operation : Identifier) (artifact : Digest) :
    LedgerCall ((BudgetLedger.complete expected operation artifact).bind fun g => .done (.completed g))

omit [Retention] in
theorem LedgerCall.ledgered {p : Program Host LedgerReply} (h : LedgerCall p) : Within Ledgered p := by
  refine Within.mono (?_ : Within (LedgerRequest AnyOperation) _) fun _ => LedgerRequest.ledgered
  cases h with
  | openRun => exact (BudgetLedger.openRun_requests ..).bind fun _ => trivial
  | reserve => exact (BudgetLedger.reserve_requests _ trivial).bind fun _ => trivial
  | complete => exact (BudgetLedger.complete_requests _ trivial _).bind fun _ => trivial

/-- The states the workers of a ledger may come to from an empty one. -/
def LedgerReached (c : Config Host Durable LedgerReply) : Prop :=
  Reachable Environment LedgerCall Durable.empty c

/-- Call `i` reserved `operation` and returned `NEW`. -/
def GrantedNew (c : Config Host Durable LedgerReply) (runId : String) (operation : Identifier) (i : ℕ) :
    Prop :=
  ∃ expected charge alive, expected.runId.val = runId ∧ charge.operationId = operation ∧
    c.calls[i]? = some ⟨(BudgetLedger.reserve expected charge).bind fun g => .done (.reserved g),
      .done (.reserved .new), alive⟩

/-- A call that returned `NEW` has charged its operation itself. -/
theorem granted_charged {c : Config Host Durable LedgerReply} (h : LedgerReached c) {runId : String}
    {operation : Identifier} {i : ℕ} (hg : GrantedNew c runId operation i) :
    ∃ ev, (i, ev) ∈ c.trace ∧ grants runId operation ev = true := by
  obtain ⟨expected, charge, alive, rfl, rfl, hcall⟩ := hg
  have hpath := (Reachable.wellTraced h).path i _ hcall
  obtain ⟨g, h₁, h₂, hown, hreserve, hdone⟩ := runs_bind_ok.mp hpath
  obtain ⟨-, hgrant⟩ := runs_done.mp hdone
  obtain rfl : g = .new := by cases hgrant; rfl
  obtain ⟨hnew, -, hevents⟩ := BudgetLedger.reserve_new hreserve
  refine ⟨⟨.swapRow expected.runId.val expected.toBudgetFields (expected.charge charge), .ok true⟩,
    mem_own.mp ?_, grants_iff.mpr ⟨_, _, rfl, BudgetFields.charge?_eq_none.mp hnew, ?_⟩⟩
  · rw [hown, hevents]
    simp
  · simp [BudgetFields.operations, BudgetFields.charge]

/-- **Main result**: whatever calls of `open`, `reserve` and `complete` interleave, with expected
records however stale, every stored record is its run's own and within every allowance; it keeps
its binding and its allowances from its first state on, its charges and results only grow at the
end, so that none is lost and a result is never replaced; and `NEW` is returned at most once for
each operation. -/
theorem budget_history {c : Config Host Durable LedgerReply} (h : LedgerReached c) (runId : String) :
    (∀ row, c.shared.budgets runId = some row →
      row.runId.val = runId ∧ row.failure = none ∧ ∀ m, total row.charges m ≤ row.limits.limit m) ∧
    (∀ c', ReflTransGen (Step Environment LedgerCall) c c' → ∀ row,
      c.shared.budgets runId = some row → ∃ later, c'.shared.budgets runId = some later ∧
        later.limits = row.limits ∧ later.bindingSha256 = row.bindingSha256 ∧
        row.charges <+: later.charges ∧ row.completions <+: later.completions ∧
        ∀ operation x, row.completion? operation = some x → later.completion? operation = some x) ∧
    (∀ operation i j, GrantedNew c runId operation i → GrantedNew c runId operation j → i = j) := by
  refine ⟨fun row hrow => ?_, fun c' hlater row hrow => ?_, fun operation i j hi hj => ?_⟩
  · obtain ⟨hid, hvalid⟩ := row_valid h rfl (fun _ => LedgerCall.ledgered) hrow
    exact ⟨hid, hvalid, (BudgetFields.failure_eq_none.mp hvalid).2.2.2⟩
  · obtain ⟨later, hl, hextends⟩ := row_later h (fun _ => LedgerCall.ledgered) hlater hrow
    exact ⟨later, hl, hextends.limits, hextends.bindingSha256, hextends.charges,
      hextends.completions, fun _ _ => hextends.completion?⟩
  · obtain ⟨ev, hev, hgrant⟩ := granted_charged h hi
    obtain ⟨ev', hev', hgrant'⟩ := granted_charged h hj
    exact grant_unique h rfl (fun _ => LedgerCall.ledgered) hev hev' hgrant hgrant'

end PayOps.Orchestrator

namespace PayOps.Orchestrator

open Process Program Relation

/-! ### A run -/

/-- A platform whose digests are all the same. -/
@[reducible] def plainPlatform : Platform where
  sha256 _ := "0"
  patternWord _ := false
  reWord _ := false
  nesting := 64
  floatRepr text := text

attribute [local instance] plainPlatform

/-- The digest of 64 times one character. -/
def plainDigest (c : Char) : Digest :=
  (Digest.validate (String.ofList (List.replicate 64 c))).getD
    ⟨"0000000000000000000000000000000000000000000000000000000000000000", by decide⟩

/-- A retention that names an artifact by its kind. -/
@[reducible] def plainRetention : Retention where
  digest
    | .envelope _ _ => plainDigest 'e'
    | .binding _ => plainDigest 'b'
    | .preparedTurn _ => plainDigest 'a'
    | .modelReceipt _ => plainDigest 'c'
    | .readReceipt _ => plainDigest 'd'
  bytes _ := 1

attribute [local instance] plainRetention

/-- Two calls of the model, and two reads. -/
def sampleLimits : ReasoningBudget where
  modelCalls := ⟨2, by decide⟩
  tokens := ⟨1000, by decide⟩
  costNanoUsd := ⟨1000, by decide⟩
  toolCalls := ⟨2, by decide⟩
  backendReads := ⟨4, by decide⟩
  providerRequests := ⟨0, by decide⟩

/-- The tokens that a call may return. -/
def sampleOutputLimit : { n : ℕ // 1 ≤ n ∧ n ≤ 16384 } := ⟨50, by decide⟩

/-- What a token costs. -/
def samplePrice : TextPrice := ⟨⟨1, by decide⟩, ⟨1, by decide⟩, ⟨1, by decide⟩⟩

/-- The first call of the model. -/
def sampleCharge : Charge := .model
  { operationId := ⟨"model-01", by decide⟩
    promptSha256 := plainDigest 'a'
    inputTokens := ⟨100, by decide⟩
    outputTokenLimit := sampleOutputLimit
    price := samplePrice
    tokenAccounting := .fixtureExact
    providerRequests := 0
    census := by decide }

/-- The name of an incident. -/
def sampleId : Identifier := ⟨"inc-1", by decide⟩

/-- The record of a run with nothing charged. -/
def sampleRecord : BudgetRecord :=
  ⟨.fresh sampleId (plainDigest 'b') sampleLimits, BudgetFields.fresh_valid ..⟩

/-- A ledger that is opened, and charged for the same operation twice from the same record. -/
def sampleLedger : Config Host Durable LedgerReply :=
  let call (c : Config Host Durable LedgerReply) p := c.ran (Durable.handler fun _ => .error (.other "")) p
  call (call (call ⟨Durable.empty, [], []⟩
    ((BudgetLedger.openRun sampleRecord.runId (plainDigest 'b') sampleLimits).bind fun r =>
      .done (.opened r)))
    ((BudgetLedger.reserve sampleRecord sampleCharge).bind fun g => .done (.reserved g)))
    ((BudgetLedger.reserve sampleRecord sampleCharge).bind fun g => .done (.reserved g))

theorem sampleLedger_reached : LedgerReached sampleLedger :=
  ((Reachable.call .refl (Durable.handler_answer _) (.openRun _ _ _)).call (Durable.handler_answer _)
    (.reserve _ _)).call (Durable.handler_answer _) (.reserve _ _)

/-- In that run one charge is stored, and within the allowances. -/
theorem budget_history_sample : ∃ row, sampleLedger.shared.budgets "inc-1" = some row ∧
    row.charges = [sampleCharge] ∧ ∀ m, total row.charges m ≤ row.limits.limit m := by
  have hcharged : (sampleLedger.shared.budgets "inc-1").map (fun r => r.charges) =
      some [sampleCharge] := by
    decide +kernel
  obtain ⟨row, hrow, hcharges⟩ := Option.map_eq_some_iff.mp hcharged
  exact ⟨row, hrow, hcharges, ((budget_history sampleLedger_reached "inc-1").1 row hrow).2.2⟩

end PayOps.Orchestrator
