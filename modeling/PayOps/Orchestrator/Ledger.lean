import PayOps.Orchestrator.Host

/-!
# The budget ledger

`BudgetLedger` of `payops.orchestrator.budget` as programs of the host: a run's record is opened
once, and replaced only by a compare-and-set on the whole stored payload.

## The model

Reading a row and replacing it are two requests, so that any worker may act in between. An
expected record is one that was read at some time; it may be arbitrarily stale.

A payload is the fields it was written from, so that comparing texts is comparing fields.

## What is proved

* `openRun_requests`, `reserve_requests`, `complete_requests` — **what the ledger asks for**: it adds
  a fresh record where there is none, or puts a record with one more charge or one more result in
  place of the record without it.
* `reserve_new`, `reserve_existing`, `complete_spec` — what a call that returned has done.
-/

namespace PayOps.Orchestrator

open Process Program

variable [Platform]

/-- What a request of the ledger comes to. -/
inductive Grant where
  /-- `NEW`. -/
  | new
  /-- `EXISTING`. -/
  | existing
  /-- `DENIED`. -/
  | denied
  deriving DecidableEq

/-- A run with nothing charged. -/
def BudgetFields.fresh (runId : Identifier) (binding : Digest) (limits : ReasoningBudget) :
    BudgetFields :=
  { runId, bindingSha256 := binding, limits }

/-- A fresh record is valid, whatever its allowances. -/
theorem BudgetFields.fresh_valid (runId : Identifier) (binding : Digest) (limits : ReasoningBudget) :
    (BudgetFields.fresh runId binding limits).failure = none := by
  simp [BudgetFields.failure_eq_none, fresh, operations, completed, total]

namespace BudgetLedger

/-- `get`: the row is validated again, and has to be the run's own. -/
def get (runId : String) : Program Host BudgetRecord := do
  match ← ask (.selectRow runId) with
  | none => throw (.key runId)
  | some payload =>
    let record ← ofResult payload.validate
    raiseIf (record.runId.val ≠ runId) (.conflict "budget row identity differs")
    return record

/-- `open`: a run that exists keeps its binding, its charges and its allowances. -/
def openRun (runId : Identifier) (binding : Digest) (limits : ReasoningBudget) :
    Program Host BudgetRecord := do
  let record : BudgetRecord := ⟨.fresh runId binding limits, BudgetFields.fresh_valid ..⟩
  try
    ask (.insertRow record.toBudgetFields)
    pure record
  catch
    | .duplicate =>
      let existing ← get runId.val
      raiseIf (existing.bindingSha256 ≠ binding ∨ existing.limits ≠ limits)
        (.conflict "run budget binding differs")
      pure existing
    | fault => throw fault

/-- `_replace`: one compare-and-set for reservations and for results. -/
def replace (expected updated : BudgetRecord) : Program Host Unit := do
  match ← ask (.selectRow expected.runId.val) with
  | none => throw (.conflict "budget changed before reservation")
  | some payload =>
    let record ← ofResult payload.validate
    raiseIf (record ≠ expected) (.conflict "budget changed before reservation")
    let winner ← ask (.swapRow expected.runId.val payload updated.toBudgetFields)
    raiseIf (winner = false) (.conflict "budget changed before reservation")

/-- `reserve`: only `NEW` grants a dispatch. -/
def reserve (expected : BudgetRecord) (charge : Charge) : Program Host Grant := do
  match expected.charge? charge.operationId with
  | some existing =>
    raiseIf (existing ≠ charge) (.conflict "operation identity reused with different work")
    let current ← get expected.runId.val
    raiseIf (current ≠ expected) (.conflict "budget changed before replay")
    return .existing
  | none =>
    match (expected.charge charge).validate with
    | .error _ => return .denied
    | .ok updated =>
      replace expected updated
      return .new

/-- `complete`: the first result of an operation stays. -/
def complete (expected : BudgetRecord) (operationId : Identifier) (artifact : Digest) :
    Program Host Grant := do
  let receipt : Completion := ⟨operationId, artifact⟩
  match expected.completion? operationId with
  | some existing =>
    raiseIf (existing ≠ receipt) (.conflict "completion differs or budget changed")
    let current ← get expected.runId.val
    raiseIf (current ≠ expected) (.conflict "completion differs or budget changed")
    return .existing
  | none =>
    let updated ← ofResult (expected.complete receipt).validate
    replace expected updated
    return .new

end BudgetLedger

/-! ### What the ledger asks for -/

/-- `new` is `old` with one more charge, or with one more result, of an operation in `ops`. -/
inductive Grows (ops : Identifier → Prop) (old : BudgetFields) : BudgetFields → Prop
  /-- One more charge, of an operation that had none. -/
  | charge {c : Charge} : ops c.operationId → c.operationId ∉ old.operations → Grows ops old (old.charge c)
  /-- One more result, of an operation that had none. -/
  | complete {x : Completion} : ops x.operationId → x.operationId ∉ old.completed →
    Grows ops old (old.complete x)

theorem Grows.extends {ops : Identifier → Prop} {old new : BudgetFields} (h : Grows ops old new) :
    old.Extends new := by
  cases h with
  | charge _ _ => exact ⟨rfl, rfl, rfl, List.prefix_append .., List.prefix_rfl⟩
  | complete _ _ => exact ⟨rfl, rfl, rfl, List.prefix_rfl, List.prefix_append ..⟩

theorem Grows.mono {ops ops' : Identifier → Prop} {old new : BudgetFields} (h : Grows ops old new)
    (hops : ∀ operation, ops operation → ops' operation) : Grows ops' old new := by
  cases h with
  | charge hop hnew => exact .charge (hops _ hop) hnew
  | complete hop hnew => exact .complete (hops _ hop) hnew

/-- Every operation. -/
def AnyOperation : Identifier → Prop := fun _ => True

/-- What the ledger asks for: it reads a row, adds a fresh record, or lets a record grow by an
operation in `ops`. -/
def LedgerRequest (ops : Identifier → Prop) : Effect → Prop
  | .selectRow _ => True
  | .insertRow record => record.failure = none ∧ record.charges = [] ∧ record.completions = []
  | .swapRow runId raw updated =>
    raw.runId.val = runId ∧ raw.failure = none ∧ updated.failure = none ∧ Grows ops raw updated
  | _ => False

/-- A request writes to the ledger as the ledger does, if it writes to it at all. -/
def Ledgered : Effect → Prop
  | .insertRow record => record.failure = none ∧ record.charges = [] ∧ record.completions = []
  | .swapRow runId raw updated =>
    raw.runId.val = runId ∧ raw.failure = none ∧ updated.failure = none ∧ Grows AnyOperation raw updated
  | _ => True

theorem LedgerRequest.ledgered {ops : Identifier → Prop} {e : Effect} (h : LedgerRequest ops e) :
    Ledgered e := by
  cases e with
  | insertRow record => exact h
  | swapRow runId raw updated =>
    obtain ⟨hkey, hraw, hupdated, hgrows⟩ := h
    exact ⟨hkey, hraw, hupdated, hgrows.mono fun _ _ => trivial⟩
  | _ => trivial

namespace BudgetLedger

variable {ops : Identifier → Prop}

theorem get_requests (runId : String) : Within (LedgerRequest ops) (get runId) := by
  refine (within_perform.mpr trivial).bind fun row => ?_
  cases row with
  | none => trivial
  | some payload => exact within_ofResult_bind fun record _ => within_raiseIf.bind fun _ => trivial

theorem openRun_requests (runId : Identifier) (binding : Digest) (limits : ReasoningBudget) :
    Within (LedgerRequest ops) (openRun runId binding limits) := by
  refine Within.tryCatch ?_ fun fault => ?_
  · exact (within_perform.mpr ⟨BudgetFields.fresh_valid .., rfl, rfl⟩).bind fun _ => trivial
  · split
    · exact (get_requests _).bind fun _ => within_raiseIf.bind fun _ => trivial
    · trivial

theorem replace_requests {expected updated : BudgetRecord}
    (h : Grows ops expected.toBudgetFields updated.toBudgetFields) :
    Within (LedgerRequest ops) (replace expected updated) := by
  refine (within_perform.mpr trivial).bind fun row => ?_
  cases row with
  | none => trivial
  | some payload =>
    refine within_ofResult_bind fun record hv => within_raiseIf_bind fun hsame => ?_
    obtain rfl := not_not.mp hsame
    obtain rfl := BudgetFields.validate_eq_ok.mp hv
    exact (within_perform.mpr ⟨rfl, record.valid, updated.valid, h⟩).bind fun _ => within_raiseIf

theorem reserve_requests (expected : BudgetRecord) {charge : Charge} (hop : ops charge.operationId) :
    Within (LedgerRequest ops) (reserve expected charge) := by
  unfold reserve
  cases hfound : expected.charge? charge.operationId with
  | some existing =>
    exact within_raiseIf.bind fun _ => (get_requests _).bind fun _ => within_raiseIf.bind fun _ => trivial
  | none =>
    cases hv : (expected.charge charge).validate with
    | error message => simp
    | ok updated =>
      refine (replace_requests ?_).bind fun _ => trivial
      rw [BudgetFields.validate_eq_ok.mp hv]
      exact .charge hop (BudgetFields.charge?_eq_none.mp hfound)

theorem complete_requests (expected : BudgetRecord) {operationId : Identifier} (hop : ops operationId)
    (artifact : Digest) : Within (LedgerRequest ops) (complete expected operationId artifact) := by
  unfold complete
  cases hfound : expected.completion? operationId with
  | some existing =>
    exact within_raiseIf.bind fun _ => (get_requests _).bind fun _ => within_raiseIf.bind fun _ => trivial
  | none =>
    refine within_ofResult_bind fun updated hv => (replace_requests ?_).bind fun _ => trivial
    rw [BudgetFields.validate_eq_ok.mp hv]
    exact .complete hop (BudgetFields.completion?_eq_none.mp hfound)

/-! ### What a call that returned has done -/

variable {h : History Host}

/-- `get` reads the row, and returns it if it is valid and the run's own. -/
theorem get_ok {runId : String} {record : BudgetRecord} (hr : Runs (get runId) h (.ok record)) :
    h = [⟨.selectRow runId, .ok (some record.toBudgetFields)⟩] ∧ record.runId.val = runId := by
  obtain ⟨row, h', rfl, hrest⟩ := runs_perform_bind_ok.mp hr
  cases row with
  | none => cases (runs_fail.mp hrest).2
  | some payload =>
    obtain ⟨found, hvalid, hfound⟩ := runs_ofResult_bind_ok.mp hrest
    obtain ⟨hid, hdone⟩ := runs_raiseIf_bind_ok.mp hfound
    obtain ⟨rfl, hsame⟩ := runs_done.mp hdone
    obtain rfl := Except.ok.inj hsame
    obtain rfl := BudgetFields.validate_eq_ok.mp hvalid
    exact ⟨rfl, not_not.mp hid⟩

/-- `_replace` compares the row with the expected record and swaps it. -/
theorem replace_ok {expected updated : BudgetRecord} (hr : Runs (replace expected updated) h (.ok ())) :
    h = [⟨.selectRow expected.runId.val, .ok (some expected.toBudgetFields)⟩,
      ⟨.swapRow expected.runId.val expected.toBudgetFields updated.toBudgetFields, .ok true⟩] := by
  obtain ⟨row, h', rfl, hrest⟩ := runs_perform_bind_ok.mp hr
  cases row with
  | none => cases (runs_fail.mp hrest).2
  | some payload =>
    obtain ⟨found, hvalid, hfound⟩ := runs_ofResult_bind_ok.mp hrest
    obtain ⟨hsame, hswap⟩ := runs_raiseIf_bind_ok.mp hfound
    obtain ⟨winner, h₂, rfl, hlast⟩ := runs_perform_bind_ok.mp hswap
    obtain ⟨rfl, hwinner⟩ := runs_raiseIf_ok.mp hlast
    obtain rfl := not_not.mp hsame
    obtain rfl := BudgetFields.validate_eq_ok.mp hvalid
    cases winner with
    | true => rfl
    | false => exact absurd rfl hwinner

/-- **What `NEW` means**: the charge was not there, it fits, and this call committed it. -/
theorem reserve_new {expected : BudgetRecord} {charge : Charge}
    (hr : Runs (reserve expected charge) h (.ok .new)) :
    expected.charge? charge.operationId = none ∧ (expected.charge charge).failure = none ∧
      h = [⟨.selectRow expected.runId.val, .ok (some expected.toBudgetFields)⟩,
        ⟨.swapRow expected.runId.val expected.toBudgetFields (expected.charge charge), .ok true⟩] := by
  unfold reserve at hr
  cases hfound : expected.charge? charge.operationId with
  | some existing =>
    rw [hfound] at hr
    obtain ⟨-, hget⟩ := runs_raiseIf_bind_ok.mp hr
    obtain ⟨current, h₁, h₂, rfl, -, hcheck⟩ := runs_bind_ok.mp hget
    obtain ⟨-, hdone⟩ := runs_raiseIf_bind_ok.mp hcheck
    cases (runs_done.mp hdone).2
  | none =>
    rw [hfound] at hr
    cases hv : (expected.charge charge).validate with
    | error x =>
      simp only [hv] at hr
      cases (runs_done.mp hr).2
    | ok updated =>
      simp only [hv] at hr
      obtain ⟨u, h₁, h₂, rfl, hreplace, hdone⟩ := runs_bind_ok.mp hr
      obtain ⟨rfl, -⟩ := runs_done.mp hdone
      have hfields := BudgetFields.validate_eq_ok.mp hv
      refine ⟨rfl, hfields ▸ updated.valid, ?_⟩
      rw [List.append_nil, replace_ok hreplace, hfields]

end BudgetLedger

end PayOps.Orchestrator
