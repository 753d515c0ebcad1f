import PayOps.Orchestrator.Reasoning

/-!
# Budget records

The record of `payops.orchestrator.budget`: what a run may spend, what it has been charged, and
which charged operations have a result.

## The model

The allowances are one family, indexed by `Meter`; a charge has an amount for each meter, and a
record's total on a meter is the sum over its charges. A stored payload is `BudgetFields`; a
`BudgetRecord` is one that passes the validation.

## What is proved

* `failure_eq_none` — what a valid record satisfies.
* `denied_mono` — **a charge denied once is denied for good**: no later charge makes room for it.
-/

namespace PayOps.Orchestrator

variable [Platform]

/-! ### Allowances -/

/-- A number up to `n`. -/
abbrev UpTo (n : ℕ) := { k : ℕ // k ≤ n }

/-- Nothing yet. -/
def UpTo.zero (n : ℕ) : UpTo n := ⟨0, Nat.zero_le n⟩

/-- What a run may spend. -/
structure ReasoningBudget where
  /-- Calls of the model. -/
  modelCalls : UpTo 10
  /-- Tokens. -/
  tokens : UpTo 100000
  /-- Nanodollars. -/
  costNanoUsd : UpTo 1000000000000
  /-- Reads. -/
  toolCalls : UpTo 40
  /-- Underlying commands and queries. -/
  backendReads : UpTo 64
  /-- Requests to the provider. -/
  providerRequests : UpTo 20
  deriving DecidableEq

/-- What is metered. -/
inductive Meter where
  /-- Calls of the model. -/
  | modelCalls
  /-- Tokens. -/
  | tokens
  /-- Nanodollars. -/
  | costNanoUsd
  /-- Requests to the provider. -/
  | providerRequests
  /-- Reads. -/
  | toolCalls
  /-- Underlying commands and queries. -/
  | backendReads
  deriving DecidableEq

/-- Every meter. -/
def Meter.all : List Meter :=
  [modelCalls, tokens, costNanoUsd, providerRequests, toolCalls, backendReads]

omit [Platform] in
@[simp] theorem Meter.mem_all (m : Meter) : m ∈ Meter.all := by
  cases m <;> decide

/-- The allowance on a meter. -/
def ReasoningBudget.limit (b : ReasoningBudget) : Meter → ℕ
  | .modelCalls => b.modelCalls
  | .tokens => b.tokens
  | .costNanoUsd => b.costNanoUsd
  | .providerRequests => b.providerRequests
  | .toolCalls => b.toolCalls
  | .backendReads => b.backendReads

/-! ### Charges -/

/-- A call of the model. -/
structure ModelCharge where
  /-- The operation. -/
  operationId : Identifier
  /-- The retained prompt. -/
  promptSha256 : Digest
  /-- Its tokens. -/
  inputTokens : UpTo 100000
  /-- The cap on the answer. -/
  outputTokenLimit : { n : ℕ // 1 ≤ n ∧ n ≤ 16384 }
  /-- The rates. -/
  price : TextPrice
  /-- How the tokens are counted. -/
  tokenAccounting : TokenAccounting
  /-- The requests to the provider. -/
  providerRequests : ℕ
  /-- `request_census`. -/
  census : providerRequests = if tokenAccounting = .providerCeiling then 2 else 0
  deriving DecidableEq

/-- `ModelCharge.tokens`. -/
def ModelCharge.tokens (c : ModelCharge) : ℕ := c.inputTokens.val + c.outputTokenLimit.val

/-- `ModelCharge.cost`: cached input is never cheaper than reserved. -/
def ModelCharge.cost (c : ModelCharge) : ℕ :=
  c.inputTokens.val * max c.price.inputNanoUsd.val c.price.cachedInputNanoUsd.val +
    c.outputTokenLimit.val * c.price.outputNanoUsd.val

/-- A batch of reads. -/
structure ReadCharge where
  /-- The operation. -/
  operationId : Identifier
  /-- The batch. -/
  requests : List ReadRequest
  /-- The stored cost. -/
  backendReadCount : ℕ
  /-- `Field(min_length=1, max_length=2)`. -/
  bounded : 1 ≤ requests.length ∧ requests.length ≤ 2
  /-- `distinct`: no request twice, -/
  distinct : requests.Nodup
  /-- and the cost of the catalog. -/
  catalogued : backendReadCount = backendCost requests
  deriving DecidableEq

/-- A charge. -/
inductive Charge where
  /-- `kind: model`. -/
  | model (c : ModelCharge)
  /-- `kind: reads`. -/
  | reads (c : ReadCharge)
  deriving DecidableEq

namespace Charge

/-- The operation a charge is for. -/
def operationId : Charge → Identifier
  | model c => c.operationId
  | reads c => c.operationId

/-- What a charge takes from a meter. -/
def amount : Charge → Meter → ℕ
  | model _, .modelCalls => 1
  | model c, .tokens => c.tokens
  | model c, .costNanoUsd => c.cost
  | model c, .providerRequests => c.providerRequests
  | reads c, .toolCalls => c.requests.length
  | reads c, .backendReads => c.backendReadCount
  | _, _ => 0

end Charge

/-- What charges take from a meter together. -/
def total (charges : List Charge) (m : Meter) : ℕ := (charges.map fun c => c.amount m).sum

@[simp] theorem total_append (cs ds : List Charge) (m : Meter) :
    total (cs ++ ds) m = total cs m + total ds m := by
  simp [total]

/-! ### Records -/

/-- The retained result of an operation. -/
structure Completion where
  /-- The operation. -/
  operationId : Identifier
  /-- The artifact. -/
  artifactSha256 : Digest
  deriving DecidableEq

/-- The fields of a record, as a row stores them. -/
structure BudgetFields where
  /-- The run. -/
  runId : Identifier
  /-- What the run is bound to. -/
  bindingSha256 : Digest
  /-- What it may spend. -/
  limits : ReasoningBudget
  /-- What it was charged, oldest first. -/
  charges : List Charge := []
  /-- Which operations have a result, oldest first. -/
  completions : List Completion := []
  deriving DecidableEq

namespace BudgetFields

/-- The operations that were charged. -/
def operations (r : BudgetFields) : List Identifier := r.charges.map Charge.operationId

/-- The operations that have a result. -/
def completed (r : BudgetFields) : List Identifier := r.completions.map Completion.operationId

/-- The fields with one more charge. -/
def charge (r : BudgetFields) (c : Charge) : BudgetFields := { r with charges := r.charges ++ [c] }

/-- The fields with one more result. -/
def complete (r : BudgetFields) (x : Completion) : BudgetFields :=
  { r with completions := r.completions ++ [x] }

/-- What the validation raises, if it raises: the bounds of the fields, then `within_limits`. -/
def failure (r : BudgetFields) : Option String :=
  if 50 < r.charges.length ∨ 50 < r.completions.length then some "at most 50 items"
  else if ¬r.operations.Nodup then some "duplicate budget operation"
  else if ¬r.completed.Nodup ∨ ¬r.completed ⊆ r.operations then
    some "completion lacks one unique reserved operation"
  else if Meter.all.any fun m => r.limits.limit m < total r.charges m then
    some "reasoning allowance exhausted"
  else none

/-- **What a valid record satisfies**: bounded lists, no operation twice, results of charged
operations only, and no meter over its allowance. -/
theorem failure_eq_none {r : BudgetFields} :
    r.failure = none ↔ (r.charges.length ≤ 50 ∧ r.completions.length ≤ 50) ∧ r.operations.Nodup ∧
      (r.completed.Nodup ∧ r.completed ⊆ r.operations) ∧
        ∀ m, total r.charges m ≤ r.limits.limit m := by
  have hmeter : (Meter.all.any fun m => decide (r.limits.limit m < total r.charges m)) = false ↔
      ∀ m, total r.charges m ≤ r.limits.limit m := by
    simp
  by_cases hlen : 50 < r.charges.length ∨ 50 < r.completions.length
  · rw [failure, if_pos hlen]
    refine ⟨nofun, fun h => ?_⟩
    omega
  by_cases hnd : r.operations.Nodup
  · by_cases hc : r.completed.Nodup ∧ r.completed ⊆ r.operations
    · rw [failure, if_neg hlen, if_neg (not_not.mpr hnd), if_neg (by tauto), ← hmeter]
      cases Meter.all.any fun m => decide (r.limits.limit m < total r.charges m)
      · simp only [Bool.false_eq_true, if_false, true_iff]
        exact ⟨by omega, hnd, hc, trivial⟩
      · simp
    · rw [failure, if_neg hlen, if_neg (not_not.mpr hnd), if_pos (by tauto)]
      exact ⟨nofun, fun h => absurd h.2.2.1 hc⟩
  · rw [failure, if_neg hlen, if_pos hnd]
    exact ⟨nofun, fun h => absurd h.2.1 hnd⟩

end BudgetFields

/-- A record that passed its validation. -/
structure BudgetRecord extends BudgetFields where
  /-- `within_limits`. -/
  valid : toBudgetFields.failure = none
  deriving DecidableEq

/-- `BudgetRecord.model_validate`. -/
def BudgetFields.validate (r : BudgetFields) : Except Fault BudgetRecord :=
  match h : r.failure with
  | none => .ok ⟨r, h⟩
  | some message => .error (.value message)

theorem BudgetFields.validate_eq_ok {r : BudgetFields} {record : BudgetRecord} :
    r.validate = .ok record ↔ record.toBudgetFields = r := by
  constructor
  · intro h
    unfold BudgetFields.validate at h
    split at h <;> cases h
    rfl
  · rintro rfl
    unfold BudgetFields.validate
    split
    · rfl
    · rename_i h
      rw [record.valid] at h
      cases h

@[simp] theorem BudgetRecord.validate_fields (r : BudgetRecord) :
    r.toBudgetFields.validate = .ok r := BudgetFields.validate_eq_ok.mpr rfl

@[ext] theorem BudgetRecord.ext {r s : BudgetRecord} (h : r.toBudgetFields = s.toBudgetFields) :
    r = s := by
  cases r
  cases s
  cases h
  rfl

namespace BudgetFields

/-- The charge of an operation, if there is one. -/
def charge? (r : BudgetFields) (operation : Identifier) : Option Charge :=
  r.charges.find? fun c => c.operationId == operation

/-- The result of an operation, if there is one. -/
def completion? (r : BudgetFields) (operation : Identifier) : Option Completion :=
  r.completions.find? fun x => x.operationId == operation

theorem charge?_eq_none {r : BudgetFields} {operation : Identifier} :
    r.charge? operation = none ↔ operation ∉ r.operations := by
  rw [charge?, List.find?_eq_none]
  simp [operations, Subtype.ext_iff]

theorem completion?_eq_none {r : BudgetFields} {operation : Identifier} :
    r.completion? operation = none ↔ operation ∉ r.completed := by
  rw [completion?, List.find?_eq_none]
  simp [completed, Subtype.ext_iff]

/-- The charge found is one of the record, and for the operation. -/
theorem charge?_eq_some {r : BudgetFields} {operation : Identifier} {c : Charge}
    (h : r.charge? operation = some c) : c ∈ r.charges ∧ c.operationId = operation := by
  refine ⟨List.mem_of_find?_eq_some h, ?_⟩
  have hc := List.find?_some h
  exact eq_of_beq hc

end BudgetFields

/-! ### Denial -/

/-- `later` has the allowances of `r`, and its charges and more. -/
structure BudgetFields.Extends (r later : BudgetFields) : Prop where
  /-- The run, -/
  runId : later.runId = r.runId
  /-- the binding -/
  bindingSha256 : later.bindingSha256 = r.bindingSha256
  /-- and the allowances stay. -/
  limits : later.limits = r.limits
  /-- Charges are only appended, -/
  charges : r.charges <+: later.charges
  /-- and so are results. -/
  completions : r.completions <+: later.completions

theorem BudgetFields.Extends.refl (r : BudgetFields) : r.Extends r :=
  ⟨rfl, rfl, rfl, List.prefix_rfl, List.prefix_rfl⟩

theorem BudgetFields.Extends.trans {r s t : BudgetFields} (h : r.Extends s) (h' : s.Extends t) :
    r.Extends t :=
  ⟨h'.runId.trans h.runId, h'.bindingSha256.trans h.bindingSha256, h'.limits.trans h.limits,
    h.charges.trans h'.charges, h.completions.trans h'.completions⟩

/-- A charge that was found is found later. -/
theorem BudgetFields.Extends.charge? {r later : BudgetFields} (h : r.Extends later)
    {operation : Identifier} {c : Charge} (hc : r.charge? operation = some c) :
    later.charge? operation = some c := by
  obtain ⟨more, hmore⟩ := h.charges
  rw [BudgetFields.charge?] at hc ⊢
  rw [← hmore, List.find?_append, hc, Option.some_or]

/-- A result that was found is found later. -/
theorem BudgetFields.Extends.completion? {r later : BudgetFields} (h : r.Extends later)
    {operation : Identifier} {x : Completion} (hx : r.completion? operation = some x) :
    later.completion? operation = some x := by
  obtain ⟨more, hmore⟩ := h.completions
  rw [BudgetFields.completion?] at hx ⊢
  rw [← hmore, List.find?_append, hx, Option.some_or]

/-- **A charge denied once is denied for good.** -/
theorem denied_mono {r later : BudgetRecord} (h : r.Extends later.toBudgetFields) {c : Charge}
    (hnew : r.charge? c.operationId = none) (hdenied : (r.charge c).failure ≠ none) :
    (later.charge c).failure ≠ none := by
  intro hnone
  apply hdenied
  obtain ⟨-, hnd, hc, -⟩ := BudgetFields.failure_eq_none.mp r.valid
  obtain ⟨hlen, -, -, hm⟩ := BudgetFields.failure_eq_none.mp hnone
  obtain ⟨more, hmore⟩ := h.charges
  obtain ⟨done, hdone⟩ := h.completions
  rw [BudgetFields.charge?_eq_none] at hnew
  refine BudgetFields.failure_eq_none.mpr ⟨?_, ?_, ⟨hc.1, ?_⟩, fun m => ?_⟩
  · simp only [BudgetFields.charge, ← hmore, ← hdone, List.length_append] at hlen ⊢
    omega
  · simp only [BudgetFields.operations, BudgetFields.charge, List.map_append, List.map_cons,
      List.map_nil]
    exact List.nodup_append'.mpr ⟨hnd, List.nodup_singleton _, by
      simpa [BudgetFields.operations] using hnew⟩
  · intro o ho
    simp only [BudgetFields.operations, BudgetFields.charge, List.map_append]
    exact List.mem_append_left _ (hc.2 ho)
  · have := hm m
    simp only [BudgetFields.charge, ← hmore, total_append, h.limits] at this ⊢
    omega

end PayOps.Orchestrator
