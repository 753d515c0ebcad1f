import PayOps.Orchestrator.LoopOnce
import PayOps.Orchestrator.ModelRuntime

/-!
# Reserved cost and actual cost

`ModelCharge.tokens` and `ModelCharge.cost` of `payops.orchestrator.budget` against
`TextPrice.cost_nano_usd` of `payops.orchestrator.reasoning`: what is charged before a call of the model, and
what the provider then says that the call used.

## The model

What a runtime can return is what one of its calls has returned, in any interleaving, with any adapter
(`Returned`). A run's observed calls are the answered calls of the model in its trace; each of them has been made
by a run of some configuration, whose settings name the rates.

## What is proved

* `ModelCharge.cost_bound`, `ModelCharge.tokens_bound` — usage within the reserved tokens costs no more than was
  reserved, whatever the rates are.
* `invoke_counted`, `returned_counted` — **what the runtime returns is within the reserved tokens**, unless it is
  an `ERROR`.
* `observed_charged` — the model is asked for a prompt that is charged, under the settings of its run.
* `actual_within_reserved` — **main result**: so it is for one call, and for all calls of a run together.

## Honest scope

An `ERROR` keeps the usage that violates the prepared token contract, so that it can be inspected. Usage that is
not reported has no cost.
-/

namespace PayOps.Orchestrator

open Process Program Evidence ModelRuntime

section Model

variable [Platform]

/-! ### One call -/

/-- `TextPrice.cost_nano_usd`; the census of a usage keeps cached input within the input. -/
def TextPrice.costNanoUsd (price : TextPrice) : Option ModelRuntime.ProviderUsage → Option ℕ
  | none => none
  | some usage => some ((usage.inputTokens.val - usage.cachedInputTokens.val) * price.inputNanoUsd.val +
      usage.cachedInputTokens.val * price.cachedInputNanoUsd.val +
      usage.outputTokens.val * price.outputNanoUsd.val)

/-- The usage is within the tokens that are reserved for input and output. -/
def ModelRuntime.ProviderUsage.Reserved (usage : ModelRuntime.ProviderUsage) (input output : ℕ) : Prop :=
  usage.inputTokens.val ≤ input ∧ usage.outputTokens.val ≤ output

instance {usage : ModelRuntime.ProviderUsage} {input output : ℕ} : Decidable (usage.Reserved input output) :=
  inferInstanceAs (Decidable (_ ∧ _))

/-- **Reserved cost bounds actual cost**, for any relation between the rates. -/
theorem ModelCharge.cost_bound {c : ModelCharge} {usage : ModelRuntime.ProviderUsage} {cost : ℕ}
    (h : usage.Reserved c.inputTokens.val c.outputTokenLimit.val)
    (hcost : c.price.costNanoUsd (some usage) = some cost) : cost ≤ c.cost := by
  obtain ⟨hinput, houtput⟩ := h
  have hcached := usage.census.2
  rw [← Option.some.inj hcost]
  refine Nat.add_le_add ?_ (Nat.mul_le_mul_right _ houtput)
  calc (usage.inputTokens.val - usage.cachedInputTokens.val) * c.price.inputNanoUsd.val +
        usage.cachedInputTokens.val * c.price.cachedInputNanoUsd.val
      ≤ (usage.inputTokens.val - usage.cachedInputTokens.val) *
            max c.price.inputNanoUsd.val c.price.cachedInputNanoUsd.val +
          usage.cachedInputTokens.val * max c.price.inputNanoUsd.val c.price.cachedInputNanoUsd.val :=
        Nat.add_le_add (Nat.mul_le_mul_left _ (le_max_left ..)) (Nat.mul_le_mul_left _ (le_max_right ..))
    _ = usage.inputTokens.val * max c.price.inputNanoUsd.val c.price.cachedInputNanoUsd.val := by
        rw [← Nat.add_mul, Nat.sub_add_cancel hcached]
    _ ≤ c.inputTokens.val * max c.price.inputNanoUsd.val c.price.cachedInputNanoUsd.val :=
        Nat.mul_le_mul_right _ hinput

/-- Reserved tokens bound actual tokens. -/
theorem ModelCharge.tokens_bound {c : ModelCharge} {usage : ModelRuntime.ProviderUsage}
    (h : usage.Reserved c.inputTokens.val c.outputTokenLimit.val) : usage.totalTokens.val ≤ c.tokens := by
  have hcensus := usage.census.1
  have hreserved := h
  unfold ModelRuntime.ProviderUsage.Reserved at hreserved
  unfold ModelCharge.tokens
  omega

namespace ModelRuntime

variable {settings : ModelSettings} {staged : Staged} {prompt : ModelPrompt} {h : History Runtime}

/-- The usage of an outcome is within what is reserved for its prompt, unless the outcome is an `ERROR`. -/
def Counted (settings : ModelSettings) (prompt : ModelPrompt) (o : Observation) : Prop :=
  ∀ usage, o.usage = some usage → o.status ≠ .error →
    usage.Reserved prompt.inputTokens.val settings.outputTokenLimit.val

theorem counted_none {o : Observation} (h : o.usage = none) : Counted settings prompt o := by
  intro usage husage
  rw [h] at husage
  cases husage

theorem counted_error {o : Observation} (h : o.status = .error) : Counted settings prompt o :=
  fun _ _ hstatus => absurd h hstatus

theorem counted_of_reserved {o : Observation} {usage : Option ProviderUsage} {details : Option ProviderDetails}
    (h : o.usage = usage) (hreserved : violates settings prompt usage details = false) :
    Counted settings prompt o := by
  intro u hu _
  rw [h] at hu
  subst hu
  simp only [violates, Option.any_some, Bool.or_eq_false_iff, decide_eq_false_iff_not] at hreserved
  exact ⟨Nat.le_of_not_lt hreserved.1.2, Nat.le_of_not_lt hreserved.2⟩

omit [Platform] in
/-- An exception returns nothing. -/
theorem raised_returns {α : Type} {x : WorkerFault} {P : α → Prop} (a : α)
    (ha : (.error x : Except WorkerFault α) = .ok a) : P a := by
  cases ha

/-- Whatever a program asks for. -/
def Anything : History Runtime → Event Runtime → Prop := fun _ _ => True

theorem follows_anything {α : Type} {p : Program Runtime α} {Q : Except WorkerFault α → History Runtime → Prop}
    (hQ : ∀ r h', Q r h') : Follows Anything p h Q :=
  (Follows.within (R := fun _ => True) (within_anything p) trivial fun _ _ _ _ => ⟨trivial, trivial⟩).mono
    fun r h' _ => hQ r h'

section Calls

variable [DecisionSchema]

theorem decision_usage {message : AIMessage} {usage : Option ProviderUsage} {seconds : ℚ}
    {evidenceIds : List Identifier} {causes : List String} :
    (decision message usage seconds evidenceIds causes).usage = usage := by
  unfold decision
  split
  · rfl
  · split_ifs
    · rfl
    · split
      · rfl
      · exact decided_fields.2

omit [DecisionSchema] in
/-- What the handlers make of an exception is an `ERROR`, or has the usage of a denied call. -/
theorem failed_counted {x : WorkerFault} {usage : Option ProviderUsage} {seconds : Option ℚ}
    {details : Option ProviderDetails}
    (hx : x = .permission → usage = none ∨ violates settings prompt usage details = false) :
    Follows Anything (failed x usage seconds details) h fun r _ =>
      ∀ o, r = .ok o → Counted settings prompt o := by
  unfold failed
  split
  next =>
    intro o ho
    cases ho
    rcases hx rfl with hnone | hreserved
    · exact counted_none hnone
    · exact counted_of_reserved rfl hreserved
  next =>
    split_ifs
    · intro o ho
      cases ho
      exact counted_error rfl
    · intro o ho
      cases ho

/-- **Usage that violates the prepared contract ends in a `ValueError`.** -/
theorem accept_counted {evidenceIds : List Identifier} {causes : List String} {deadline : ℚ}
    {message : AIMessage} {seconds : ℚ} {details : Option ProviderDetails} {usage : Option ProviderUsage} :
    Follows Anything (accept settings prompt evidenceIds causes deadline message seconds details usage) h
      fun r _ => (∀ o, r = .ok o → Counted settings prompt o) ∧
        (r = .error .permission → violates settings prompt usage details = false) := by
  refine follows_raiseIf_bind.mpr ⟨fun _ => ⟨raised_returns, fun hx => by cases hx⟩, fun hcontract => ?_⟩
  rw [Bool.not_eq_true] at hcontract
  refine follows_raiseIf_bind.mpr ⟨fun _ => ⟨raised_returns, fun hx => by cases hx⟩, fun _ => ?_⟩
  refine follows_bind.mpr (follows_anything fun r h' => ?_)
  cases r with
  | error x => exact ⟨raised_returns, fun _ => hcontract⟩
  | ok allowed =>
    dsimp only
    split_ifs
    · refine ⟨fun o ho => ?_, fun _ => hcontract⟩
      cases ho
      exact counted_of_reserved decision_usage hcontract
    · refine ⟨fun o ho => ?_, fun _ => hcontract⟩
      cases ho
      exact counted_of_reserved rfl hcontract

/-- **What `_invoke` returns is within the reserved tokens**, unless it is an `ERROR`. -/
theorem invoke_counted {evidenceIds : List Identifier} {causes : List String} {deadline : ℚ} :
    Follows Anything (invoke settings staged prompt evidenceIds causes deadline) h fun r _ =>
      ∀ o, r = .ok o → Counted settings prompt o := by
  refine follows_bind.mpr (follows_attempt.mpr (follows_anything fun before h₁ => ?_))
  rcases before with x | _ | _
  · exact failed_counted fun _ => .inl rfl
  · intro o ho
    cases ho
    exact counted_none rfl
  refine follows_bind.mpr (follows_attempt.mpr (follows_anything fun dispatched h₂ => ?_))
  rcases dispatched with x | ⟨message, seconds, details⟩
  · exact failed_counted fun _ => .inl rfl
  refine follows_bind.mpr (follows_attempt.mpr (follows_anything fun projected h₃ => ?_))
  rcases projected with x | usage
  · exact failed_counted fun _ => .inl rfl
  refine follows_bind.mpr (follows_attempt.mpr (accept_counted.mono ?_))
  rintro (x | result) h₄ ⟨hok, hdenied⟩
  · refine failed_counted fun hx => .inr (hdenied ?_)
    rw [hx]
  · intro o ho
    cases ho
    exact hok _ rfl

/-! ### The calls of a runtime -/

/-- What a worker stores for a prompt is within its tokens. -/
def Stored (settings : ModelSettings) (_ : History Runtime) (ev : Event Runtime) : Prop :=
  match ev.effect with
  | .inl (.finish _ (.call prompt _ _ _) (.ok (o, _))) => Counted settings prompt o
  | _ => True

/-- The request stores nothing. -/
def Storeless : Runtime.Effect → Prop
  | .inl (.finish _ _ _) => False
  | _ => True

omit [DecisionSchema] in
theorem stored_of_storeless {ev : Event Runtime} (hev : Storeless ev.effect) : Stored settings h ev := by
  unfold Stored
  split
  next heffect =>
    rw [heffect] at hev
    exact hev.elim
  next => trivial

theorem call_storeless {evidenceIds : List Identifier} {causes : List String} {deadline : ℚ} :
    Within Storeless (call settings staged prompt evidenceIds causes deadline) := by
  have hask : ∀ e : RuntimeEffect, Within Storeless (ask e) := fun e => within_perform.mpr trivial
  have hinvoke : Within Storeless (invoke settings staged prompt evidenceIds causes deadline) :=
    invoke_within.mono fun e ⟨e', he⟩ => by rw [he]; trivial
  refine Within.bind (within_attempt.mpr ?_) fun _ => (within_perform.mpr trivial).bind fun _ => within_ofResult _
  exact (hask _).bind fun _ => hinvoke.bind fun _ => (hask _).bind fun _ => (hask _).bind fun _ => trivial

theorem call_counted {evidenceIds : List Identifier} {causes : List String} {deadline : ℚ} :
    Follows Anything (call settings staged prompt evidenceIds causes deadline) h fun r _ =>
      ∀ o finishedAt, r = .ok (o, finishedAt) → Counted settings prompt o := by
  refine follows_bind.mpr (follows_attempt.mpr ?_)
  have hbody : Follows Anything (do
      ask .span
      let result ← invoke settings staged prompt evidenceIds causes deadline
      ask .span
      let finishedAt ← ask .monotonic
      return (result, finishedAt) : Program Runtime (Observation × ℚ)) h fun r _ =>
        ∀ o finishedAt, r = .ok (o, finishedAt) → Counted settings prompt o := by
    refine follows_bind.mpr (follows_anything fun r₁ h₁ => ?_)
    cases r₁ with
    | error x => exact fun o finishedAt ho => by cases ho
    | ok _ =>
      refine follows_bind.mpr (invoke_counted.mono fun r₂ h₂ hresult => ?_)
      cases r₂ with
      | error x => exact fun o finishedAt ho => by cases ho
      | ok result =>
        refine follows_bind.mpr (follows_anything fun r₃ h₃ => ?_)
        cases r₃ with
        | error x => exact fun o finishedAt ho => by cases ho
        | ok _ =>
          refine follows_bind.mpr (follows_anything fun r₄ h₄ => ?_)
          cases r₄ with
          | error x => exact fun o finishedAt ho => by cases ho
          | ok now =>
            intro o finishedAt ho
            cases ho
            exact hresult _ rfl
  refine hbody.mono fun outcome h' hcounted => ?_
  refine follows_bind.mpr (follows_anything fun r₁ h₁ => ?_)
  cases r₁ with
  | error x => exact fun o finishedAt => raised_returns (o, finishedAt) (P := fun a => Counted settings prompt a.1)
  | ok _ =>
    refine follows_ofResult.mpr fun o finishedAt ho => ?_
    exact hcounted o finishedAt ho

/-- **What a worker stores is within the tokens of its prompt.** -/
theorem work_stored : Follows (Stored settings) (work settings staged) [] fun _ _ => True := by
  refine follows_perform_bind.mpr fun r => ⟨trivial, fun _ _ => trivial, fun job hjob => ?_⟩
  obtain ⟨id, _ | ⟨prompt, evidenceIds, causes, deadline⟩⟩ := job
  · refine follows_bind.mpr (follows_attempt.mpr ?_)
    have hjob' : Within Storeless authorityJob := by
      refine Within.bind (within_attempt.mpr ?_) fun _ =>
        (within_perform.mpr trivial).bind fun _ => within_ofResult _
      exact (within_perform.mpr trivial).bind fun _ => (within_perform.mpr trivial).bind fun _ => trivial
    refine (Follows.within (R := fun _ => True) hjob' trivial fun _ _ _ hev =>
      ⟨stored_of_storeless hev, trivial⟩).mono fun outcome h' _ => ?_
    exact follows_perform_bind.mpr fun _ => ⟨trivial, fun _ _ => trivial, fun _ _ => trivial⟩
  · refine follows_bind.mpr (follows_attempt.mpr ?_)
    refine (Follows.and_runs (Follows.within (R := fun _ => True) call_storeless trivial fun _ _ _ hev =>
      ⟨stored_of_storeless hev, trivial⟩)).mono ?_
    rintro outcome h' ⟨-, g, -, hruns⟩
    have hcounted := Follows.runs (h := []) call_counted hruns
    refine follows_perform_bind.mpr fun _ => ⟨?_, fun _ _ => trivial, fun _ _ => trivial⟩
    rcases outcome with x | ⟨o, finishedAt⟩
    · trivial
    · exact hcounted o finishedAt rfl

/-- A caller stores nothing. -/
theorem Use.stored {p q : Program Runtime Returned} {ev : Event Runtime} (hp : Use settings staged p)
    (hpath : Path p (h ++ [ev]) q) : Stored settings h ev := by
  have hask : ∀ e : RuntimeEffect, Within Storeless (ask e) := fun e => within_perform.mpr trivial
  have hsubmit : ∀ job, Within Storeless (pool (.submit job)) := fun job => within_perform.mpr trivial
  have hawait : ∀ id job, Within Storeless (pool (.await id job)) := fun id job => within_perform.mpr trivial
  have hback : ∀ {α : Type} {p : Program Runtime α}, Within Storeless p → Within Storeless (handedOver p) := by
    intro α p hp
    refine (within_attempt.mpr hp).bind fun outcome => ?_
    cases outcome with
    | error x => exact (within_perform.mpr trivial).bind fun _ => trivial
    | ok a => trivial
  cases hp with
  | authority =>
    have hwithin : Within Storeless (ModelRuntime.authority settings) := by
      refine (hask _).bind fun closed => ?_
      split_ifs
      · trivial
      refine (within_perform.mpr trivial).bind fun taken => ?_
      split_ifs
      · trivial
      refine Within.bind (hback ?_) fun out => ?_
      · exact (hask _).bind fun _ => (hsubmit _).bind fun _ => trivial
      refine (within_attempt.mpr ((hask _).bind fun _ => hawait _ _)).bind fun result => ?_
      split
      · split_ifs <;> trivial
      · trivial
      · split_ifs <;> trivial
    exact stored_of_storeless ((hwithin.path hpath).1 ev (by simp))
  | observe prompt evidenceIds causes =>
    have hwithin : Within Storeless (ModelRuntime.observe settings prompt evidenceIds causes) := by
      refine within_raiseIf.bind fun _ => (hask _).bind fun closed => within_raiseIf.bind fun _ => ?_
      refine (within_perform.mpr trivial).bind fun taken => ?_
      split_ifs
      · trivial
      refine Within.bind (hback ?_) fun out => ?_
      · exact (hask _).bind fun _ => (hsubmit _).bind fun _ => trivial
      refine (within_attempt.mpr ((hask _).bind fun _ => hawait _ _)).bind fun result => ?_
      split
      · split_ifs <;> trivial
      · trivial
      · split_ifs <;> trivial
    exact stored_of_storeless ((hwithin.path hpath).1 ev (by simp))
  | close =>
    have hwithin : Within Storeless ModelRuntime.close := (hask _).bind fun _ => (hask _).bind fun _ => trivial
    exact stored_of_storeless ((hwithin.path hpath).1 ev (by simp))
  | work => exact work_stored.event (h := []) hpath

omit [DecisionSchema] in
/-- An outcome with usage is what became of the job of the call. -/
theorem observe_awaited {evidenceIds : List Identifier} {causes : List String} :
    Follows Anything (observe settings prompt evidenceIds causes) [] fun r h =>
      ∀ o, r = .ok (.observation o) → o.usage = none ∨ ∃ id deadline finishedAt,
        ⟨.inl (.await id (.call prompt evidenceIds causes deadline)), .ok (o, finishedAt)⟩ ∈ h := by
  have hbare : ∀ {status : ObservationStatus} {hok : observationOk status none = true} {h : History Runtime} (o),
      (.ok (.observation (bare status hok none none none none)) : Except WorkerFault Returned) =
        .ok (.observation o) → o.usage = none ∨ ∃ id deadline finishedAt,
          ⟨.inl (.await id (.call prompt evidenceIds causes deadline)), .ok (o, finishedAt)⟩ ∈ h := by
    intro status hok h o ho
    cases ho
    exact .inl rfl
  have hraised : ∀ {x : WorkerFault} {h : History Runtime} (o), (.error x : Except WorkerFault Returned) =
      .ok (.observation o) → o.usage = none ∨ ∃ id deadline finishedAt,
        ⟨.inl (.await id (.call prompt evidenceIds causes deadline)), .ok (o, finishedAt)⟩ ∈ h := by
    intro x h o ho
    cases ho
  refine follows_raiseIf_bind.mpr ⟨fun _ => hraised, fun _ => ?_⟩
  refine follows_perform_bind.mpr fun r => ⟨trivial, fun _ _ => hraised, fun closed _ => ?_⟩
  refine follows_raiseIf_bind.mpr ⟨fun _ => hraised, fun _ => ?_⟩
  refine follows_perform_bind.mpr fun r => ⟨trivial, fun _ _ => hraised, fun taken _ => ?_⟩
  split_ifs
  · exact hbare
  refine follows_bind.mpr (follows_anything fun r h₁ => ?_)
  rcases r with x | ⟨deadline, id⟩
  · exact hraised
  refine follows_bind.mpr (follows_attempt.mpr (follows_perform_bind.mpr fun r =>
    ⟨trivial, fun x _ => ?_, fun later _ => follows_perform.mpr fun out => ⟨trivial, ?_⟩⟩))
  · cases x with
    | base name => exact hraised
    | _ => exact hbare
  · rcases out with x | ⟨o, finishedAt⟩
    · cases x with
      | base name => exact hraised
      | _ => exact hbare
    · dsimp only
      split_ifs
      · intro o' ho'
        cases ho'
        exact .inr ⟨id, deadline, finishedAt, by simp⟩
      · exact hbare

/-- What the runtime can return for a prompt: a call of `observe` has returned it. -/
def CanReturn (settings : ModelSettings) (staged : Staged) (prompt : ModelPrompt) (evidenceIds : List Identifier)
    (causes : List String) (o : Observation) : Prop :=
  ∃ (c : RuntimeConfig) (i : ℕ) (alive : Bool), RuntimeReachable settings staged c ∧
    c.calls[i]? = some ⟨observe settings prompt evidenceIds causes, done (.observation o), alive⟩

/-- **What the runtime returns is within the reserved tokens**, unless it is an `ERROR`. -/
theorem returned_counted {evidenceIds : List Identifier} {causes : List String} {o : Observation}
    (h : CanReturn settings staged prompt evidenceIds causes o) : Counted settings prompt o := by
  obtain ⟨c, i, alive, hreached, hcall⟩ := h
  have hruns : Runs (observe settings prompt evidenceIds causes) (c.trace.own i) (.ok (.observation o)) :=
    hreached.wellTraced.path i _ hcall
  rcases observe_awaited.runs hruns o rfl with hnone | ⟨id, deadline, finishedAt, hawait⟩
  · exact counted_none hnone
  have hjobs : Jobs c.shared c.trace := Reachable.jobs hreached
  obtain ⟨j, hfinish⟩ := hjobs.awaited i id _ _ (mem_own.mp hawait)
  obtain ⟨tr₁, tr₂, htrace⟩ := List.append_of_mem hfinish
  obtain ⟨b, s', hb, rfl, ⟨p, q, hp, hpath⟩, -⟩ := hreached.before htrace
  exact hp.stored hpath

end Calls

end ModelRuntime

/-! ### What a run charges for its calls -/

/-- The model is asked for a prompt that this run has charged, under its settings. -/
def AskedCharged (L : ReasoningLoop) (runId : Identifier) (h : History Host) (ev : Event Host) : Prop :=
  ∀ operation prompt evidenceIds causes, ev.effect = .observe operation prompt evidenceIds causes →
    ∃ raw charge, charge.operationId = operation ∧ charge.inputTokens = prompt.inputTokens ∧
      charge.outputTokenLimit = L.settings.outputTokenLimit ∧ charge.price = L.settings.price ∧
      ⟨.swapRow runId.val raw (raw.charge (.model charge)), .ok true⟩ ∈ h

/-- The request does not ask the model. -/
def Unasked (e : Effect) : Prop := ∀ operation prompt evidenceIds causes,
  e ≠ .observe operation prompt evidenceIds causes

/-- Every event of a program asks for what is charged, whatever was done before. -/
def Pays (L : ReasoningLoop) (runId : Identifier) {α : Type} (p : Program Host α) : Prop :=
  ∀ h, Follows (AskedCharged L runId) p h fun _ _ => True

section Runs

variable {L : ReasoningLoop} {runId : Identifier} {α β : Type}

theorem pays_of_unasked {p : Program Host α} (hp : Within Unasked p) : Pays L runId p := fun _ =>
  Follows.within (R := fun _ => True) hp trivial fun _ _ _ he =>
    ⟨fun _ _ _ _ heffect => absurd heffect (he _ _ _ _), trivial⟩

theorem Plain.unasked {p : Program Host α} (hp : Plain p) : Within Unasked p :=
  hp.mono fun e he _ _ _ _ heq => by
    rw [heq] at he
    cases he

theorem ledger_unasked {ops : Identifier → Prop} {p : Program Host α} (hp : Within (LedgerRequest ops) p) :
    Within Unasked p :=
  hp.mono fun e he _ _ _ _ heq => by
    rw [heq] at he
    exact he

theorem pays_composed : Composed (@Pays _ L runId) where
  plain hp := pays_of_unasked hp.unasked
  bind := by
    intro α β p f hp hf h
    refine follows_bind.mpr ((hp h).and_runs.mono ?_)
    rintro (x | a) h' ⟨-, g, rfl, hruns⟩
    · trivial
    · exact hf a g hruns _

variable [Retention] [Rendering] [SourceChecks] (I : Investigation)

omit [Rendering] [SourceChecks] in
theorem publish_unasked (root : String) (operation : Identifier) (receipt : Artifact) :
    Within Unasked (BudgetLedger.ledger.publish root runId operation receipt) := by
  refine (write_plain _ _).unasked.bind fun digest => ?_
  refine (BudgetLedger.get_plain _).unasked.bind fun record => ?_
  have hcomplete : Within (LedgerRequest AnyOperation) (BudgetLedger.complete record operation digest) :=
    BudgetLedger.complete_requests record trivial digest
  exact (ledger_unasked hcomplete).bind fun _ => trivial

namespace LoopSession

/-- **The model is asked for the prompt that was charged.** -/
theorem model_pays (s : LoopSession) (turn : ℕ) (context : ReasoningContext) :
    Pays L I.incident.incidentId (model L .live I s turn context) := by
  refine pays_composed.bind (pays_composed.plain (BudgetLedger.get_plain _)) fun record _ hrecord => ?_
  have hrun : record.runId.val = I.incident.incidentId.val := (BudgetLedger.get_ok hrecord).2
  cases record.charge? (modelOperation turn) with
  | some charged => exact pays_composed.plain (restoreModel_plain ..)
  | none =>
    refine pays_composed.bind (pays_composed.plain ?_) fun prepared _ _ => ?_
    · refine Within.tryCatch ((prompt_plain ..).bind fun _ => trivial) fun x => ?_
      split_ifs <;> trivial
    cases prepared with
    | none => exact pays_composed.done _
    | some prepared =>
      refine pays_composed.bind (pays_composed.plain (write_plain _ _)) fun digest _ _ => ?_
      intro h
      have hreserve : Within (LedgerRequest AnyOperation)
          (BudgetLedger.reserve record (.model (chargeOf L turn digest prepared))) :=
        BudgetLedger.reserve_requests record trivial
      refine follows_bind.mpr ((Follows.and_runs (pays_of_unasked (ledger_unasked hreserve) h)).mono ?_)
      rintro (x | grant) h' ⟨-, g, rfl, hruns⟩
      · trivial
      dsimp only
      split_ifs with hnew
      · subst hnew
        obtain ⟨-, -, rfl⟩ := BudgetLedger.reserve_new hruns
        refine follows_perform_bind.mpr fun r => ⟨?_, fun _ _ => trivial, fun observation _ => ?_⟩
        · rintro operation prompt evidenceIds causes ⟨⟩
          exact ⟨record.toBudgetFields, chargeOf L turn digest prepared, rfl, rfl, rfl, rfl, by simp [hrun]⟩
        · refine pays_composed.bind (pays_of_unasked (publish_unasked ..)) (fun _ _ _ => ?_) _
          exact pays_composed.plain (restoreModel_plain ..)
      · trivial

omit [Rendering] in
/-- Reads do not ask the model. -/
theorem requestReads_unasked (s : LoopSession) (turn : ℕ) (requests : List ReadRequest) :
    Within Unasked (requestReads L .live I s turn requests) := by
  have hsubmit : ∀ (operation : Identifier) (requests : List ReadRequest),
      Within Unasked (ReadRegistry.submitAll LoopHost.live.reads operation requests) := by
    intro operation requests
    induction requests with
    | nil => trivial
    | cons request requests ih =>
      exact Within.bind (within_perform.mpr fun _ _ _ _ h => by cases h) fun _ => ih.bind fun _ => trivial
  have hdispatch : ∀ record requests, Within Unasked (ReadRegistry.dispatch LoopHost.live.reads L.store
      I.incident.incidentId (readsOperation turn) requests (reserveReads .live record turn)) := by
    intro record requests
    refine Within.bind within_raiseIf fun _ => Within.bind ?_ fun admitted => ?_
    · unfold reserveReads
      split_ifs
      · have hreserve : ∀ charge, Within (LedgerRequest AnyOperation) (BudgetLedger.reserve record charge) :=
          fun charge => BudgetLedger.reserve_requests record trivial
        exact (ledger_unasked (hreserve _)).bind fun _ => trivial
      · trivial
    · split_ifs
      · refine (hsubmit _ _).bind fun pending => ?_
        exact (ReadRegistry.resultAll_plain ..).unasked.bind fun _ => (ReadRegistry.publish_plain ..).unasked
      · trivial
  have hreads : ∀ requests, Within Unasked (reads L .live I s turn requests) := by
    intro requests
    refine (BudgetLedger.get_plain _).unasked.bind fun record => ?_
    rcases record.charge? (readsOperation turn) with _ | charge | charge
    · refine (hdispatch record requests).bind fun results => ?_
      split_ifs
      · trivial
      · exact (publish_unasked ..).bind fun _ => (restoreReads_plain ..).unasked
    · trivial
    · exact within_raiseIf.bind fun _ => (restoreReads_plain ..).unasked
  unfold requestReads
  dsimp only
  split_ifs
  · trivial
  · refine (hreads _).bind fun out => ?_
    obtain ⟨outcome, s'⟩ := out
    dsimp only
    split_ifs <;> trivial

end LoopSession

/-- **A run pays for its calls.** -/
theorem run_pays (L : ReasoningLoop) (incident : Incident) (initial : List EvidenceItem) :
    Pays L incident.incidentId (L.run .live incident initial) := by
  refine run_composed L incident initial pays_composed (fun binding => ?_) fun binding => ?_
  · have hopen : Within (LedgerRequest AnyOperation)
        (BudgetLedger.openRun incident.incidentId binding L.limits) := BudgetLedger.openRun_requests ..
    exact pays_of_unasked (ledger_unasked hopen)
  · refine LoopSession.session_composed L ⟨incident, binding⟩ pays_composed ?_
    exact LoopSession.turns_composed L ⟨incident, binding⟩ pays_composed
      (fun t _ _ s context => LoopSession.model_pays ⟨incident, binding⟩ s t context)
      (fun t _ _ s requests =>
        pays_of_unasked (LoopSession.requestReads_unasked ⟨incident, binding⟩ s t requests)) 0 _

end Runs

/-! ### All calls of a run -/

omit [Platform] in
/-- A number that stands for one of distinct keys is counted once. -/
theorem indicator_sum_le {κ : Type} [DecidableEq κ] (key : κ) (n : ℕ) {keys : List κ} (h : keys.Nodup) :
    (keys.map fun k => if key = k then n else 0).sum ≤ n := by
  induction keys with
  | nil => exact Nat.zero_le n
  | cons k keys ih =>
    obtain ⟨hk, hkeys⟩ := List.nodup_cons.mp h
    rw [List.map_cons, List.sum_cons]
    by_cases hkey : key = k
    · have hrest : keys.map (fun k => if key = k then n else 0) = keys.map fun _ => 0 :=
        List.map_congr_left fun k' hk' => if_neg fun heq => hk (by rw [← hkey, heq]; exact hk')
      rw [if_pos hkey, hrest]
      simp
    · rw [if_neg hkey, Nat.zero_add]
      exact ih hkeys

/-- What the charges found for distinct operations take from a meter is at most what all charges take. -/
theorem charged_sum_le (charges : List Charge) (m : Meter) {operations : List Identifier} (h : operations.Nodup) :
    (operations.map fun op => ((charges.find? fun c => c.operationId == op).map fun c => c.amount m).getD 0).sum ≤
      total charges m := by
  induction charges with
  | nil => simp
  | cons charge charges ih =>
    have hfirst := indicator_sum_le charge.operationId (charge.amount m) h
    have hsplit : ∀ op ∈ operations, (((charge :: charges).find? fun c => c.operationId == op).map
        fun c => c.amount m).getD 0 ≤ (if charge.operationId = op then charge.amount m else 0) +
          ((charges.find? fun c => c.operationId == op).map fun c => c.amount m).getD 0 := by
      intro op _
      let isCharged := fun c : Charge => c.operationId == op
      by_cases hop : charge.operationId = op
      · rw [List.find?_cons_of_pos (p := isCharged) (beq_iff_eq.mpr hop), if_pos hop]
        exact Nat.le_add_right _ _
      · rw [List.find?_cons_of_neg (p := isCharged) fun hsame => hop (eq_of_beq hsame), if_neg hop, Nat.zero_add]
    calc _ ≤ (operations.map fun op => (if charge.operationId = op then charge.amount m else 0) +
              ((charges.find? fun c => c.operationId == op).map fun c => c.amount m).getD 0).sum :=
          List.sum_le_sum hsplit
      _ = _ := List.sum_map_add
      _ ≤ charge.amount m + total charges m := Nat.add_le_add hfirst ih
      _ = total (charge :: charges) m := by simp [total]

/-- A call of the model that was answered. -/
structure ObservedCall where
  /-- The run that made it. -/
  caller : ℕ
  /-- The operation. -/
  operationId : Identifier
  /-- The prompt. -/
  prompt : ModelPrompt
  /-- The evidence that may be cited. -/
  evidenceIds : List Identifier
  /-- The causes that may be named. -/
  causes : List String

/-- The answered call of the model that an event is. -/
def observedCall : ℕ × Event Host → Option ObservedCall
  | (i, ⟨.observe operation prompt evidenceIds causes, .ok _⟩) =>
    some ⟨i, operation, prompt, evidenceIds, causes⟩
  | _ => none

/-- The observed calls of a trace, oldest first. -/
def observedCalls (tr : Trace Host) : List ObservedCall := tr.filterMap observedCall

theorem observedCall_eq_some {x : ℕ × Event Host} {call : ObservedCall} (h : observedCall x = some call) :
    ∃ r, x = (call.caller, ⟨.observe call.operationId call.prompt call.evidenceIds call.causes, r⟩) := by
  unfold observedCall at h
  split at h
  · cases h
    exact ⟨_, rfl⟩
  · cases h

/-- What a call of the model came to. -/
structure CallOutcome where
  /-- The settings of the runtime. -/
  settings : ModelSettings
  /-- What it has returned. -/
  observation : ModelRuntime.Observation

namespace CallOutcome

variable (x : CallOutcome) (prompt : ModelPrompt)

/-- The usage that counts: an `ERROR` may keep usage beyond what was prepared. -/
def counted : Option ModelRuntime.ProviderUsage :=
  x.observation.usage.filter fun usage => x.observation.status ≠ .error ∨
    usage.Reserved prompt.inputTokens.val x.settings.outputTokenLimit.val

/-- Its cost. -/
def cost : ℕ := (x.settings.price.costNanoUsd (x.counted prompt)).getD 0

/-- Its tokens. -/
def tokens : ℕ := ((x.counted prompt).map fun usage => usage.totalTokens.val).getD 0

end CallOutcome

/-- Costs that are bounded by those of the charges found are bounded together. -/
theorem zipWith_sum_le {R : ObservedCall → CallOutcome → Prop} {f : ObservedCall → CallOutcome → ℕ}
    {g : ObservedCall → ℕ} {calls : List ObservedCall} {outcomes : List CallOutcome}
    (h : List.Forall₂ R calls outcomes)
    (hbound : ∀ call ∈ calls, ∀ x, R call x → f call x ≤ g call) :
    (List.zipWith f calls outcomes).sum ≤ (calls.map g).sum := by
  induction h with
  | nil => exact le_rfl
  | @cons call x calls outcomes hx _ ih =>
    rw [List.zipWith_cons_cons, List.map_cons, List.sum_cons, List.sum_cons]
    exact Nat.add_le_add (hbound call List.mem_cons_self x hx)
      (ih fun call' hcall' => hbound call' (List.mem_cons_of_mem _ hcall'))

section Runs

variable [Retention] [Rendering] [SourceChecks] [DecisionSchema]
variable {incidentId : Identifier} {s₀ : Durable} {c : Config Host Durable LoopResult}

/-- The outcome is one that the runtime of the calling run can return for that call. -/
def OutcomeOf (incidentId : Identifier) (c : Config Host Durable LoopResult) (call : ObservedCall)
    (x : CallOutcome) : Prop :=
  ∃ (L : ReasoningLoop) (incident : Incident) (initial : List EvidenceItem) (cl : Call Host LoopResult)
    (staged : ModelRuntime.Staged), c.calls[call.caller]? = some cl ∧ cl.program = L.run .live incident initial ∧
      incident.incidentId = incidentId ∧ x.settings = L.settings ∧
      ModelRuntime.CanReturn L.settings staged call.prompt call.evidenceIds call.causes x.observation

omit [DecisionSchema] in
/-- What a write to the ledger has stored is kept by the row. -/
theorem written_kept (h : Reachable Environment (LoopCall incidentId) s₀ c) :
    ∀ w ∈ writes c.trace, ∃ row, c.shared.budgets w.key = some row ∧ w.value.Extends row := by
  refine Reachable.invariant (fun s tr =>
    ∀ w ∈ writes tr, ∃ row, s.budgets w.key = some row ∧ w.value.Extends row) h (fun w hw => by cases hw) ?_
  intro s tr i p e r s' q hinv hp hpath ha w hw
  have hledgered := (hp.ledgered.path hpath).1 ⟨e, r⟩ (by simp)
  rw [writes_append, List.mem_append] at hw
  rcases hw with hw | hw
  · obtain ⟨row, hrow, hextends⟩ := hinv w hw
    obtain ⟨next, hnext, hlater⟩ := answer_row hledgered ha hrow
    exact ⟨next, hnext, hextends.trans hlater⟩
  · rcases answer_budgets ha with ⟨hnone, -⟩ | ⟨w', hw', -, hnew⟩
    · rw [hnone] at hw
      cases hw
    · rw [hw', Option.toList_some, List.mem_singleton] at hw
      subst hw
      exact ⟨w.value, by rw [hnew, Function.update_self], .refl _⟩

/-- **Every observed call is charged**, at the settings of its run. -/
theorem observed_charged (h : Reachable Environment (LoopCall incidentId) s₀ c) (h₀ : s₀.NoBudgets)
    {row : BudgetFields} (hrow : c.shared.budgets incidentId.val = some row) {call : ObservedCall}
    (hcall : call ∈ observedCalls c.trace) {x : CallOutcome} (hx : OutcomeOf incidentId c call x) :
    ∃ charge : ModelCharge, row.charge? call.operationId = some (.model charge) ∧
      charge.inputTokens = call.prompt.inputTokens ∧ charge.outputTokenLimit = x.settings.outputTokenLimit ∧
      charge.price = x.settings.price := by
  obtain ⟨L, incident, initial, cl, staged, hcl, hprogram, rfl, hsettings, -⟩ := hx
  obtain ⟨⟨i, ev⟩, hev, hobserved⟩ := List.mem_filterMap.mp hcall
  obtain ⟨r, hxev⟩ := observedCall_eq_some hobserved
  cases hxev
  obtain ⟨h₁, h₂, hown⟩ := List.append_of_mem (mem_own.mpr hev)
  have hpath := h.wellTraced.path _ _ hcl
  rw [hprogram, hown, List.append_cons] at hpath
  obtain ⟨q, hinitial⟩ := hpath.initial
  obtain ⟨raw, charge, hoperation, hinput, houtput, hprice, hswap⟩ :=
    (run_pays L incident initial []).event hinitial _ _ _ _ rfl
  have htrace : (call.caller, (⟨.swapRow incident.incidentId.val raw (raw.charge (.model charge)), .ok true⟩ :
      Event Host)) ∈ c.trace := mem_own.mp (hown ▸ List.mem_append_left _ hswap)
  have hwrite : Write.swap incident.incidentId.val raw (raw.charge (.model charge)) ∈ writes c.trace :=
    List.mem_filterMap.mpr ⟨_, htrace, rfl⟩
  obtain ⟨row', hrow', hextends⟩ := written_kept h _ hwrite
  obtain rfl : row = row' := Option.some.inj (hrow.symm.trans hrow')
  have hmem : Charge.model charge ∈ row.charges :=
    hextends.charges.subset (by simp [Write.value, BudgetFields.charge])
  have hnodup := (BudgetFields.failure_eq_none.mp (row_valid h h₀ (fun _ => LoopCall.ledgered) hrow).2).2.1
  refine ⟨charge, ?_, hinput, by rw [hsettings, houtput], by rw [hsettings, hprice]⟩
  cases hfound : row.charge? call.operationId with
  | none =>
    refine absurd ?_ (BudgetFields.charge?_eq_none.mp hfound)
    exact List.mem_map.mpr ⟨_, hmem, hoperation⟩
  | some found =>
    obtain ⟨hin, hop⟩ := BudgetFields.charge?_eq_some hfound
    rw [List.inj_on_of_nodup_map hnodup hin hmem (hop.trans hoperation.symm)]

omit [DecisionSchema] in
/-- No operation is observed twice. -/
theorem observed_nodup (h : Reachable Environment (LoopCall incidentId) s₀ c) (h₀ : s₀.NoBudgets) :
    ((observedCalls c.trace).map ObservedCall.operationId).Nodup := by
  refine List.nodup_iff_count_le_one.mpr fun operation => ?_
  refine le_trans ?_ (dispatch_le_one h h₀ operation none)
  rw [List.count, List.countP_map, observedCalls, List.countP_filterMap]
  refine List.countP_mono_left fun x _ hx => ?_
  cases hcall : observedCall x with
  | none =>
    rw [hcall] at hx
    cases hx
  | some call =>
    obtain ⟨r, rfl⟩ := observedCall_eq_some hcall
    rw [hcall] at hx
    simpa [dispatches] using hx

/-- **Reserved cost bounds actual cost.** A usage that the runtime returns for a prompt costs no more, and has no
more tokens, than the charge for that prompt under the runtime's settings, whatever the rates are, unless it is the
usage of an `ERROR` that exceeds what was prepared; and for all the observed calls of a run, whatever their runtimes
returned, such usage apart, the costs together and the tokens together are within the allowances of the run. -/
theorem actual_within_reserved :
    (∀ (charge : ModelCharge) (settings : ModelSettings) (staged : Staged) (prompt : ModelPrompt)
      (evidenceIds : List Identifier) (causes : List String) (o : Observation) (usage : ProviderUsage) (cost : ℕ),
      charge.inputTokens = prompt.inputTokens → charge.outputTokenLimit = settings.outputTokenLimit →
      CanReturn settings staged prompt evidenceIds causes o → o.usage = some usage →
      (o.status = .error → usage.Reserved charge.inputTokens.val charge.outputTokenLimit.val) →
      charge.price.costNanoUsd (some usage) = some cost →
        cost ≤ charge.cost ∧ usage.totalTokens.val ≤ charge.tokens) ∧
    ∀ (incidentId : Identifier) (s₀ : Durable) (c : Config Host Durable LoopResult) (row : BudgetFields)
      (outcomes : List CallOutcome), Reachable Environment (LoopCall incidentId) s₀ c → s₀.NoBudgets →
      c.shared.budgets incidentId.val = some row →
      List.Forall₂ (OutcomeOf incidentId c) (observedCalls c.trace) outcomes →
        (List.zipWith (fun call x => x.cost call.prompt) (observedCalls c.trace) outcomes).sum ≤
          row.limits.costNanoUsd.val ∧
        (List.zipWith (fun call x => x.tokens call.prompt) (observedCalls c.trace) outcomes).sum ≤
          row.limits.tokens.val := by
  constructor
  · intro charge settings staged prompt evidenceIds causes o usage cost hinput houtput hreturned husage hexcess hcost
    have hreserved : usage.Reserved charge.inputTokens.val charge.outputTokenLimit.val := by
      by_cases hstatus : o.status = .error
      · exact hexcess hstatus
      · rw [hinput, houtput]
        exact returned_counted hreturned usage husage hstatus
    exact ⟨ModelCharge.cost_bound hreserved hcost, ModelCharge.tokens_bound hreserved⟩
  · intro incidentId s₀ c row outcomes h h₀ hrow houtcomes
    have hvalid := BudgetFields.failure_eq_none.mp (row_valid h h₀ (fun _ => LoopCall.ledgered) hrow).2
    have hcounted : ∀ call ∈ observedCalls c.trace, ∀ x, OutcomeOf incidentId c call x →
        ∀ usage, x.counted call.prompt = some usage →
          usage.Reserved call.prompt.inputTokens.val x.settings.outputTokenLimit.val := by
      rintro call hcall x ⟨L, incident, initial, cl, staged, -, -, -, hsettings, hreturned⟩ usage husage
      obtain ⟨hreported, hcond⟩ := Option.filter_eq_some_iff.mp husage
      rcases of_decide_eq_true hcond with hstatus | hreserved
      · rw [hsettings]
        exact returned_counted hreturned usage hreported hstatus
      · exact hreserved
    have hbound : ∀ (m : Meter) (f : ObservedCall → CallOutcome → ℕ), (∀ call x charge,
        charge.inputTokens = call.prompt.inputTokens → charge.outputTokenLimit = x.settings.outputTokenLimit →
        charge.price = x.settings.price → (∀ usage, x.counted call.prompt = some usage →
          usage.Reserved call.prompt.inputTokens.val x.settings.outputTokenLimit.val) →
        f call x ≤ (Charge.model charge).amount m) →
        (List.zipWith f (observedCalls c.trace) outcomes).sum ≤ row.limits.limit m := by
      intro m f hf
      calc (List.zipWith f (observedCalls c.trace) outcomes).sum
          ≤ ((observedCalls c.trace).map fun call =>
              ((row.charge? call.operationId).map fun charge => charge.amount m).getD 0).sum := by
            refine zipWith_sum_le houtcomes fun call hcall x hx => ?_
            obtain ⟨charge, hfound, hinput, houtput, hprice⟩ := observed_charged h h₀ hrow hcall hx
            rw [hfound]
            exact hf call x charge hinput houtput hprice (hcounted call hcall x hx)
        _ = (((observedCalls c.trace).map ObservedCall.operationId).map fun op =>
              ((row.charge? op).map fun charge => charge.amount m).getD 0).sum := by
            rw [List.map_map]
            rfl
        _ ≤ total row.charges m := charged_sum_le row.charges m (observed_nodup h h₀)
        _ ≤ row.limits.limit m := hvalid.2.2.2 m
    refine ⟨hbound .costNanoUsd _ ?_, hbound .tokens _ ?_⟩
    · intro call x charge hinput houtput hprice hreserved
      unfold CallOutcome.cost
      cases husage : x.counted call.prompt with
      | none => exact Nat.zero_le _
      | some usage =>
        have hfits : usage.Reserved charge.inputTokens.val charge.outputTokenLimit.val := by
          rw [hinput, houtput]
          exact hreserved usage husage
        rw [← hprice]
        exact ModelCharge.cost_bound hfits rfl
    · intro call x charge hinput houtput _ hreserved
      unfold CallOutcome.tokens
      cases husage : x.counted call.prompt with
      | none => exact Nat.zero_le _
      | some usage =>
        have hfits : usage.Reserved charge.inputTokens.val charge.outputTokenLimit.val := by
          rw [hinput, houtput]
          exact hreserved usage husage
        exact ModelCharge.tokens_bound hfits

end Runs

end Model

end PayOps.Orchestrator

namespace PayOps.Orchestrator

open Process Program Evidence ModelRuntime

/-! ### Usage that is reported -/

section Measured

attribute [local instance] asciiPlatform finishedSchema

/-- A provider that reports this usage. -/
def measuringHandler (usage : ProviderUsage) : Handler Outside Bool
  | .usage _, s => (.ok (some usage), s)
  | e, s => providerHandler e s

theorem measuringHandler_answers (usage : ProviderUsage) (e : RuntimeEffect) (s : Bool) :
    outside.answer s e (measuringHandler usage e s).1 (measuringHandler usage e s).2 := by
  cases e with
  | usage message => rfl
  | _ => exact providerHandler_answers _ s

/-- A call, a worker, and the answers that they get. -/
def measured (usage : ProviderUsage) : RuntimeConfig :=
  let opened : RuntimeConfig := ⟨(Pool.new Job.Result WorkerFault 1, false), [], []⟩
  let called := (opened.opened (observe providerSettings hostPrompt [] [])).opened
    (work providerSettings (openAI providerSettings))
  called.turns (pooledHandler 1 .timeout (measuringHandler usage))
    (List.replicate 5 0 ++ List.replicate 40 1 ++ List.replicate 2 0)

theorem measured_reached (usage : ProviderUsage) :
    RuntimeReachable providerSettings (openAI providerSettings) (measured usage) :=
  Reachable.turns (Reachable.opened (Reachable.opened .refl (.observe _ _ _)) .work)
    (pooledHandler_answers (measuringHandler_answers usage)) _

/-- What call 0 has returned. -/
def firstReturned (c : RuntimeConfig) : Option Observation :=
  match c.calls[0]? with
  | some cl => match cl.rest with
    | .done (.observation o) => some o
    | _ => none
  | none => none

theorem measured_returns {usage : ProviderUsage} {o : Observation} (h : firstReturned (measured usage) = some o) :
    CanReturn providerSettings (openAI providerSettings) hostPrompt [] [] o := by
  have hprogram : (measured usage).calls[0]?.map (fun cl => cl.program) =
      some (observe providerSettings hostPrompt [] []) := Config.turns_program _ _ _ 0
  unfold firstReturned at h
  split at h
  next cl hcall =>
    obtain ⟨p, rest, alive⟩ := cl
    split at h
    next o' hrest =>
      cases h
      obtain rfl : rest = .done (.observation o) := hrest
      rw [hcall] at hprogram
      cases hprogram
      exact ⟨measured usage, 0, alive, measured_reached usage, hcall⟩
    next => cases h
  next => cases h

/-- 120 tokens of input, as they were counted, and 20 of output. -/
def fittingUsage : ProviderUsage :=
  ⟨⟨120, by decide⟩, ⟨20, by decide⟩, ⟨140, by decide⟩, ⟨20, by decide⟩, by decide⟩

/-- More input than the prompt has. -/
def excessUsage : ProviderUsage :=
  ⟨⟨5000, by decide⟩, ⟨20, by decide⟩, ⟨5020, by decide⟩, ⟨0, by decide⟩, by decide⟩

/-- The charge for the prompt. -/
def hostCharge : ModelCharge where
  operationId := ⟨"model-01", by decide⟩
  promptSha256 := ⟨"aaaaaaaaaaaaaaaaaaaaaaaaaaaaaaaaaaaaaaaaaaaaaaaaaaaaaaaaaaaaaaaa", by decide⟩
  inputTokens := hostPrompt.inputTokens
  outputTokenLimit := providerSettings.outputTokenLimit
  price := providerSettings.price
  tokenAccounting := .providerCeiling
  providerRequests := 2
  census := rfl

/-- The counts of a usage. -/
def figures (usage : ProviderUsage) : List ℕ :=
  [usage.inputTokens.val, usage.outputTokens.val, usage.totalTokens.val, usage.cachedInputTokens.val]

theorem figures_injective {u v : ProviderUsage} (h : figures u = figures v) : u = v := by
  obtain ⟨input, output, total, cached, hu⟩ := u
  obtain ⟨input', output', total', cached', hv⟩ := v
  simp only [figures, List.cons.injEq, and_true] at h
  obtain ⟨h₁, h₂, h₃, h₄⟩ := h
  obtain rfl := Subtype.ext h₁
  obtain rfl := Subtype.ext h₂
  obtain rfl := Subtype.ext h₃
  obtain rfl := Subtype.ext h₄
  rfl

/-- What the runtime returns for a reported usage. -/
theorem measured_usage {usage : ProviderUsage} {status : ObservationStatus}
    (h : (firstReturned (measured usage)).map (fun o => (o.usage.map figures, o.status)) =
      some (some (figures usage), status)) :
    ∃ o, CanReturn providerSettings (openAI providerSettings) hostPrompt [] [] o ∧ o.usage = some usage ∧
      o.status = status := by
  obtain ⟨o, hfirst, hpair⟩ := Option.map_eq_some_iff.mp h
  obtain ⟨hfigures, rfl⟩ := Prod.mk.inj hpair
  obtain ⟨usage', husage, hsame⟩ := Option.map_eq_some_iff.mp hfigures
  exact ⟨o, measured_returns hfirst, by rw [husage, figures_injective hsame], rfl⟩

/-- **An `ERROR` keeps usage beyond its reservation**: it costs more, and has more tokens. -/
theorem excess_kept : ∃ (o : Observation) (cost : ℕ),
    CanReturn providerSettings (openAI providerSettings) hostPrompt [] [] o ∧ o.usage = some excessUsage ∧
      hostCharge.inputTokens = hostPrompt.inputTokens ∧
      hostCharge.outputTokenLimit = providerSettings.outputTokenLimit ∧
      hostCharge.price.costNanoUsd (some excessUsage) = some cost ∧ hostCharge.cost < cost ∧
      hostCharge.tokens < excessUsage.totalTokens.val := by
  have hreturned : (firstReturned (measured excessUsage)).map (fun o => (o.usage.map figures, o.status)) =
      some (some (figures excessUsage), .error) := by decide +kernel
  obtain ⟨o, hreturns, husage, -⟩ := measured_usage hreturned
  exact ⟨o, _, hreturns, husage, rfl, rfl, rfl, by decide +kernel, by decide +kernel⟩

theorem fitting_returned : ∃ o, CanReturn providerSettings (openAI providerSettings) hostPrompt [] [] o ∧
    o.usage = some fittingUsage ∧ o.status = .ok :=
  measured_usage (by decide +kernel)

end Measured

/-! ### A run whose calls are observed -/

section Observed

attribute [local instance] plainPlatform plainRetention plainRendering plainChecks finishedSchema

/-- A host that grants nothing. -/
def grantless : (e : Effect) → Except Fault e.Reply
  | .lock _ => .ok ()
  | .authority => .ok .denied
  | _ => .error (.other "")

/-- A run that is denied before its first turn. -/
def deniedRun : Config Host Durable LoopResult :=
  (⟨Durable.empty, [], []⟩ : Config Host Durable LoopResult).ran (Durable.handler grantless)
    (sampleLoop.run .live sampleIncident [])

theorem deniedRun_reached :
    Reachable Environment (LoopCall sampleIncident.incidentId) Durable.empty deniedRun :=
  Reachable.call .refl (Durable.handler_answer _) ⟨_, _, _, rfl, rfl⟩

theorem deniedRun_row : ∃ row, deniedRun.shared.budgets sampleIncident.incidentId.val = some row :=
  Option.isSome_iff_exists.mp (by decide +kernel)

theorem deniedRun_observes : observedCalls deniedRun.trace = [] := List.isEmpty_iff.mp (by decide +kernel)

/-- A call whose usage fits is within its charge, and so is a run that is denied. -/
theorem actual_within_reserved_sample :
    (500 ≤ hostCharge.cost ∧ fittingUsage.totalTokens.val ≤ hostCharge.tokens) ∧
      ∃ row, deniedRun.shared.budgets sampleIncident.incidentId.val = some row ∧
        (List.zipWith (fun call (x : CallOutcome) => x.cost call.prompt) (observedCalls deniedRun.trace) []).sum ≤
          row.limits.costNanoUsd.val := by
  obtain ⟨o, hreturns, husage, hstatus⟩ := fitting_returned
  obtain ⟨row, hrow⟩ := deniedRun_row
  refine ⟨?_, row, hrow, ?_⟩
  · exact actual_within_reserved.1 hostCharge _ _ _ _ _ o fittingUsage 500 rfl rfl hreturns husage
      (fun herror => by rw [hstatus] at herror; cases herror) rfl
  · exact (actual_within_reserved.2 _ _ deniedRun row [] deniedRun_reached rfl hrow
      (by rw [deniedRun_observes]; exact .nil)).1

end Observed

end PayOps.Orchestrator
