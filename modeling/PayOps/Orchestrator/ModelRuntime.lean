import PayOps.JsonText
import PayOps.Orchestrator.Records
import PayOps.Orchestrator.Host
import PayOps.Process.Inline
import PayOps.Process.Pool

/-!
# The runtime of a model

`payops.orchestrator.model_runtime.ModelRuntime`: one slot, one worker; a caller waits for its work until a
deadline, and the work keeps the slot until it is done.

## The model

`authority`, `observe` and `close` are calls; so is a worker, which takes one job from the pool. What an adapter
does is any program over its own requests, `invokeStaged`: its provider requests, and the hook it is given,
which is run in its place. `authorize`, the adapter and the clock answer anything, at any time.

## What is proved

* `work_follows`, `authority_follows`, `observe_follows` — what each call asks for.
* `invoke_endorsed` — a decision that is returned was authorized at every stage, and within the allowances.
* `openAI_staged` — the adapter of the provider generates only after its hook has returned `True`.
* `model_runtime` — one call of the provider at a time, and what every accepted observation implies.

## Honest scope

`pool.submit` schedules the job and returns its future, or raises and schedules nothing.
-/

namespace PayOps.Orchestrator.ModelRuntime

open Process Program

section Model

variable [Platform]

/-! ### Values -/

/-- `ProviderUsage`. -/
structure ProviderUsage where
  /-- `input_tokens`. -/
  inputTokens : Count
  /-- `output_tokens`. -/
  outputTokens : Count
  /-- `total_tokens`. -/
  totalTokens : Count
  /-- `cached_input_tokens`. -/
  cachedInputTokens : Count
  /-- `census`. -/
  census : inputTokens.val + outputTokens.val = totalTokens.val ∧ cachedInputTokens.val ≤ inputTokens.val

/-- `ProviderDetails`. -/
structure ProviderDetails where
  /-- `counted_input_tokens`. -/
  countedInputTokens : UpTo 100000
  /-- `count_seconds`. -/
  countSeconds : ℚ
  /-- `generation_seconds`. -/
  generationSeconds : ℚ
  /-- `request_shape_sha256`. -/
  requestShapeSha256 : String
  /-- `normalized_refusal`. -/
  normalizedRefusal : Bool

/-- `message.content`. -/
inductive Content where
  /-- A string. -/
  | text (s : String)
  /-- Blocks. -/
  | blocks

/-- `AIMessage`. -/
structure AIMessage where
  /-- `content`. -/
  content : Content
  /-- What else the adapter keeps in it. -/
  metadata : JsonObject

/-- `ModelObservation`. -/
structure Observation where
  /-- `status`. -/
  status : ObservationStatus
  /-- `decision`. -/
  decision : Option ReasoningDecision
  /-- `usage`. -/
  usage : Option ProviderUsage
  /-- `provider_seconds`. -/
  providerSeconds : Option ℚ
  /-- `output_sha256`. -/
  outputSha256 : Option String
  /-- `provider_details`. -/
  providerDetails : Option ProviderDetails
  /-- `coherent`. -/
  coherent : observationOk status decision = true

/-- A decision was accepted. -/
def Observation.accepted (o : Observation) : Prop := o.status = .ok ∨ o.status = .refused

/-- An outcome without a decision. -/
def bare (status : ObservationStatus) (h : observationOk status none = true) (usage : Option ProviderUsage)
    (seconds : Option ℚ) (sha256 : Option String) (details : Option ProviderDetails) : Observation :=
  ⟨status, none, usage, seconds, sha256, details, h⟩

theorem bare_accepted {status : ObservationStatus} {h : observationOk status none = true}
    {usage : Option ProviderUsage} {seconds : Option ℚ} {sha256 : Option String}
    {details : Option ProviderDetails} : ¬(bare status h usage seconds sha256 details).accepted := by
  rintro (hs | hs)
  · have hstatus : status = .ok := hs
    subst hstatus
    cases h
  · have hstatus : status = .refused := hs
    subst hstatus
    cases h

/-- `ReasoningDecision.model_validate`. -/
class DecisionSchema where
  /-- The decision that a value is. -/
  validate : Json → Option ReasoningDecision

/-! ### Decisions -/

section Decisions

variable [DecisionSchema]

/-- `parse_decision`. -/
def parseDecision (content : String) (evidenceIds : List Identifier) (causes : List String) :
    Except String ReasoningDecision :=
  if content.utf8ByteSize > 16384 then .error "model output exceeds byte budget"
  else match Json.loads content.toList with
    | none => .error "invalid JSON"
    | some value => match DecisionSchema.validate value with
      | none => .error "invalid decision"
      | some d => match d.hypotheses.findSome? fun c => c.failure evidenceIds causes with
        | some reason => .error reason
        | none => .ok d

omit [DecisionSchema] in
theorem observationOk_refused {d : ReasoningDecision} (h : d.decision = .refuse) :
    observationOk .refused (some d) = true := by
  simp [observationOk, h]

omit [DecisionSchema] in
theorem observationOk_ok {d : ReasoningDecision} (h : d.decision ≠ .refuse) :
    observationOk .ok (some d) = true := by
  simp [observationOk, h]

/-- The outcome of a parsed decision. -/
def decided (d : ReasoningDecision) (usage : Option ProviderUsage) (seconds : ℚ) (sha256 : String) :
    Observation :=
  if h : d.decision = .refuse then
    ⟨.refused, some d, usage, some seconds, some sha256, none, observationOk_refused h⟩
  else ⟨.ok, some d, usage, some seconds, some sha256, none, observationOk_ok h⟩

omit [DecisionSchema] in
theorem decided_fields {d : ReasoningDecision} {usage : Option ProviderUsage} {seconds : ℚ} {sha256 : String} :
    (decided d usage seconds sha256).decision = some d ∧ (decided d usage seconds sha256).usage = usage := by
  unfold decided
  split_ifs <;> exact ⟨rfl, rfl⟩

/-- `_decision`. -/
def decision (message : AIMessage) (usage : Option ProviderUsage) (seconds : ℚ)
    (evidenceIds : List Identifier) (causes : List String) : Observation :=
  match message.content with
  | .blocks => bare .invalidOutput rfl usage (some seconds) none none
  | .text content =>
    if content.toList.length > 16384 ∨ content.utf8ByteSize > 16384 then
      bare .invalidOutput rfl usage (some seconds) none none
    else match parseDecision content evidenceIds causes with
      | .error _ => bare .invalidOutput rfl usage (some seconds) (some (Platform.sha256 content)) none
      | .ok d => decided d usage seconds (Platform.sha256 content)

/-- **An accepted decision is what the message says**, with the evidence and the causes that were given. -/
theorem decision_accepted {message : AIMessage} {usage : Option ProviderUsage} {seconds : ℚ}
    {evidenceIds : List Identifier} {causes : List String}
    (h : (decision message usage seconds evidenceIds causes).accepted) :
    (decision message usage seconds evidenceIds causes).usage = usage ∧
      ∃ content d, message.content = .text content ∧ parseDecision content evidenceIds causes = .ok d ∧
        (decision message usage seconds evidenceIds causes).decision = some d := by
  unfold decision at h ⊢
  split at h
  next => exact absurd h bare_accepted
  next content hcontent =>
    split_ifs at h with hlong
    · exact absurd h bare_accepted
    · rw [if_neg hlong]
      split at h
      next => exact absurd h bare_accepted
      next d hd => exact ⟨decided_fields.2, content, d, hcontent, hd, decided_fields.1⟩

end Decisions

/-! ### Requests -/

/-- One request of an adapter in `invoke_staged`. -/
inductive WireEffect where
  /-- `not self._closed and self._slot.acquire(blocking=False)`. -/
  | available
  /-- `self._slot.release()`. -/
  | release
  /-- `monotonic()`. -/
  | monotonic
  /-- `_logging_safe()`. -/
  | loggingSafe
  /-- The shape of the messages. -/
  | shape (prompt : ModelPrompt)
  /-- The tokens that the provider counts. -/
  | count
  /-- `before_generation(count)`; a count may be no integer. -/
  | hook (count : Option ℤ)
  /-- What the provider generates. -/
  | generate (outputLimit : ℕ)

/-- The reply to a request. -/
abbrev WireEffect.Reply : WireEffect → Type
  | available => Bool
  | release => Unit
  | monotonic => ℚ
  | loggingSafe => Unit
  | shape _ => Unit
  | count => ℤ
  | hook _ => Bool
  | generate _ => AIMessage

/-- The interface of an adapter. -/
abbrev Wire : Interface := ⟨WireEffect, WireEffect.Reply, WorkerFault⟩

/-- One request of an adapter. -/
def wire (e : WireEffect) : Program Wire e.Reply := perform (I := Wire) e

/-- One request of the runtime beside its pool. -/
inductive RuntimeEffect where
  /-- `self._closed`. -/
  | closed
  /-- `self._closed = True`. -/
  | setClosed
  /-- `self._pool.shutdown(wait=False)`. -/
  | shutdown
  /-- `monotonic()`. -/
  | monotonic
  /-- `self.adapter.settings == self.settings`. -/
  | sameSettings
  /-- `self.authorize()`. -/
  | authorize
  /-- `isinstance(self.adapter, StagedModelAdapter)`. -/
  | isStaged
  /-- `self.adapter.invoke(messages, output_limit)`. -/
  | invoke (prompt : ModelPrompt) (outputLimit : ℕ)
  /-- A request of the adapter in `invoke_staged`. -/
  | wire (e : WireEffect)
  /-- `self.adapter.details(message)`. -/
  | details (message : AIMessage)
  /-- `self.adapter.usage(message)`. -/
  | usage (message : AIMessage)
  /-- The span of the tracer, or its attributes. -/
  | span

/-- The reply to a request. -/
abbrev RuntimeEffect.Reply : RuntimeEffect → Type
  | closed => Bool
  | setClosed => Unit
  | shutdown => Unit
  | monotonic => ℚ
  | sameSettings => Bool
  | authorize => Bool
  | isStaged => Bool
  | invoke _ _ => AIMessage
  | wire e => e.Reply
  | details _ => ProviderDetails
  | usage _ => Option ProviderUsage
  | span => Unit

/-- What is beside the pool. -/
abbrev Outside : Interface := ⟨RuntimeEffect, RuntimeEffect.Reply, WorkerFault⟩

/-- What the pool is given to do. -/
inductive Job where
  /-- `_authority`. -/
  | authority
  /-- `_call`. -/
  | call (prompt : ModelPrompt) (evidenceIds : List Identifier) (causes : List String) (deadline : ℚ)
  deriving DecidableEq

/-- What becomes of a job. -/
abbrev Job.Result : Job → Type
  | authority => Bool × ℚ
  | call _ _ _ _ => Observation × ℚ

/-- The interface of the runtime. -/
abbrev Runtime : Interface := Pooled Outside Job.Result

/-- One request beside the pool. -/
def ask (e : RuntimeEffect) : Program Runtime e.Reply := perform (I := Runtime) (.inr e)

/-- One request to the pool. -/
def pool (e : PoolEffect Job Job.Result WorkerFault) : Program Runtime e.Reply := perform (I := Runtime) (.inl e)

/-! ### A call of the provider -/

/-- `adapter.invoke_staged`, for a prompt and a cap, with the hook as one of its requests. -/
abbrev Staged := ModelPrompt → ℕ → Program Wire AIMessage

variable (settings : ModelSettings) (staged : Staged)

/-- `_stage_allowed`. -/
def stageAllowed (deadline : ℚ) : Program Runtime Bool := do
  let now ← ask .monotonic
  if now ≥ deadline then return false
  else
    let same ← ask .sameSettings
    if !same then return false
    else
      let allowed ← ask .authorize
      if !allowed then return false
      else
        let now ← ask .monotonic
        if now < deadline then ask .sameSettings else return false

/-- `_count_allowed`. -/
def countAllowed (count : Option ℤ) (prompt : ModelPrompt) (deadline : ℚ) : Program Runtime Bool := do
  raiseIf (count.any (fun n : ℤ => decide (0 ≤ n) && decide (n ≤ (prompt.inputTokens.val : ℤ))) = false) (.exception "ValueError")
  stageAllowed deadline

/-- What answers the requests of an adapter. -/
def wired (prompt : ModelPrompt) (deadline : ℚ) : (e : WireEffect) → Program Runtime e.Reply
  | .hook count => countAllowed count prompt deadline
  | e => ask (.wire e)

/-- `_dispatch`. -/
def dispatch (prompt : ModelPrompt) (deadline : ℚ) :
    Program Runtime (AIMessage × ℚ × Option ProviderDetails) := do
  if settings.tokenAccounting = .fixtureExact then
    let started ← ask .monotonic
    let message ← ask (.invoke prompt settings.outputTokenLimit.val)
    let ended ← ask .monotonic
    return (message, ended - started, none)
  else
    let isStaged ← ask .isStaged
    raiseIf (isStaged = false) (.exception "ValueError")
    let message ← (staged prompt settings.outputTokenLimit.val).inline (wired prompt deadline)
    let details ← ask (.details message)
    raiseIf (details.countedInputTokens.val > prompt.inputTokens.val) (.exception "ValueError")
    return (message, details.generationSeconds, some details)

/-- The handlers of `_invoke`. -/
def failed (x : WorkerFault) (usage : Option ProviderUsage) (seconds : Option ℚ)
    (details : Option ProviderDetails) : Program Runtime Observation :=
  match x with
  | .permission => return bare .denied rfl usage seconds none details
  | x => if x.isException then return bare .error rfl usage seconds none details else throw x

/-- The usage violates the prepared token contract. -/
def violates (prompt : ModelPrompt) (usage : Option ProviderUsage) (details : Option ProviderDetails) : Bool :=
  usage.any fun u =>
    u.inputTokens.val != (details.map fun d => d.countedInputTokens.val).getD prompt.inputTokens.val ||
      decide (u.inputTokens.val > prompt.inputTokens.val) ||
      decide (u.outputTokens.val > settings.outputTokenLimit.val)

section Calls

variable [DecisionSchema]

/-- `_invoke`, from the census of the usage on. -/
def accept (prompt : ModelPrompt) (evidenceIds : List Identifier) (causes : List String) (deadline : ℚ)
    (message : AIMessage) (seconds : ℚ) (details : Option ProviderDetails) (usage : Option ProviderUsage) :
    Program Runtime Observation := do
  raiseIf (violates settings prompt usage details = true) (.exception "ValueError")
  let result := decision message usage seconds evidenceIds causes
  raiseIf (details.any (fun d => d.normalizedRefusal) = true ∧ result.status ≠ .refused) (.exception "ValueError")
  let allowed ← stageAllowed deadline
  if allowed then return { result with providerDetails := details }
  else return bare .denied rfl usage (some seconds) none details

/-- `_invoke`. -/
def invoke (prompt : ModelPrompt) (evidenceIds : List Identifier) (causes : List String) (deadline : ℚ) :
    Program Runtime Observation := do
  match ← (stageAllowed deadline).attempt with
  | .error x => failed x none none none
  | .ok false => return bare .denied rfl none none none none
  | .ok true =>
    match ← (dispatch settings staged prompt deadline).attempt with
    | .error x => failed x none none none
    | .ok (message, seconds, details) =>
      match ← (ask (.usage message)).attempt with
      | .error x => failed x none (some seconds) details
      | .ok usage =>
        match ← (accept settings prompt evidenceIds causes deadline message seconds details usage).attempt with
        | .error x => failed x usage (some seconds) details
        | .ok result => return result

/-- `_call`. -/
def call (prompt : ModelPrompt) (evidenceIds : List Identifier) (causes : List String) (deadline : ℚ) :
    Program Runtime (Observation × ℚ) := do
  let outcome ← (do
    ask .span
    let result ← invoke settings staged prompt evidenceIds causes deadline
    ask .span
    let finishedAt ← ask .monotonic
    return (result, finishedAt) : Program Runtime (Observation × ℚ)).attempt
  pool .release
  ofResult outcome

/-- `_authority`. -/
def authorityJob : Program Runtime (Bool × ℚ) := do
  let outcome ← (do
    let allowed ← ask .authorize
    let finishedAt ← ask .monotonic
    return (allowed, finishedAt) : Program Runtime (Bool × ℚ)).attempt
  pool .release
  ofResult outcome

/-! ### The calls -/

/-- What a call returns. -/
inductive Returned where
  /-- `authority`. -/
  | authority (a : Authority)
  /-- `observe`. -/
  | observation (o : Observation)
  /-- `None`. -/
  | none

/-- A worker of the pool, with one job. -/
def work : Program Runtime Returned := do
  match ← pool .take with
  | (id, .authority) => do
    let outcome ← authorityJob.attempt
    pool (.finish id .authority outcome)
    return .none
  | (id, .call prompt evidenceIds causes deadline) => do
    let outcome ← (call settings staged prompt evidenceIds causes deadline).attempt
    pool (.finish id (.call prompt evidenceIds causes deadline) outcome)
    return .none

/-- `except BaseException: self._slot.release(); raise`. -/
def handedOver {α : Type} (submission : Program Runtime α) : Program Runtime α := do
  match ← submission.attempt with
  | .ok a => return a
  | .error x => do
    pool .release
    throw x

/-- `authority`. -/
def authority : Program Runtime Returned := do
  let closed ← ask .closed
  if closed then return .authority .busy
  else
    let taken ← pool .acquire
    if !taken then return .authority .busy
    else
      let (deadline, id) ← handedOver (do
        let now ← ask .monotonic
        let id ← pool (.submit .authority)
        return (now + min 8 settings.timeoutSeconds, id))
      let result ← (do
        let _ ← ask .monotonic
        pool (.await id .authority) : Program Runtime (Bool × ℚ)).attempt
      match result with
      | .ok (allowed, completed) =>
        if completed > deadline then return .authority .timeout
        else return .authority (if allowed then .ok else .denied)
      | .error .timeout => return .authority .timeout
      | .error x => if x.isException then return .authority .error else throw x

/-- `observe`. -/
def observe (prompt : ModelPrompt) (evidenceIds : List Identifier) (causes : List String) :
    Program Runtime Returned := do
  raiseIf (prompt.inputTokens.val > settings.inputTokenLimit.val) (.exception "ValueError")
  let closed ← ask .closed
  raiseIf (closed = true ∨ prompt.tokenAccounting ≠ settings.tokenAccounting) (.exception "ValueError")
  let taken ← pool .acquire
  if !taken then return .observation (bare .busy rfl none none none none)
  else
    let (deadline, id) ← handedOver (do
      let now ← ask .monotonic
      let deadline := now + settings.timeoutSeconds
      let id ← pool (.submit (.call prompt evidenceIds causes deadline))
      return (deadline, id))
    let result ← (do
      let _ ← ask .monotonic
      pool (.await id (.call prompt evidenceIds causes deadline)) : Program Runtime (Observation × ℚ)).attempt
    match result with
    | .ok (observation, finishedAt) =>
      if finishedAt ≤ deadline then return .observation observation
      else return .observation (bare .timeout rfl none none none none)
    | .error .timeout => return .observation (bare .timeout rfl none none none none)
    | .error x =>
      if x.isException then return .observation (bare .error rfl none none none none) else throw x

/-- `close`. -/
def close : Program Runtime Returned := do
  ask .setClosed
  ask .shutdown
  return .none

/-- The calls on a runtime, and its workers. -/
inductive Use : Program Runtime Returned → Prop
  /-- `authority`. -/
  | authority : Use (authority settings)
  /-- `observe`. -/
  | observe (prompt : ModelPrompt) (evidenceIds : List Identifier) (causes : List String) :
      Use (observe settings prompt evidenceIds causes)
  /-- `close`. -/
  | close : Use close
  /-- A worker. -/
  | work : Use (work settings staged)

/-- What is beside the pool keeps the flag, and answers everything else as it likes. -/
def outside : Machine Outside Bool where
  answer s e r s' :=
    match e with
    | .closed => r = .ok s ∧ s' = s
    | .setClosed => r = .ok () ∧ s' = true
    | _ => s' = s

/-- The environment of a runtime. -/
def environment : Machine Runtime (Pool Job.Result WorkerFault × Bool) := pooled 1 .timeout outside

end Calls

/-! ### What a run of `_invoke` says -/

/-- `authorize` returned `True`. -/
def authorized : Event Runtime := ⟨.inr .authorize, .ok true⟩

/-- A request that reaches the provider. -/
def RuntimeEffect.isProvider : RuntimeEffect → Bool
  | invoke _ _ => true
  | wire .count => true
  | wire (.generate _) => true
  | _ => false

/-- Nothing reaches the provider in `h`. -/
def Quiet (h : History Runtime) : Prop := ∀ ev ∈ h, ∀ e, ev.effect = .inr e → e.isProvider = false

/-- The adapter generates only after its hook has returned `True`, and counts only before. -/
def KeepsStages (staged : Staged) : Prop :=
  ∀ prompt limit g message, Runs (staged prompt limit) g (.ok message) →
    ∃ g₁ count g₂, g = g₁ ++ ⟨.hook count, .ok true⟩ :: g₂ ∧
      (∀ ev ∈ g₁, ∀ limit, ev.effect ≠ .generate limit) ∧ ∀ ev ∈ g₂, ev.effect ≠ .count

variable {settings staged}

theorem quiet_append {h₁ h₂ : History Runtime} : Quiet (h₁ ++ h₂) ↔ Quiet h₁ ∧ Quiet h₂ := by
  unfold Quiet
  simp only [List.forall_mem_append]

theorem quiet_within {α : Type} {p : Program Runtime α} {h : History Runtime} {r : Except WorkerFault α}
    (hp : Within (fun e : Runtime.Effect => ∀ e', e = .inr e' → e'.isProvider = false) p)
    (hruns : Runs p h r) : Quiet h := fun ev hev => (hp.path hruns).1 ev hev

theorem stageAllowed_within {P : Runtime.Effect → Prop} (hP : P (.inr .monotonic) ∧ P (.inr .sameSettings) ∧
    P (.inr .authorize)) {deadline : ℚ} : Within P (stageAllowed deadline) := by
  refine (within_perform.mpr hP.1).bind fun now => ?_
  split_ifs
  · trivial
  · refine (within_perform.mpr hP.2.1).bind fun same => ?_
    split_ifs
    · trivial
    · refine (within_perform.mpr hP.2.2).bind fun allowed => ?_
      split_ifs
      · trivial
      · refine (within_perform.mpr hP.1).bind fun now => ?_
        split_ifs
        · exact within_perform.mpr hP.2.1
        · trivial

/-- **A stage is allowed by a grant.** -/
theorem stageAllowed_runs {deadline : ℚ} {h : History Runtime}
    (hruns : Runs (stageAllowed deadline) h (.ok true)) : authorized ∈ h := by
  unfold stageAllowed at hruns
  rcases runs_bind.mp hruns with ⟨x, hx, -⟩ | ⟨now, h₁, h₂, rfl, -, hruns⟩
  · cases hx
  split_ifs at hruns with hlate
  · cases (runs_done.mp hruns).2
  rcases runs_bind.mp hruns with ⟨x, hx, -⟩ | ⟨same, h₃, h₄, rfl, -, hruns⟩
  · cases hx
  split_ifs at hruns with hsame
  · cases (runs_done.mp hruns).2
  rcases runs_bind.mp hruns with ⟨x, hx, -⟩ | ⟨allowed, h₅, h₆, rfl, hauthorize, hruns⟩
  · cases hx
  split_ifs at hruns with hallowed
  · cases (runs_done.mp hruns).2
  obtain rfl := runs_perform.mp hauthorize
  obtain rfl : allowed = true := by simpa using hallowed
  simp [authorized]

/-- **Between count and generation**, an adapter that keeps the stages has a grant. -/
theorem dispatch_between {prompt : ModelPrompt} {deadline : ℚ} {h : History Runtime} {message : AIMessage}
    {seconds : ℚ} {details : Option ProviderDetails} (hkeeps : KeepsStages staged)
    (haccounting : settings.tokenAccounting = .providerCeiling)
    (hruns : Runs (dispatch settings staged prompt deadline) h (.ok (message, seconds, details))) :
    ∃ counted generated, h = counted ++ authorized :: generated ∧
      (∀ ev ∈ counted, ∀ limit, ev.effect ≠ .inr (.wire (.generate limit))) ∧
      ∀ ev ∈ generated, ev.effect ≠ .inr (.wire .count) := by
  -- no answer to a request of the adapter makes another one, the hook's least of all
  have hwire : ∀ e e' : WireEffect, e ≠ e' →
      Within (fun q : Runtime.Effect => q ≠ .inr (.wire e')) (wired prompt deadline e) := by
    intro e e' hne
    cases e with
    | hook count =>
      refine within_raiseIf.bind fun _ => stageAllowed_within ⟨?_, ?_, ?_⟩ <;> simp
    | _ => exact within_perform.mpr (by simpa using hne)
  unfold dispatch at hruns
  rw [if_neg (by rw [haccounting]; decide)] at hruns
  obtain ⟨isStaged, h₁, rfl, hchecked⟩ := runs_perform_bind_ok.mp hruns
  obtain ⟨-, hinvoked⟩ := runs_raiseIf_bind_ok.mp hchecked
  obtain ⟨message', h₂, h₃, rfl, hinline, hrest⟩ := runs_bind_ok.mp hinvoked
  obtain ⟨found, h₄, rfl, hcensus⟩ := runs_perform_bind_ok.mp hrest
  obtain ⟨-, hdone⟩ := runs_raiseIf_bind_ok.mp hcensus
  obtain ⟨rfl, -⟩ := runs_done.mp hdone
  obtain ⟨g, hg, hexpands⟩ := runs_inline hinline
  obtain ⟨g₁, count, g₂, rfl, hcounted, hgenerated⟩ := hkeeps _ _ _ _ hg
  obtain ⟨k₁, k₂, rfl, hfirst, hsecond⟩ := hexpands.split
  cases hsecond with
  | @cons _ _ _ k₃ k₄ hhook hafter =>
    obtain ⟨-, hgrant⟩ := runs_raiseIf_bind_ok.mp hhook
    obtain ⟨u, v, rfl⟩ := List.append_of_mem (stageAllowed_runs hgrant)
    have hquiet := (stageAllowed_within (P := fun q : Runtime.Effect => ∀ e, q ≠ .inr (.wire e))
      ⟨by simp, by simp, by simp⟩).path hgrant
    refine ⟨⟨.inr .isStaged, .ok isStaged⟩ :: k₁ ++ u, v ++ k₄ ++ [⟨.inr (.details message'), .ok found⟩],
      by simp, fun ev hev limit => ?_, fun ev hev => ?_⟩
    · simp only [List.cons_append, List.mem_cons, List.mem_append] at hev
      rcases hev with rfl | hev | hev
      · simp
      · obtain ⟨e, r, k, hmem, hanswer, hev⟩ := hfirst.mem hev
        exact ((hwire e _ (hcounted _ hmem limit)).path hanswer).1 ev hev
      · exact hquiet.1 ev (List.mem_append_left _ hev) _
    · simp only [List.append_assoc, List.mem_append, List.mem_singleton] at hev
      rcases hev with hev | hev | rfl
      · exact hquiet.1 ev (List.mem_append_right _ (List.mem_cons_of_mem _ hev)) _
      · obtain ⟨e, r, k, hmem, hanswer, hev⟩ := hafter.mem hev
        exact ((hwire e _ (hgenerated _ hmem)).path hanswer).1 ev hev
      · simp

section Endorsed

variable [DecisionSchema] (settings staged)

/-- What the events of `_invoke` say of the decision that it accepted. -/
structure Endorsed (prompt : ModelPrompt) (evidenceIds : List Identifier) (causes : List String) (deadline : ℚ)
    (o : Observation) (h : History Runtime) : Prop where
  /-- The grant before the dispatch and the grant after the response, and nothing but the dispatch reaches the
  provider. -/
  stages : ∃ before dispatched after message seconds details, h = before ++ dispatched ++ after ∧
    authorized ∈ before ∧ authorized ∈ after ∧ Quiet before ∧ Quiet after ∧
    Runs (dispatch settings staged prompt deadline) dispatched (.ok (message, seconds, details)) ∧
    -- the grant between the count and the generation
    (settings.tokenAccounting = .providerCeiling → KeepsStages staged →
      ∃ counted generated, dispatched = counted ++ authorized :: generated ∧
        (∀ ev ∈ counted, ∀ limit, ev.effect ≠ .inr (.wire (.generate limit))) ∧
        ∀ ev ∈ generated, ev.effect ≠ .inr (.wire .count)) ∧
    -- the decision is what the response says
    ∃ content d, message.content = .text content ∧ parseDecision content evidenceIds causes = .ok d ∧
      o.decision = some d
  /-- The usage is within the allowances. -/
  usage : ∀ u ∈ o.usage, u.inputTokens.val ≤ prompt.inputTokens.val ∧
    u.outputTokens.val ≤ settings.outputTokenLimit.val

variable {settings staged}

omit [DecisionSchema] in
theorem failed_accepted {x : WorkerFault} {usage : Option ProviderUsage} {seconds : Option ℚ}
    {details : Option ProviderDetails} {h : History Runtime} {o : Observation}
    (hruns : Runs (failed x usage seconds details) h (.ok o)) : ¬o.accepted := by
  unfold failed at hruns
  split at hruns
  next =>
    obtain ⟨-, ho⟩ := runs_done.mp hruns
    cases ho
    exact bare_accepted
  next =>
    split_ifs at hruns
    · obtain ⟨-, ho⟩ := runs_done.mp hruns
      cases ho
      exact bare_accepted
    · cases (runs_fail.mp hruns).2

/-- The accepted end of `_invoke`. -/
theorem accept_runs {prompt : ModelPrompt} {evidenceIds : List Identifier} {causes : List String} {deadline : ℚ}
    {message : AIMessage} {seconds : ℚ} {details : Option ProviderDetails} {usage : Option ProviderUsage}
    {h : History Runtime} {o : Observation} (haccepted : o.accepted)
    (hruns : Runs (accept settings prompt evidenceIds causes deadline message seconds details usage) h (.ok o)) :
    o.usage = usage ∧ violates settings prompt usage details = false ∧ Runs (stageAllowed deadline) h (.ok true) ∧
      ∃ content d, message.content = .text content ∧ parseDecision content evidenceIds causes = .ok d ∧
        o.decision = some d := by
  unfold accept at hruns
  obtain ⟨hcensus, hrest⟩ := runs_raiseIf_bind_ok.mp hruns
  obtain ⟨-, hgranted⟩ := runs_raiseIf_bind_ok.mp hrest
  obtain ⟨allowed, h₁, h₂, rfl, hstage, hdone⟩ := runs_bind_ok.mp hgranted
  split_ifs at hdone with hallowed
  · subst hallowed
    obtain ⟨rfl, ho⟩ := runs_done.mp hdone
    cases ho
    have hdecision : (decision message usage seconds evidenceIds causes).accepted := haccepted
    obtain ⟨husage, hparsed⟩ := decision_accepted hdecision
    exact ⟨husage, by simpa using hcensus, by simpa using hstage, hparsed⟩
  · obtain ⟨-, ho⟩ := runs_done.mp hdone
    cases ho
    exact absurd haccepted bare_accepted

/-- **A decision that `_invoke` accepts** was authorized at every stage, and is within the allowances. -/
theorem invoke_endorsed {prompt : ModelPrompt} {evidenceIds : List Identifier} {causes : List String}
    {deadline : ℚ} {h : History Runtime} {o : Observation} (haccepted : o.accepted)
    (hruns : Runs (invoke settings staged prompt evidenceIds causes deadline) h (.ok o)) :
    Endorsed settings staged prompt evidenceIds causes deadline o h := by
  have hquiet : ∀ {h}, Runs (stageAllowed deadline) h (.ok true) → Quiet h := fun hstage =>
    quiet_within (stageAllowed_within ⟨by simp [RuntimeEffect.isProvider], by simp [RuntimeEffect.isProvider],
      by simp [RuntimeEffect.isProvider]⟩) hstage
  unfold invoke at hruns
  obtain ⟨before, h₁, h₂, rfl, hbefore, hfirst⟩ := runs_bind_ok.mp hruns
  obtain ⟨before', hbefore', hgranted⟩ := runs_attempt.mp hbefore
  cases hbefore'
  rcases before with x | _ | _
  · exact absurd haccepted (failed_accepted hfirst)
  · obtain ⟨-, ho⟩ := runs_done.mp hfirst
    cases ho
    exact absurd haccepted bare_accepted
  obtain ⟨dispatched, h₃, h₄, rfl, hdispatch, hsecond⟩ := runs_bind_ok.mp hfirst
  obtain ⟨dispatched', hdispatch', hran⟩ := runs_attempt.mp hdispatch
  cases hdispatch'
  rcases dispatched with x | ⟨message, seconds, details⟩
  · exact absurd haccepted (failed_accepted hsecond)
  obtain ⟨projected, h₅, h₆, rfl, hprojected, hthird⟩ := runs_bind_ok.mp hsecond
  obtain ⟨projected', hprojected', hasked⟩ := runs_attempt.mp hprojected
  cases hprojected'
  rcases projected with x | usage
  · exact absurd haccepted (failed_accepted hthird)
  obtain ⟨result, h₇, h₈, rfl, haccept, hfourth⟩ := runs_bind_ok.mp hthird
  obtain ⟨result', haccept', hend⟩ := runs_attempt.mp haccept
  cases haccept'
  rcases result with x | result
  · exact absurd haccepted (failed_accepted hfourth)
  obtain ⟨rfl, ho⟩ := runs_done.mp hfourth
  cases ho
  obtain ⟨husage, hcensus, hafter, hparsed⟩ := accept_runs haccepted hend
  obtain rfl := runs_perform.mp hasked
  refine ⟨⟨h₁, h₃, ⟨.inr (.usage message), .ok usage⟩ :: h₇, message, seconds, details, by simp,
    stageAllowed_runs hgranted, List.mem_cons_of_mem _ (stageAllowed_runs hafter), hquiet hgranted, ?_, hran,
    fun haccounting hkeeps => dispatch_between hkeeps haccounting hran, hparsed⟩, ?_⟩
  · intro ev hev e he
    rcases List.mem_cons.mp hev with rfl | hev
    · cases he
      rfl
    · exact hquiet hafter ev hev e he
  · intro u hu
    rw [husage] at hu
    obtain rfl : usage = some u := hu
    simp only [violates, Option.any_some, Bool.or_eq_false_iff, decide_eq_false_iff_not, not_lt] at hcensus
    exact ⟨by omega, by omega⟩

/-! ### What a call asks for -/

/-- A call holds the slot as a worker. -/
def Working (h : History Runtime) : Prop := h.countP gains = h.countP gives + 1 ∧ ∃ x, ⟨.inl .take, .ok x⟩ ∈ h

/-- A request that only a worker makes: of the provider, or for a grant. -/
def RuntimeEffect.isWork : RuntimeEffect → Bool
  | authorize => true
  | isStaged => true
  | sameSettings => true
  | invoke _ _ => true
  | wire _ => true
  | details _ => true
  | usage _ => true
  | span => true
  | _ => false

variable (settings staged)

/-- What a worker has done when its job has come to `o`, at `finishedAt`. -/
def Worked (id : ℕ) (prompt : ModelPrompt) (evidenceIds : List Identifier) (causes : List String)
    (deadline : ℚ) (o : Observation) (finishedAt : ℚ) (h : History Runtime) : Prop :=
  ∃ g, h = ⟨.inl .take, .ok (id, .call prompt evidenceIds causes deadline)⟩ :: ⟨.inr .span, .ok ()⟩ :: g ++
      [⟨.inr .span, .ok ()⟩, ⟨.inr .monotonic, .ok finishedAt⟩, ⟨.inl .release, .ok ()⟩] ∧
    Endorsed settings staged prompt evidenceIds causes deadline o g

/-- What a call may ask for after the events `h`. -/
def Allowed (h : History Runtime) (ev : Event Runtime) : Prop :=
  SlotRule h ev ∧
    match ev.effect with
    | .inr e => e.isWork = true → Working h
    | .inl (.finish id (.call prompt evidenceIds causes deadline) (.ok (o, finishedAt))) =>
      o.accepted → Worked settings staged id prompt evidenceIds causes deadline o finishedAt h
    | _ => True

/-- A call has given its slot back, unless that failed. -/
def Settled (h : History Runtime) : Prop := (∀ x, ⟨.inl .release, .error x⟩ ∉ h) → ¬Holds h

variable {settings staged}
variable {h : History Runtime}

omit [DecisionSchema] in
theorem Working.snoc (hw : Working h) (e : RuntimeEffect) (r : Except WorkerFault e.Reply) :
    Working (h ++ [⟨.inr e, r⟩]) := by
  obtain ⟨hheld, x, hx⟩ := hw
  exact ⟨by simpa [gains, gives] using hheld, x, List.mem_append_left _ hx⟩

/-- A program that asks only beside the pool, run by a worker. -/
theorem beside_follows {α : Type} {p : Program Runtime α}
    (hp : Within (fun e : Runtime.Effect => ∃ e', e = .inr e') p) (hw : Working h) :
    Follows (Allowed settings staged) p h fun r h' => Working h' ∧ ∃ g, h' = h ++ g ∧ Runs p g r := by
  refine (Follows.within (R := Working) hp hw ?_).and_runs
  rintro h ⟨e, r⟩ hw ⟨e', rfl⟩
  exact ⟨⟨trivial, fun _ => hw⟩, hw.snoc e' r⟩

theorem invoke_within {prompt : ModelPrompt} {evidenceIds : List Identifier} {causes : List String}
    {deadline : ℚ} : Within (fun e : Runtime.Effect => ∃ e', e = .inr e')
      (invoke settings staged prompt evidenceIds causes deadline) := by
  have hstage : Within (fun e : Runtime.Effect => ∃ e', e = .inr e') (stageAllowed deadline) :=
    stageAllowed_within ⟨⟨_, rfl⟩, ⟨_, rfl⟩, ⟨_, rfl⟩⟩
  have hfailed : ∀ {x : WorkerFault} {usage : Option ProviderUsage} {seconds : Option ℚ}
      {details : Option ProviderDetails},
      Within (fun e : Runtime.Effect => ∃ e', e = .inr e') (failed x usage seconds details) := by
    intro x usage seconds details
    unfold failed
    split
    · trivial
    · split_ifs <;> trivial
  have hask : ∀ e : RuntimeEffect, Within (fun e : Runtime.Effect => ∃ e', e = .inr e') (ask e) :=
    fun e => within_perform.mpr ⟨e, rfl⟩
  have hdispatch : Within (fun e : Runtime.Effect => ∃ e', e = .inr e')
      (dispatch settings staged prompt deadline) := by
    unfold dispatch
    split_ifs
    · exact (hask _).bind fun _ => (hask _).bind fun _ => (hask _).bind fun _ => trivial
    · refine (hask _).bind fun _ => within_raiseIf.bind fun _ => Within.bind (Within.inline ?_ _) fun _ =>
        (hask _).bind fun _ => within_raiseIf.bind fun _ => trivial
      intro e
      cases e with
      | hook count => exact within_raiseIf.bind fun _ => hstage
      | _ => exact hask _
  unfold invoke
  refine (within_attempt.mpr hstage).bind fun before => ?_
  rcases before with x | _ | _
  · exact hfailed
  · trivial
  refine (within_attempt.mpr hdispatch).bind fun dispatched => ?_
  rcases dispatched with x | ⟨message, seconds, details⟩
  · exact hfailed
  refine (within_attempt.mpr (hask _)).bind fun projected => ?_
  rcases projected with x | usage
  · exact hfailed
  refine (within_attempt.mpr ?_).bind fun result => ?_
  · refine within_raiseIf.bind fun _ => within_raiseIf.bind fun _ => hstage.bind fun allowed => ?_
    split_ifs <;> trivial
  · rcases result with x | result
    · exact hfailed
    · trivial

/-- A job of the pool gives the slot back, whatever it comes to. -/
theorem released_follows {α : Type} {body : Program Runtime α}
    (hbody : Within (fun e : Runtime.Effect => ∃ e', e = .inr e') body) (hw : Working h) :
    Follows (Allowed settings staged) (body.attempt.bind fun outcome => (pool .release).bind fun _ => ofResult outcome)
      h fun r h' => ∃ g u, h' = h ++ g ++ [⟨.inl .release, u⟩] ∧ Working (h ++ g) ∧
        ∀ a, r = .ok a → u = .ok () ∧ Runs body g (.ok a) := by
  refine follows_bind.mpr (follows_attempt.mpr ((beside_follows hbody hw).mono ?_))
  rintro outcome _ ⟨hw', g, rfl, hruns⟩
  refine follows_perform_bind.mpr fun u => ⟨⟨hw'.1, trivial⟩, fun x hx => ?_, fun _ hu => ?_⟩
  · subst hx
    exact ⟨g, _, rfl, hw', fun a ha => by cases ha⟩
  · subst hu
    refine follows_ofResult.mpr ⟨g, _, rfl, hw', fun a ha => ⟨rfl, ?_⟩⟩
    exact ha ▸ hruns

omit [DecisionSchema] in
/-- After its job a worker holds nothing. -/
theorem settled_finish {ev : Event Runtime} {u : Except WorkerFault Unit} (hw : Working h)
    (hev : gains ev = false ∧ gives ev = false) : Settled (h ++ [⟨.inl .release, u⟩] ++ [ev]) := by
  intro hok
  cases u with
  | error x => exact absurd (by simp) (hok x)
  | ok _ =>
    have hheld := hw.1
    simp only [Holds, List.countP_append, List.countP_singleton, hev]
    simp [gains, gives]
    omega

/-- **What a worker asks for.** -/
theorem work_follows : Follows (Allowed settings staged) (work settings staged) [] fun _ h => Settled h := by
  refine follows_perform_bind.mpr fun r => ⟨⟨rfl, trivial⟩, fun x hx => ?_, fun job hjob => ?_⟩
  · subst hx
    simp [Settled, Holds, gains, gives]
  subst hjob
  have hw : Working [⟨.inl .take, .ok job⟩] := ⟨rfl, job, List.mem_singleton_self _⟩
  have hask : ∀ e : RuntimeEffect, Within (fun e : Runtime.Effect => ∃ e', e = .inr e') (ask e) :=
    fun e => within_perform.mpr ⟨e, rfl⟩
  obtain ⟨id, _ | ⟨prompt, evidenceIds, causes, deadline⟩⟩ := job
  · refine follows_bind.mpr (follows_attempt.mpr ((released_follows ?_ hw).mono ?_))
    · exact (hask _).bind fun _ => (hask _).bind fun _ => trivial
    · rintro outcome _ ⟨g, u, rfl, hw', -⟩
      refine follows_perform_bind.mpr fun v => ⟨⟨trivial, trivial⟩, fun x hx => ?_, fun _ hv => ?_⟩
      · exact settled_finish hw' ⟨rfl, rfl⟩
      · exact settled_finish hw' ⟨rfl, rfl⟩
  · refine follows_bind.mpr (follows_attempt.mpr ((released_follows ?_ hw).mono ?_))
    · exact (hask _).bind fun _ => invoke_within.bind fun _ => (hask _).bind fun _ => (hask _).bind fun _ => trivial
    · rintro outcome _ ⟨g, u, rfl, hw', hran⟩
      refine follows_perform_bind.mpr fun v => ⟨⟨trivial, ?_⟩, fun x hx => ?_, fun _ hv => ?_⟩
      · rcases outcome with x | ⟨o, finishedAt⟩
        · trivial
        · intro haccepted
          obtain ⟨rfl, hruns⟩ := hran _ rfl
          obtain ⟨_, h₁, rfl, hinvoke⟩ := runs_perform_bind_ok.mp hruns
          obtain ⟨result, h₂, h₃, rfl, hresult, hrest⟩ := runs_bind_ok.mp hinvoke
          obtain ⟨_, h₄, rfl, hclock⟩ := runs_perform_bind_ok.mp hrest
          obtain ⟨now, h₅, rfl, hdone⟩ := runs_perform_bind_ok.mp hclock
          obtain ⟨rfl, hend⟩ := runs_done.mp hdone
          cases hend
          exact ⟨h₂, by simp, invoke_endorsed haccepted hresult⟩
      · exact settled_finish hw' ⟨rfl, rfl⟩
      · exact settled_finish hw' ⟨rfl, rfl⟩

/-- A caller hands its slot over with the job, or gives it back. -/
theorem handedOver_follows {job : ℚ → Job} {deadline : ℚ → ℚ} {f : ℚ × ℕ → Program Runtime Returned}
    {Q : Except WorkerFault Returned → History Runtime → Prop} (hheld : h.countP gains = h.countP gives + 1)
    (herror : ∀ x h', Settled h' → Q (.error x) h')
    (hok : ∀ now id, Follows (Allowed settings staged) (f (deadline now, id))
      (h ++ [⟨.inr .monotonic, .ok now⟩] ++ [⟨.inl (.submit (job now)), .ok id⟩]) Q) :
    Follows (Allowed settings staged) ((handedOver ((ask .monotonic).bind fun now =>
      (pool (.submit (job now))).bind fun id => done (deadline now, id))).bind f) h Q := by
  have hback : ∀ x (h' : History Runtime), h'.countP gains = h'.countP gives + 1 →
      Follows (Allowed settings staged) ((pool .release).bind fun _ => (fail x : Program Runtime (ℚ × ℕ)))
        h' fun r h'' => ∃ y, r = .error y ∧ Settled h'' := by
    intro x h' hheld'
    refine follows_perform_bind.mpr fun u => ⟨⟨hheld', trivial⟩, fun y hy => ?_, fun _ hu => ?_⟩
    · subst hy
      exact ⟨y, rfl, fun hok => absurd (by simp) (hok y)⟩
    · subst hu
      refine ⟨x, rfl, fun _ => ?_⟩
      simp [Holds, gains, gives]
      omega
  have hfail : ∀ x (h' : History Runtime), h'.countP gains = h'.countP gives + 1 →
      Follows (Allowed settings staged)
        (((pool .release).bind fun _ => (fail x : Program Runtime (ℚ × ℕ))).bind f) h' Q := by
    intro x h' hheld'
    refine follows_bind.mpr ((hback x h' hheld').mono ?_)
    rintro _ h'' ⟨y, rfl, hsettled⟩
    exact herror y h'' hsettled
  unfold handedOver
  simp only [bind_eq, bind_assoc]
  refine follows_bind.mpr (follows_attempt.mpr (follows_perform_bind.mpr fun r =>
    ⟨⟨trivial, fun he => by cases he⟩, ?_, ?_⟩))
  · rintro x rfl
    exact hfail x _ (by simpa [gains, gives] using hheld)
  · rintro now rfl
    refine follows_perform_bind.mpr fun r => ⟨⟨by simpa [SlotRule, gains, gives] using hheld, trivial⟩, ?_, ?_⟩
    · rintro x rfl
      exact hfail x _ (by simpa [gains, gives] using hheld)
    · rintro id rfl
      exact hok now id

/-- What a caller may ask for beside the pool. -/
theorem allowed_caller {e : RuntimeEffect} {r : Except WorkerFault e.Reply} (he : e.isWork = false) :
    Allowed settings staged h ⟨.inr e, r⟩ := ⟨trivial, fun hwork => by rw [he] at hwork; cases hwork⟩

/-- **What `authority` asks for.** -/
theorem authority_follows :
    Follows (Allowed settings staged) (authority settings) [] fun _ h => Settled h := by
  refine follows_perform_bind.mpr fun r => ⟨allowed_caller rfl, fun x hx => ?_, fun closed hr => ?_⟩
  · subst hx
    simp [Settled, Holds, gains, gives]
  subst hr
  cases closed with
  | true => simp [Settled, Holds, gains, gives]
  | false =>
    refine follows_perform_bind.mpr fun r => ⟨⟨rfl, trivial⟩, fun x hx => ?_, fun taken hr => ?_⟩
    · subst hx
      simp [Settled, Holds, gains, gives]
    subst hr
    cases taken with
    | false => simp [Settled, Holds, gains, gives]
    | true =>
      refine handedOver_follows rfl (fun x h' hsettled => hsettled) fun now id => ?_
      refine follows_bind.mpr (follows_attempt.mpr (follows_perform_bind.mpr fun r =>
        ⟨allowed_caller rfl, fun x hx => ?_, fun later hr => follows_perform.mpr fun out => ⟨⟨trivial, trivial⟩, ?_⟩⟩))
      · subst hx
        have hsettled : Settled ([⟨.inr .closed, .ok false⟩, ⟨.inl .acquire, .ok true⟩,
            ⟨.inr .monotonic, .ok now⟩, ⟨.inl (.submit .authority), .ok id⟩, ⟨.inr .monotonic, .error x⟩]) :=
          fun _ => Nat.lt_irrefl 1
        cases x with
        | timeout => exact hsettled
        | permission => exact hsettled
        | exception name => exact hsettled
        | base name => exact hsettled
      · subst hr
        have hsettled : Settled ([⟨.inr .closed, .ok false⟩, ⟨.inl .acquire, .ok true⟩,
            ⟨.inr .monotonic, .ok now⟩, ⟨.inl (.submit .authority), .ok id⟩, ⟨.inr .monotonic, .ok later⟩,
            ⟨.inl (.await id .authority), out⟩]) :=
          fun _ => Nat.lt_irrefl 1
        rcases out with x | ⟨allowed, completed⟩
        · cases x with
          | timeout => exact hsettled
          | permission => exact hsettled
          | exception name => exact hsettled
          | base name => exact hsettled
        · by_cases hlate : completed > now + min 8 settings.timeoutSeconds
          · simp only [hlate, if_true]
            exact hsettled
          · simp only [hlate, if_false]
            exact hsettled

/-- The observation of a call is what it got for its job, in time. -/
def Received (prompt : ModelPrompt) (evidenceIds : List Identifier) (causes : List String)
    (r : Except WorkerFault Returned) (h : History Runtime) : Prop :=
  ∀ o, r = .ok (.observation o) → o.accepted → ∃ id deadline finishedAt,
    ⟨.inl (.submit (.call prompt evidenceIds causes deadline)), .ok id⟩ ∈ h ∧
      ⟨.inl (.await id (.call prompt evidenceIds causes deadline)), .ok (o, finishedAt)⟩ ∈ h ∧
      finishedAt ≤ deadline

omit [DecisionSchema] in
theorem received_error {prompt : ModelPrompt} {evidenceIds : List Identifier} {causes : List String}
    {x : WorkerFault} : Received prompt evidenceIds causes (.error x) h := fun o ho => by cases ho

omit [DecisionSchema] in
theorem received_bare {prompt : ModelPrompt} {evidenceIds : List Identifier} {causes : List String}
    {status : ObservationStatus} {hok : observationOk status none = true} :
    Received prompt evidenceIds causes (.ok (.observation (bare status hok none none none none))) h := by
  intro o ho haccepted
  cases ho
  exact absurd haccepted bare_accepted

/-- **What `observe` asks for and returns.** -/
theorem observe_follows {prompt : ModelPrompt} {evidenceIds : List Identifier} {causes : List String} :
    Follows (Allowed settings staged) (observe settings prompt evidenceIds causes) [] fun r h =>
      Settled h ∧ Received prompt evidenceIds causes r h := by
  refine follows_raiseIf_bind.mpr ⟨fun _ => ⟨by simp [Settled, Holds], received_error⟩, fun _ => ?_⟩
  refine follows_perform_bind.mpr fun r => ⟨allowed_caller rfl, fun x hx => ?_, fun closed hr => ?_⟩
  · subst hx
    exact ⟨by simp [Settled, Holds, gains, gives], received_error⟩
  subst hr
  refine follows_raiseIf_bind.mpr ⟨fun _ => ⟨by simp [Settled, Holds, gains, gives], received_error⟩, fun _ => ?_⟩
  refine follows_perform_bind.mpr fun r => ⟨⟨rfl, trivial⟩, fun x hx => ?_, fun taken hr => ?_⟩
  · subst hx
    exact ⟨by simp [Settled, Holds, gains, gives], received_error⟩
  subst hr
  cases taken with
  | false => exact ⟨by simp [Settled, Holds, gains, gives], received_bare⟩
  | true =>
    refine handedOver_follows rfl (fun x h' hsettled => ⟨hsettled, received_error⟩) fun now id => ?_
    refine follows_bind.mpr (follows_attempt.mpr (follows_perform_bind.mpr fun r =>
      ⟨allowed_caller rfl, fun x hx => ?_, fun later hr => follows_perform.mpr fun out => ⟨⟨trivial, trivial⟩, ?_⟩⟩))
    · subst hx
      have hsettled : Settled ([⟨.inr .closed, .ok closed⟩, ⟨.inl .acquire, .ok true⟩, ⟨.inr .monotonic, .ok now⟩,
          ⟨.inl (.submit (.call prompt evidenceIds causes (now + settings.timeoutSeconds))), .ok id⟩,
          ⟨.inr .monotonic, .error x⟩]) :=
        fun _ => Nat.lt_irrefl 1
      cases x with
      | timeout => exact ⟨hsettled, received_bare⟩
      | permission => exact ⟨hsettled, received_bare⟩
      | exception name => exact ⟨hsettled, received_bare⟩
      | base name => exact ⟨hsettled, received_error⟩
    · subst hr
      have hsettled : Settled ([⟨.inr .closed, .ok closed⟩, ⟨.inl .acquire, .ok true⟩, ⟨.inr .monotonic, .ok now⟩,
          ⟨.inl (.submit (.call prompt evidenceIds causes (now + settings.timeoutSeconds))), .ok id⟩,
          ⟨.inr .monotonic, .ok later⟩,
          ⟨.inl (.await id (.call prompt evidenceIds causes (now + settings.timeoutSeconds))), out⟩]) :=
        fun _ => Nat.lt_irrefl 1
      rcases out with x | ⟨o, finishedAt⟩
      · cases x with
        | timeout => exact ⟨hsettled, received_bare⟩
        | permission => exact ⟨hsettled, received_bare⟩
        | exception name => exact ⟨hsettled, received_bare⟩
        | base name => exact ⟨hsettled, received_error⟩
      · by_cases hintime : finishedAt ≤ now + settings.timeoutSeconds
        · simp only [hintime, if_true]
          refine ⟨hsettled, fun o' ho' _ => ?_⟩
          cases ho'
          exact ⟨id, now + settings.timeoutSeconds, finishedAt, by simp, by simp, hintime⟩
        · simp only [hintime, if_false]
          exact ⟨hsettled, received_bare⟩

/-- **What `close` asks for.** -/
theorem close_follows : Follows (Allowed settings staged) close [] fun _ h => Settled h := by
  refine follows_perform_bind.mpr fun r => ⟨allowed_caller rfl, fun x hx => ?_, fun _ hr => ?_⟩
  · subst hx
    simp [Settled, Holds, gains, gives]
  subst hr
  refine follows_perform_bind.mpr fun r => ⟨allowed_caller rfl, fun x hx => ?_, fun _ hr => ?_⟩
  · subst hx
    simp [Settled, Holds, gains, gives]
  · subst hr
    simp [Settled, Holds, gains, gives]

/-- What every call asks for. -/
theorem Use.allowed {p q : Program Runtime Returned} {ev : Event Runtime} (hp : Use settings staged p)
    (hpath : Path p (h ++ [ev]) q) : Allowed settings staged h ev := by
  cases hp with
  | authority => exact authority_follows.event hpath
  | observe prompt evidenceIds causes => exact observe_follows.event hpath
  | close => exact close_follows.event hpath
  | work => exact work_follows.event hpath

/-- What every call that has ended leaves. -/
theorem Use.settled {p : Program Runtime Returned} {r : Except WorkerFault Returned} (hp : Use settings staged p)
    (hruns : Runs p h r) : Settled h := by
  cases hp with
  | authority =>
    have hfollows : Follows (Allowed settings staged) (ModelRuntime.authority settings) [] fun _ h => Settled h :=
      authority_follows
    exact hfollows.runs hruns
  | observe prompt evidenceIds causes =>
    have hfollows : Follows (Allowed settings staged) (ModelRuntime.observe settings prompt evidenceIds causes) []
        fun r h => Settled h ∧ Received prompt evidenceIds causes r h := observe_follows
    exact (hfollows.runs hruns).1
  | close =>
    have hfollows : Follows (Allowed settings staged) ModelRuntime.close [] fun _ h => Settled h := close_follows
    exact hfollows.runs hruns
  | work => exact work_follows.runs hruns

theorem disciplined : Disciplined (Use settings staged) :=
  fun _ _ _ _ hp hpath => (hp.allowed hpath).1

/-! ### Every interleaving -/

/-- The configurations of a runtime. -/
abbrev RuntimeConfig := Config Runtime (Pool Job.Result WorkerFault × Bool) Returned

/-- Every interleaving of calls on a new runtime, and of workers. -/
abbrev RuntimeReachable (settings : ModelSettings) (staged : Staged) (c : RuntimeConfig) : Prop :=
  Reachable environment (Use settings staged) (Pool.new Job.Result WorkerFault 1, false) c

/-- Call `i` has got `o` for a job that a worker has done in time, with every grant. -/
def Accepted (settings : ModelSettings) (staged : Staged) (c : RuntimeConfig) (i : ℕ) (prompt : ModelPrompt)
    (evidenceIds : List Identifier) (causes : List String) (o : Observation) : Prop :=
  ∃ id deadline finishedAt j tr₁ tr₂,
    ⟨.inl (.submit (.call prompt evidenceIds causes deadline)), .ok id⟩ ∈ c.trace.own i ∧
    c.trace = tr₁ ++ (j, ⟨.inl (.finish id (.call prompt evidenceIds causes deadline) (.ok (o, finishedAt))),
      .ok ()⟩) :: tr₂ ∧
    Worked settings staged id prompt evidenceIds causes deadline o finishedAt (Trace.own tr₁ j) ∧
    finishedAt ≤ deadline

/-- The admission of a runtime, in a configuration that was reached. -/
structure Admission (settings : ModelSettings) (staged : Staged) (c : RuntimeConfig) : Prop where
  /-- One call of the provider or refresh of the authority is in progress at a time, -/
  single : ∀ i j, Working (c.trace.own i) → Working (c.trace.own j) → i = j
  /-- whether its caller still waits or not: nothing reaches the provider or asks for a grant otherwise. -/
  work : ∀ i e, Asking c i (.inr e) → e.isWork = true → Working (c.trace.own i)
  /-- The slot is free, or waits with a job, or is held by one call, -/
  slot : ∃ holders : Finset ℕ, (∀ i, i ∈ holders ↔ Holds (c.trace.own i)) ∧
    c.shared.1.free + c.shared.1.queue.length + holders.card = 1
  /-- which has given it back at its end, -/
  settled : ∀ i cl, c.calls[i]? = some cl → cl.Ended → ¬Holds (c.trace.own i)
  /-- and never without having it; -/
  released : ∀ i x, (i, ⟨.inl .release, .error x⟩) ∉ c.trace
  /-- a job is taken once. -/
  once : (tookIds c.trace).Nodup
  /-- What is accepted was authorized at every stage, in time and within the allowances. -/
  accepted : ∀ i prompt evidenceIds causes o alive,
    c.calls[i]? = some ⟨observe settings prompt evidenceIds causes, done (.observation o), alive⟩ →
    o.accepted → Accepted settings staged c i prompt evidenceIds causes o

/-- **Admission of a runtime**, for every interleaving of its calls. -/
theorem admission {c : RuntimeConfig} (h : RuntimeReachable settings staged c) :
    Admission settings staged c := by
  have hw := h.wellTraced
  have hjobs : Jobs c.shared c.trace := Reachable.jobs h
  have hreleased := fun i x => Reachable.release_ok h disciplined i x
  obtain ⟨holders, hholders, hsum⟩ := Reachable.slots h disciplined
  have hheld : ∀ i, Working (c.trace.own i) → i ∈ holders := by
    intro i hi
    refine (hholders i).mpr ?_
    unfold Holds
    have := hi.1
    omega
  refine ⟨fun i j hi hj => ?_, fun i e hasking he => ?_, ⟨holders, hholders, hsum⟩, fun i cl hi hend => ?_,
    hreleased, ?_, fun i prompt evidenceIds causes o alive hi haccepted => ?_⟩
  · exact Finset.card_le_one.mp (by omega) i (hheld i hi) j (hheld j hj)
  · obtain ⟨p, q, hp, hpath⟩ := hasking.path h (.error .timeout)
    exact (hp.allowed hpath).2 he
  · obtain ⟨r, hr⟩ := hend
    have hpath := hw.path i cl hi
    rw [hr] at hpath
    exact (hw.start i cl hi).settled hpath fun x hx => hreleased i x (mem_own.mp hx)
  · have horder := hjobs.order
    exact (horder ▸ List.nodup_range).of_append_left
  · have hfollows : Follows (Allowed settings staged) (observe settings prompt evidenceIds causes) []
        fun r h => Settled h ∧ Received prompt evidenceIds causes r h := observe_follows
    have hruns : Runs (observe settings prompt evidenceIds causes) (c.trace.own i) (.ok (.observation o)) :=
      hw.path i _ hi
    obtain ⟨id, deadline, finishedAt, hsubmit, hawait, hintime⟩ := (hfollows.runs hruns).2 o rfl haccepted
    obtain ⟨j, hfinish⟩ := hjobs.awaited i id _ _ (mem_own.mp hawait)
    obtain ⟨tr₁, tr₂, htrace⟩ := List.append_of_mem hfinish
    obtain ⟨b, s', hb, rfl, ⟨p, q, hp, hpath⟩, -⟩ := h.before htrace
    exact ⟨id, deadline, finishedAt, j, b.trace, tr₂, hsubmit, htrace, (hp.allowed hpath).2 haccepted, hintime⟩

end Endorsed

/-! ### The adapter of the provider -/

/-- `_remaining(deadline)`. -/
def remaining (deadline : ℚ) : Program Wire Unit := do
  let now ← wire .monotonic
  raiseIf (deadline - now ≤ 0) .timeout

/-- The body of `OpenAIResponsesAdapter.invoke_staged`; the answers to its posts are validated ones. -/
def openAIBody (settings : ModelSettings) (prompt : ModelPrompt) (outputLimit : ℕ) : Program Wire AIMessage := do
  let started ← wire .monotonic
  let deadline := started + min 25 settings.timeoutSeconds
  raiseIf (outputLimit ≠ settings.outputTokenLimit.val) (.exception "ValueError")
  wire .loggingSafe
  wire (.shape prompt)
  remaining deadline
  let measured ← wire .count
  remaining deadline
  let granted ← wire (.hook (some measured))
  raiseIf (granted = false) .permission
  remaining deadline
  wire .loggingSafe
  remaining deadline
  let message ← wire (.generate outputLimit)
  remaining deadline
  return message

/-- What the handlers of `invoke_staged` raise instead. -/
def translated : WorkerFault → WorkerFault
  | .timeout => .timeout
  | .permission => .permission
  | .exception _ => .exception "ValueError"
  | .base name => .base name

/-- `OpenAIResponsesAdapter.invoke_staged`. -/
def openAI (settings : ModelSettings) : Staged := fun prompt outputLimit => do
  let available ← wire .available
  if !available then throw .permission
  else
    let outcome ← (openAIBody settings prompt outputLimit).attempt
    wire .release
    match outcome with
    | .ok message => return message
    | .error x => throw (translated x)

/-- The adapter of the provider, before and after its hook. -/
theorem openAIBody_stages {settings : ModelSettings} {prompt : ModelPrompt} {outputLimit : ℕ} {g : History Wire}
    {message : AIMessage} (hruns : Runs (openAIBody settings prompt outputLimit) g (.ok message)) :
    ∃ g₁ count g₂, g = g₁ ++ ⟨.hook count, .ok true⟩ :: g₂ ∧
      (∀ ev ∈ g₁, ∀ limit, ev.effect ≠ .generate limit) ∧ ∀ ev ∈ g₂, ev.effect ≠ .count := by
  have hclock : ∀ {deadline : ℚ} {h : History Wire} {u : Unit}, Runs (remaining deadline) h (.ok u) →
      ∀ ev ∈ h, ev.effect = .monotonic := by
    intro deadline h u hruns
    obtain ⟨now, h', rfl, hchecked⟩ := runs_perform_bind_ok.mp hruns
    obtain ⟨rfl, -⟩ := runs_raiseIf_ok.mp hchecked
    simp
  unfold openAIBody at hruns
  obtain ⟨started, g₁, rfl, hrun₁⟩ := runs_perform_bind_ok.mp hruns
  obtain ⟨-, hrun₂⟩ := runs_raiseIf_bind_ok.mp hrun₁
  obtain ⟨_, g₂, rfl, hrun₃⟩ := runs_perform_bind_ok.mp hrun₂
  obtain ⟨_, g₃, rfl, hrun₄⟩ := runs_perform_bind_ok.mp hrun₃
  obtain ⟨_, g₄, g₅, rfl, hclock₁, hrun₅⟩ := runs_bind_ok.mp hrun₄
  obtain ⟨measured, g₆, rfl, hrun₆⟩ := runs_perform_bind_ok.mp hrun₅
  obtain ⟨_, g₇, g₈, rfl, hclock₂, hrun₇⟩ := runs_bind_ok.mp hrun₆
  obtain ⟨granted, g₉, rfl, hrun₈⟩ := runs_perform_bind_ok.mp hrun₇
  obtain ⟨hgranted, hrun₉⟩ := runs_raiseIf_bind_ok.mp hrun₈
  obtain rfl : granted = true := by simpa using hgranted
  obtain ⟨_, k₁, k₂, rfl, hclock₃, hrun₁₀⟩ := runs_bind_ok.mp hrun₉
  obtain ⟨_, k₃, rfl, hrun₁₁⟩ := runs_perform_bind_ok.mp hrun₁₀
  obtain ⟨_, k₄, k₅, rfl, hclock₄, hrun₁₂⟩ := runs_bind_ok.mp hrun₁₁
  obtain ⟨message', k₆, rfl, hrun₁₃⟩ := runs_perform_bind_ok.mp hrun₁₂
  obtain ⟨_, k₇, k₈, rfl, hclock₅, hdone⟩ := runs_bind_ok.mp hrun₁₃
  obtain ⟨rfl, -⟩ := runs_done.mp hdone
  refine ⟨⟨.monotonic, .ok started⟩ :: ⟨.loggingSafe, .ok ()⟩ :: ⟨.shape prompt, .ok ()⟩ ::
    (g₄ ++ ⟨.count, .ok measured⟩ :: g₇), some measured, k₁ ++ ⟨.loggingSafe, .ok ()⟩ ::
    (k₄ ++ ⟨.generate outputLimit, .ok message'⟩ :: k₇), by simp, fun ev hev limit => ?_, fun ev hev => ?_⟩
  · simp only [List.mem_cons, List.mem_append] at hev
    rcases hev with rfl | rfl | rfl | hev | rfl | hev
    · simp
    · simp
    · simp
    · simp [hclock hclock₁ ev hev]
    · simp
    · simp [hclock hclock₂ ev hev]
  · simp only [List.mem_cons, List.mem_append] at hev
    rcases hev with hev | rfl | hev | rfl | hev
    · simp [hclock hclock₃ ev hev]
    · simp
    · simp [hclock hclock₄ ev hev]
    · simp
    · simp [hclock hclock₅ ev hev]

/-- **The adapter of the provider generates only after its hook has returned `True`.** -/
theorem openAI_staged (settings : ModelSettings) : KeepsStages (openAI settings) := by
  intro prompt limit g message hruns
  obtain ⟨available, h₁, rfl, hfirst⟩ := runs_perform_bind_ok.mp hruns
  split_ifs at hfirst with havailable
  · cases (runs_fail.mp hfirst).2
  obtain ⟨outcome, h₂, h₃, rfl, hbody, hsecond⟩ := runs_bind_ok.mp hfirst
  obtain ⟨outcome', houtcome, hran⟩ := runs_attempt.mp hbody
  cases houtcome
  obtain ⟨_, h₄, rfl, hend⟩ := runs_perform_bind_ok.mp hsecond
  rcases outcome with x | result
  · cases (runs_fail.mp hend).2
  obtain ⟨rfl, -⟩ := runs_done.mp hend
  obtain ⟨g₁, count, g₂, rfl, hcounted, hgenerated⟩ := openAIBody_stages hran
  refine ⟨⟨.available, .ok available⟩ :: g₁, count, g₂ ++ [⟨.release, .ok ()⟩], by simp, ?_, ?_⟩
  · intro ev hev limit
    rcases List.mem_cons.mp hev with rfl | hev
    · simp
    · exact hcounted ev hev limit
  · intro ev hev
    rcases List.mem_append.mp hev with hev | hev
    · exact hgenerated ev hev
    · rw [List.mem_singleton.mp hev]
      simp

/-- **The runtime of a model**, for every interleaving of its calls and every adapter; the adapter of the
provider has the grant between count and generation. -/
theorem model_runtime [DecisionSchema] {settings : ModelSettings} {staged : Staged} {c : RuntimeConfig}
    (h : RuntimeReachable settings staged c) : Admission settings staged c ∧ KeepsStages (openAI settings) :=
  ⟨admission h, openAI_staged settings⟩

end Model

/-! ### An adapter that forgets its hook -/

/-- Only ASCII characters in identifiers. -/
@[reducible] def asciiPlatform : Platform where
  sha256 _ := "0"
  patternWord _ := false
  reWord _ := false
  nesting := 64
  floatRepr text := text

attribute [local instance] asciiPlatform

/-- A decision that asks for nothing. -/
def finishedDecision : ReasoningDecision :=
  ⟨.finish, ⟨"Done.", by decide⟩, [], [], by decide, by decide, by decide⟩

/-- Every value is that decision. -/
@[reducible] def finishedSchema : DecisionSchema := ⟨fun _ => some finishedDecision⟩

attribute [local instance] finishedSchema

/-- Settings of a provider. -/
def providerSettings : ModelSettings where
  provider := ⟨"openai", by decide⟩
  model := "scripted"
  mode := .provider
  inputTokenLimit := ⟨150, by decide⟩
  outputTokenLimit := ⟨20, by decide⟩
  timeoutSeconds := 2
  price := ⟨⟨3, by decide⟩, ⟨4, by decide⟩, ⟨6, by decide⟩⟩
  tokenAccounting := .providerCeiling
  accountingMode := by decide

/-- A prepared prompt. -/
def hostPrompt : ModelPrompt := ⟨⟨"Host", by decide⟩, ⟨"Data", by decide⟩, ⟨150, by decide⟩, .providerCeiling⟩

/-- An adapter that generates at once. -/
def hookless : Staged := fun _ outputLimit => wire (.generate outputLimit)

/-- A provider that answers everything, at time zero. -/
def providerHandler : Handler Outside Bool
  | .closed, s => (.ok s, s)
  | .setClosed, _ => (.ok (), true)
  | .shutdown, s => (.ok (), s)
  | .monotonic, s => (.ok 0, s)
  | .sameSettings, s => (.ok true, s)
  | .authorize, s => (.ok true, s)
  | .isStaged, s => (.ok true, s)
  | .invoke _ _, s => (.ok ⟨.text "{}", []⟩, s)
  | .wire (.generate _), s => (.ok ⟨.text "{}", []⟩, s)
  | .wire .available, s => (.ok true, s)
  | .wire .release, s => (.ok (), s)
  | .wire .monotonic, s => (.ok 0, s)
  | .wire .loggingSafe, s => (.ok (), s)
  | .wire (.shape _), s => (.ok (), s)
  | .wire .count, s => (.ok 100, s)
  | .wire (.hook _), s => (.ok true, s)
  | .details _, s => (.ok ⟨⟨120, by decide⟩, 0, 0, "0", false⟩, s)
  | .usage _, s => (.ok none, s)
  | .span, s => (.ok (), s)

theorem providerHandler_answers (e : RuntimeEffect) (s : Bool) :
    outside.answer s e (providerHandler e s).1 (providerHandler e s).2 := by
  cases e with
  | closed => exact ⟨rfl, rfl⟩
  | setClosed => exact ⟨rfl, rfl⟩
  | wire e => cases e <;> rfl
  | _ => rfl

/-- A call, a worker, and the answers that they get. -/
def scripted (staged : Staged) : RuntimeConfig :=
  let opened : RuntimeConfig := ⟨(Pool.new Job.Result WorkerFault 1, false), [], []⟩
  let called := (opened.opened (observe providerSettings hostPrompt [] [])).opened (work providerSettings staged)
  called.turns (pooledHandler 1 .timeout providerHandler)
    (List.replicate 5 0 ++ List.replicate 40 1 ++ List.replicate 2 0)

theorem scripted_reached (staged : Staged) : RuntimeReachable providerSettings staged (scripted staged) :=
  Reachable.turns (Reachable.opened (Reachable.opened .refl (.observe _ _ _)) .work)
    (pooledHandler_answers providerHandler_answers) _

/-- The grants and the generations among the events of a call. -/
def stagesOf (h : History Runtime) : List String :=
  h.filterMap fun ev =>
    match ev with
    | ⟨.inr .authorize, .ok true⟩ => some "authorize"
    | ⟨.inr (.wire (.generate _)), .ok _⟩ => some "generate"
    | _ => none

/-- The status of what call `i` has returned. -/
def statusOf (c : RuntimeConfig) (i : ℕ) : Option ObservationStatus :=
  match c.calls[i]? with
  | some ⟨_, .done (.observation o), _⟩ => some o.status
  | _ => none

/-- An adapter of the provider has both grants before the generation. -/
theorem model_runtime_openAI :
    (Admission providerSettings (openAI providerSettings) (scripted (openAI providerSettings)) ∧
      KeepsStages (openAI providerSettings)) ∧
    statusOf (scripted (openAI providerSettings)) 0 = some .ok ∧
      stagesOf ((scripted (openAI providerSettings)).trace.own 1) =
        ["authorize", "authorize", "generate", "authorize"] :=
  ⟨model_runtime (scripted_reached (openAI providerSettings)), by decide +kernel, by decide +kernel⟩

/-- An adapter that does not ask its hook has no grant between count and generation, and its decision is
accepted. -/
theorem hookless_accepted :
    RuntimeReachable providerSettings hookless (scripted hookless) ∧
      providerSettings.tokenAccounting = .providerCeiling ∧ statusOf (scripted hookless) 0 = some .ok ∧
      stagesOf ((scripted hookless).trace.own 1) = ["authorize", "generate", "authorize"] :=
  ⟨scripted_reached hookless, rfl, by decide +kernel, by decide +kernel⟩

end PayOps.Orchestrator.ModelRuntime
