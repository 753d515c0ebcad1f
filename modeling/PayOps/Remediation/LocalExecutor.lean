import PayOps.Process.Network
import PayOps.Remediation.Contracts
import PayOps.Remediation.Deployment

/-!
# The local executor of a Deployment change

`LocalDeploymentExecutor` of `payops.remediation.local_executor`: one conditional patch, and polls until
the rollout is complete or its time is over.

## The model

A command is the list of its arguments after the fixed ones; it prints a JSON object, or raises, as what
prints anything else does. The clock is monotonic only in name: it may say anything. `str` of a resource
version that is a list or a mapping is no identifier, whatever its text.

## Honest scope

The polling has no bound of its own. It is given a number of rounds, and what goes around more often is
cut off there; every result holds whatever that number is.

## What is proved

* `execute_debt` — **one patch at most is issued**, whatever the commands come to.
* `execute_succeeded` — a receipt of success follows an observed document that is fully rolled out.
* `deployment_change` — **main result**: the frame of the patch, and both of these.
-/

namespace PayOps.Remediation

open Process Program Policy Json

/-! ### Requests -/

/-- One request of the executor. -/
inductive KubectlEffect where
  /-- `self._command((*prefix, *args, "-o=json"), …)`, and the object it prints. -/
  | command (args : List String)
  /-- `self._clock()`. -/
  | clock
  /-- `self._wait(seconds)`. -/
  | wait (seconds : ℚ)

/-- The reply to a request. -/
abbrev KubectlEffect.Reply : KubectlEffect → Type
  | command _ => JsonObject
  | clock => ℚ
  | wait _ => Unit

/-- The interface of the executor. -/
abbrev Kubectl : Interface := ⟨KubectlEffect, KubectlEffect.Reply, Fault⟩

/-- A command. -/
def command (args : List String) : Program Kubectl JsonObject :=
  perform (I := Kubectl) (.command args)

/-- The time. -/
def clock : Program Kubectl ℚ := perform (I := Kubectl) .clock

/-- A pause. -/
def wait (seconds : ℚ) : Program Kubectl Unit := perform (I := Kubectl) (.wait seconds)

variable [Platform] [Numerals]

/-! ### Readiness -/

/-- `type(value) is int and value == n`. -/
def isInt (value : Option Json) (n : ℤ) : Bool := value == some (.int n)

/-- The counts that a complete rollout has. -/
def COUNTS : List String := ["replicas", "updatedReplicas", "readyReplicas", "availableReplicas"]

/-- The wanted number of replicas, if it is one. -/
def DeploymentPlan.replicas (plan : DeploymentPlan) : Option ℤ :=
  ((field plan.after "replicas").getD (.int 1)).asInt

/-- `rollout_ready`. -/
def rolloutReady (plan : DeploymentPlan) (current : JsonObject) : Except Fault Bool := do
  let metadata ← objectValue (← member current "metadata")
  if !isText metadata "uid" plan.action.resourceUid.val ||
      !pythonEqual ((field current "spec").getD .null) (.obj plan.after) then
    throw (.permission "EXECUTOR_POSTCHECK_DRIFT")
  else if !isNone metadata "deletionTimestamp" then
    throw (.permission "EXECUTOR_POSTCHECK_DELETING")
  else
    let status ← objectValue ((field current "status").getD (.obj []))
    match plan.replicas, (field metadata "generation").bind asInt with
    | some replicas, some generation =>
      return 0 < replicas &&
        pythonEqual ((field status "observedGeneration").getD .null) (.int generation) &&
        COUNTS.all (fun name => isInt (field status name) replicas) &&
        pythonEqual ((field status "unavailableReplicas").getD (.int 0)) (.int 0)
    | _, _ => return false

/-! ### The executor -/

/-- The operator's configuration of an executor. -/
structure LocalDeploymentExecutor where
  /-- `namespace_uid`. -/
  namespaceUid : String
  /-- `inventory`. -/
  inventory : String → Option String
  /-- `revisions`, by service and revision. -/
  revisions : String → String → Option String
  /-- `postcheck_seconds`. -/
  seconds : ℚ

/-- The text of a resource version, where it may be an identifier. -/
def versionText : Json → Option String
  | .null => some "None"
  | .bool b => some (if b then "True" else "False")
  | .int n => some (toString n)
  | .float r => some r
  | .str s => some s
  | _ => none

/-- `_receipt`. -/
def receiptOf (action : Action) (current : JsonObject) (ready : Bool) : Except Fault EffectReceipt := do
  let metadata ← objectValue (← member current "metadata")
  let version ← member metadata "resourceVersion"
  match (versionText version).bind Identifier.validate with
  | some resultingVersion => return ⟨if ready then .succeeded else .failed, action.resourceUid,
      action.expectedVersion, some resultingVersion⟩
  | none => throw (.value "resulting_version")

namespace LocalDeploymentExecutor

variable (X : LocalDeploymentExecutor)

/-- `_namespace`. -/
def checkNamespace : Program Kubectl Unit := do
  let current ← command ["get", "namespace", "payops-sandbox"]
  let metadata ← ofResult (member current "metadata" >>= objectValue)
  raiseIf (isText metadata "uid" X.namespaceUid = false ∨ isText metadata "name" "payops-sandbox" = false ∨
    isNone metadata "deletionTimestamp" = false) (.permission "EXECUTOR_NAMESPACE_CHANGED")

/-- `_read`. -/
def read (service : String) : Program Kubectl JsonObject := do
  raiseIf (X.inventory service = none ∨ service ∉ Policy.SERVICES) (.permission "EXECUTOR_SERVICE_DENIED")
  command ["get", "deployment", service]

/-- The polls, and the receipt. -/
def postcheck (plan : DeploymentPlan) (deadline : ℚ) : ℕ → JsonObject → Program Kubectl EffectReceipt
  | 0, _ => throw (.other "cut off")
  | rounds + 1, current => do
    let ready ← ofResult (rolloutReady plan current)
    if ready then
      let now ← clock
      ofResult (receiptOf plan.action current (decide (now ≤ deadline)))
    else
      let now ← clock
      if deadline ≤ now then ofResult (receiptOf plan.action current false)
      else
        let now ← clock
        wait (min 1 (max 0 (deadline - now)))
        X.checkNamespace
        let current ← X.read plan.action.service.val
        postcheck plan deadline rounds current

/-- The arguments of the patch. -/
def patchArgs (plan : DeploymentPlan) : List String :=
  ["patch", "deployment", plan.action.service.val, "--type=json",
    "--patch=" ++ (Json.arr plan.patch).text .compact]

/-- `execute`. -/
def execute (rounds : ℕ) (action : Action) (idempotencyKey : String) : Program Kubectl EffectReceipt := do
  ofResult (validateTarget action X.inventory)
  X.checkNamespace
  let read ← X.read action.service.val
  let plan ← ofResult (planDeployment action read idempotencyKey X.inventory
    (X.revisions action.service.val))
  let current ← command (patchArgs plan)
  -- There is no second write: a command that timed out may have been committed.
  let now ← clock
  X.postcheck plan (now + X.seconds) rounds current

/-! ### One patch -/

/-- The command is a patch. -/
def isPatch : Event Kubectl → Bool
  | ⟨.command ("patch" :: _), _⟩ => true
  | _ => false

/-- The request is no patch. -/
def Reads : KubectlEffect → Prop
  | .command args => args.head? ≠ some "patch"
  | _ => True

omit [Platform] [Numerals] in
theorem isPatch_of_reads (ev : Event Kubectl) (h : Reads ev.effect) : isPatch ev = false := by
  unfold isPatch
  split
  · exact absurd rfl h
  · rfl

omit [Platform] [Numerals] in
theorem checkNamespace_reads : Within Reads X.checkNamespace := by
  have hget : Reads (.command ["get", "namespace", "payops-sandbox"]) := by simp [Reads]
  exact (within_perform.mpr hget).bind fun _ => (within_ofResult _).bind fun _ => within_raiseIf

omit [Platform] [Numerals] in
theorem read_reads (service : String) : Within Reads (X.read service) := by
  have hget : Reads (.command ["get", "deployment", service]) := by simp [Reads]
  exact within_raiseIf.bind fun _ => within_perform.mpr hget

theorem postcheck_reads (plan : DeploymentPlan) (deadline : ℚ) (rounds : ℕ) (current : JsonObject) :
    Within Reads (X.postcheck plan deadline rounds current) := by
  induction rounds generalizing current with
  | zero => trivial
  | succ rounds ih =>
    unfold postcheck
    refine (within_ofResult _).bind fun ready => ?_
    split_ifs
    · exact Within.bind (within_perform.mpr trivial) fun _ => within_ofResult _
    · refine Within.bind (within_perform.mpr trivial) fun now => ?_
      split_ifs
      · exact within_ofResult _
      · refine Within.bind (within_perform.mpr trivial) fun now => ?_
        refine Within.bind (within_perform.mpr trivial) fun _ => ?_
        exact (X.checkNamespace_reads).bind fun _ => (X.read_reads _).bind fun current => ih current

/-- **One patch at most is issued**, whatever the commands come to. -/
theorem execute_debt (rounds : ℕ) (action : Action) (key : String) :
    Debt isPatch (fun _ => false) 1 (X.execute rounds action key) := by
  have quiet : ∀ {α : Type} {p : Program Kubectl α}, Within Reads p → Debt isPatch (fun _ => false) 0 p :=
    fun hp => (Covered.of_within hp isPatch_of_reads).debt 0
  have hpost : ∀ plan current, Debt isPatch (fun _ => false) 0
      (clock.bind fun now => X.postcheck plan (now + X.seconds) rounds current) := fun plan current =>
    quiet (Within.bind (within_perform.mpr trivial) fun now => X.postcheck_reads plan _ rounds current)
  have hpatch : ∀ plan, Debt isPatch (fun _ => false) (1 + 0) ((command (patchArgs plan)).bind fun current =>
      clock.bind fun now => X.postcheck plan (now + X.seconds) rounds current) :=
    fun plan => debt_perform.bind (hpost plan)
  have hall := (quiet (within_ofResult (validateTarget action X.inventory))).bind fun _ =>
    (quiet X.checkNamespace_reads).bind fun _ => (quiet (X.read_reads action.service.val)).bind fun read =>
      (quiet (within_ofResult (planDeployment action read key X.inventory
        (X.revisions action.service.val)))).bind hpatch
  exact hall.mono (by omega)

/-! ### Success -/

/-- A document shows the planned specification, fully rolled out. -/
structure Converged (plan : DeploymentPlan) (current : JsonObject) : Prop where
  /-- Its identity is the approved one, -/
  uid : lookup ["metadata", "uid"] (.obj current) = some (.str plan.action.resourceUid.val)
  /-- its specification equals the planned one, -/
  spec : ∃ spec, field current "spec" = some spec ∧ pythonEqual spec (.obj plan.after) = true
  /-- its controller has seen the current generation, -/
  generation : ∃ generation observed,
    lookup ["metadata", "generation"] (.obj current) = some (.int generation) ∧
    lookup ["status", "observedGeneration"] (.obj current) = some observed ∧
    pythonEqual observed (.int generation) = true
  /-- and every count is the planned one, which is positive. -/
  counts : ∃ replicas, plan.replicas = some replicas ∧ 0 < replicas ∧
    ∀ name ∈ COUNTS, lookup ["status", name] (.obj current) = some (.int replicas)

theorem rolloutReady_converged {plan : DeploymentPlan} {current : JsonObject}
    (h : rolloutReady plan current = .ok true) : Converged plan current := by
  unfold rolloutReady at h
  obtain ⟨_, hmember, h₁⟩ := bind_eq_ok.mp h
  obtain ⟨metadata, hmetadata, h₂⟩ := bind_eq_ok.mp h₁
  rw [member_eq_ok, objectValue_eq_ok.mp hmetadata] at hmember
  have atMetadata : ∀ name, lookup ["metadata", name] (.obj current) = field metadata name := fun name => by
    rw [lookup_cons]
    show (field current "metadata").bind _ = _
    rw [hmember]
    exact lookup_member name metadata
  split_ifs at h₂ with hdrift
  obtain ⟨status, hstatus, h₃⟩ := bind_eq_ok.mp h₂
  simp only [Bool.or_eq_true, Bool.not_eq_true', not_or, Bool.not_eq_false] at hdrift
  obtain ⟨huid, hspec⟩ := hdrift
  split at h₃
  swap
  · cases h₃
  rename_i replicas generation hreplicas hgeneration
  have hready := Except.ok.inj h₃
  simp only [Bool.and_eq_true, decide_eq_true_eq] at hready
  obtain ⟨⟨⟨hpos, hobserved⟩, hcounts⟩, -⟩ := hready
  have atStatus : ∀ name x, field status name = some x → lookup ["status", name] (.obj current) = some x := by
    intro name x hx
    cases hfield : field current "status" with
    | none =>
      rw [hfield] at hstatus
      cases hstatus
      cases hx
    | some found =>
      rw [hfield, Option.getD_some] at hstatus
      rw [lookup_cons]
      show (field current "status").bind _ = _
      rw [hfield, objectValue_eq_ok.mp hstatus]
      exact (lookup_member name status).trans hx
  refine ⟨(atMetadata "uid").trans (isText_iff.mp huid), ?_, ?_, replicas, hreplicas, hpos, fun name hname => ?_⟩
  · cases hfield : field current "spec" with
    | none =>
      rw [hfield] at hspec
      cases hspec
    | some spec => exact ⟨spec, rfl, by rwa [hfield] at hspec⟩
  · obtain ⟨g, hg, hint⟩ := Option.bind_eq_some_iff.mp hgeneration
    cases hfield : field status "observedGeneration" with
    | none =>
      rw [hfield] at hobserved
      simp [pythonEqual, equal, pythonScalarEqual, pythonNumber, sameNumber, number] at hobserved
    | some observed =>
      rw [hfield, Option.getD_some] at hobserved
      refine ⟨generation, observed, ?_, atStatus _ _ hfield, hobserved⟩
      rw [atMetadata, hg]
      cases g <;> cases hint
      rfl
  · exact atStatus name _ (by simpa [isInt] using List.all_eq_true.mp hcounts name hname)

omit [Numerals] in
theorem receiptOf_ready {action : Action} {current : JsonObject} {ready : Bool} {receipt : EffectReceipt}
    (h : receiptOf action current ready = .ok receipt) (hsucceeded : receipt.outcome = .succeeded) :
    ready = true := by
  unfold receiptOf at h
  obtain ⟨_, -, h₁⟩ := bind_eq_ok.mp h
  obtain ⟨_, -, h₂⟩ := bind_eq_ok.mp h₁
  obtain ⟨_, -, h₃⟩ := bind_eq_ok.mp h₂
  split at h₃
  · cases h₃
    cases ready with
    | true => rfl
    | false => cases hsucceeded
  · cases h₃

omit [Platform] [Numerals] in
theorem read_runs {service : String} {h : History Kubectl} {doc : JsonObject}
    (hruns : Runs (X.read service) h (.ok doc)) :
    h = [⟨.command ["get", "deployment", service], .ok doc⟩] := by
  obtain ⟨-, hget⟩ := runs_raiseIf_bind_ok.mp hruns
  exact runs_perform.mp hget

/-- A poll that ends in success has seen a document that is fully rolled out. -/
theorem postcheck_succeeded {plan : DeploymentPlan} {deadline : ℚ} {rounds : ℕ} {current : JsonObject}
    {h : History Kubectl} {receipt : EffectReceipt}
    (hruns : Runs (X.postcheck plan deadline rounds current) h (.ok receipt))
    (hsucceeded : receipt.outcome = .succeeded) :
    ∃ doc, Converged plan doc ∧ (doc = current ∨ ∃ args, ⟨.command args, .ok doc⟩ ∈ h) := by
  induction rounds generalizing current h with
  | zero => cases (runs_fail.mp hruns).2
  | succ rounds ih =>
    unfold postcheck at hruns
    obtain ⟨ready, hready, h₁⟩ := runs_ofResult_bind_ok.mp hruns
    cases ready with
    | true => exact ⟨current, rolloutReady_converged hready, .inl rfl⟩
    | false =>
      obtain ⟨now, g, rfl, h₂⟩ := runs_perform_bind_ok.mp h₁
      split_ifs at h₂
      · cases receiptOf_ready (runs_ofResult.mp h₂).2.symm hsucceeded
      · obtain ⟨now', g₁, rfl, h₃⟩ := runs_perform_bind_ok.mp h₂
        obtain ⟨_, g₂, rfl, h₄⟩ := runs_perform_bind_ok.mp h₃
        obtain ⟨_, g₃, g₄, rfl, -, h₅⟩ := runs_bind_ok.mp h₄
        obtain ⟨next, g₅, g₆, rfl, hread, h₆⟩ := runs_bind_ok.mp h₅
        obtain ⟨doc, hdoc, hseen⟩ := ih h₆
        refine ⟨doc, hdoc, .inr ?_⟩
        rcases hseen with rfl | ⟨args, hmem⟩
        · -- The document that was read before the last poll.
          exact ⟨["get", "deployment", plan.action.service.val], by simp [X.read_runs hread]⟩
        · exact ⟨args, by simp [hmem]⟩

/-- A receipt of success follows a plan of the document that was read, and an observed document that is
fully rolled out. -/
theorem execute_succeeded {rounds : ℕ} {action : Action} {key : String} {h : History Kubectl}
    {receipt : EffectReceipt} (hruns : Runs (X.execute rounds action key) h (.ok receipt))
    (hsucceeded : receipt.outcome = .succeeded) :
    ∃ current plan, ⟨.command ["get", "deployment", action.service.val], .ok current⟩ ∈ h ∧
      planDeployment action current key X.inventory (X.revisions action.service.val) = .ok plan ∧
      ∃ args doc, ⟨.command args, .ok doc⟩ ∈ h ∧ Converged plan doc := by
  unfold execute at hruns
  obtain ⟨_, -, h₁⟩ := runs_ofResult_bind_ok.mp hruns
  obtain ⟨_, g₁, g₂, rfl, -, h₂⟩ := runs_bind_ok.mp h₁
  obtain ⟨current, g₃, g₄, rfl, hread, h₃⟩ := runs_bind_ok.mp h₂
  obtain ⟨plan, hplan, h₄⟩ := runs_ofResult_bind_ok.mp h₃
  obtain ⟨patched, g₅, rfl, h₅⟩ := runs_perform_bind_ok.mp h₄
  obtain ⟨now, g₆, rfl, h₆⟩ := runs_perform_bind_ok.mp h₅
  refine ⟨current, plan, by simp [X.read_runs hread], hplan, ?_⟩
  obtain ⟨doc, hdoc, rfl | ⟨args, hmem⟩⟩ := X.postcheck_succeeded h₆ hsucceeded
  · exact ⟨patchArgs plan, doc, by simp, hdoc⟩
  · exact ⟨args, doc, by simp [hmem], hdoc⟩

end LocalDeploymentExecutor

/-- **The frame of a Deployment change.** For every action and every document that a plan was made from, its
patch fails on any document, which is then unchanged, or the document has the approved identity and version
and exactly the specification that was read, and differs afterwards only at the approved place, where it has
the approved value. And however the commands come out, one patch at most is issued, and a receipt of success
follows an observed document with the planned specification, fully rolled out. -/
theorem deployment_change (action : Action) (key : String) :
    (∀ (current : JsonObject) (inventory revisions : String → Option String) (plan : DeploymentPlan),
      planDeployment action current key inventory revisions = .ok plan → ∀ doc : Json,
        applyPatch plan.patch doc = none ∨ ∃ doc', applyPatch plan.patch doc = some doc' ∧
          field current "spec" = some (.obj plan.before) ∧
          Framed action key revisions plan.before doc doc') ∧
      ∀ (X : LocalDeploymentExecutor) (rounds : ℕ) (h : History Kubectl),
        (∀ q, Path (X.execute rounds action key) h q → h.countP LocalDeploymentExecutor.isPatch ≤ 1) ∧
          ∀ receipt, Runs (X.execute rounds action key) h (.ok receipt) → receipt.outcome = .succeeded →
            ∃ current plan, ⟨.command ["get", "deployment", action.service.val], .ok current⟩ ∈ h ∧
              planDeployment action current key X.inventory (X.revisions action.service.val) = .ok plan ∧
              ∃ args doc, ⟨.command args, .ok doc⟩ ∈ h ∧ LocalDeploymentExecutor.Converged plan doc := by
  refine ⟨fun current inventory revisions plan hplan doc => ?_, fun X rounds h => ⟨fun q hpath => ?_,
    fun receipt => X.execute_succeeded⟩⟩
  · cases hpatch : applyPatch plan.patch doc with
    | none => exact .inl rfl
    | some doc' => exact .inr ⟨doc', rfl, patch_framed hplan hpatch⟩
  · have := X.execute_debt rounds action key h q hpath
    simpa using this

end PayOps.Remediation

namespace PayOps.Remediation

open Process Program Policy Json

/-! ### A change of the number of replicas -/

/-- A platform whose digests are all the same. -/
@[reducible] def constantPlatform : Platform where
  sha256 _ := "0"
  patternWord _ := false
  reWord _ := false
  nesting := 64
  floatRepr text := text

/-- Floats without values. -/
@[reducible] def noNumerals : Numerals := ⟨fun _ => none⟩

attribute [local instance] constantPlatform noNumerals

/-- A change to three replicas. -/
def scaleAction : Action where
  incidentId := ⟨"inc-1", by decide⟩
  nameSpace := ⟨"payops-sandbox", by decide⟩
  service := ⟨"risk-sim", by decide⟩
  resourceUid := ⟨"uid-1", by decide⟩
  expectedVersion := ⟨"7", by decide⟩
  evidenceIds := [⟨"pods", by decide⟩]
  mode := .localKind
  effect := .scale 3 (by decide)
  evidence_bounded := by decide
  evidence_nodup := by decide

/-- The Deployment that is read. -/
def scaleCurrent : JsonObject :=
  [("kind", .str "Deployment"), ("apiVersion", .str "apps/v1"),
    ("metadata", .obj [("namespace", .str "payops-sandbox"), ("name", .str "risk-sim"),
      ("uid", .str "uid-1"), ("resourceVersion", .str "7"),
      ("labels", .obj [("app.kubernetes.io/part-of", .str "payops")])]),
    ("spec", .obj [("replicas", .int 1), ("paused", .bool false)])]

/-- The service and its identity. -/
def scaleInventory (service : String) : Option String :=
  if service = "risk-sim" then some "uid-1" else none

/-- The plan of the change. -/
def scalePlan : DeploymentPlan where
  action := scaleAction
  before := [("replicas", .int 1), ("paused", .bool false)]
  after := [("replicas", .int 3), ("paused", .bool false)]

/-- The patch of this change applies to the document that was read, and only the replicas differ. -/
theorem deployment_change_sample : ∃ doc, applyPatch scalePlan.patch (.obj scaleCurrent) = some doc ∧
    Framed scaleAction "0" (fun _ => none) scalePlan.before (.obj scaleCurrent) doc := by
  have hplan : planDeployment scaleAction scaleCurrent "0" scaleInventory (fun _ => none) =
      .ok scalePlan := by rfl
  have happlied : (applyPatch scalePlan.patch (.obj scaleCurrent)).isSome = true := by decide +kernel
  rcases (deployment_change scaleAction "0").1 scaleCurrent scaleInventory _ scalePlan hplan
    (.obj scaleCurrent) with hnone | ⟨doc, hdoc, -, hframed⟩
  · rw [hnone] at happlied
    cases happlied
  · exact ⟨doc, hdoc, hframed⟩

end PayOps.Remediation
