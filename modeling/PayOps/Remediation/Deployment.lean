import PayOps.JsonPatch
import PayOps.Faults
import PayOps.Policy.Engine

/-!
# Plans for a Deployment

`payops.remediation.deployment`: a restart, a change of the number of replicas or of the image, as a JSON
patch that is conditional on the whole specification.

## The model

A document is a JSON value, and the nested copies that the code changes are functional updates of it. The
mappings of an operator are functions.

## What is proved

* `planned` — what a plan keeps of the document it was made from, and what it changes.
* `patch_framed` — **the patch fails, or the document differs only at the approved place**.
-/

namespace PayOps.Remediation

open Policy Json

variable [Platform]

/-! ### Documents -/

/-- `object_value`. -/
def objectValue : Json → Except Fault JsonObject
  | .obj fields => .ok fields
  | _ => .error (.value "expected Kubernetes JSON object")

/-- `[object_value(item) for item in items]`. -/
def objectValues : List Json → Except Fault (List JsonObject)
  | [] => .ok []
  | item :: items => do
    let fields ← objectValue item
    let rest ← objectValues items
    return fields :: rest

/-- `object_items`. -/
def objectItems : Json → Except Fault (List JsonObject)
  | .arr items => objectValues items
  | _ => .error (.value "expected Kubernetes JSON list")

/-- `fields[key]`. -/
def member (fields : JsonObject) (key : String) : Except Fault Json :=
  match field fields key with
  | some value => .ok value
  | none => .error (.key key)

/-- `fields.get(key) == text`. -/
def isText (fields : JsonObject) (key text : String) : Bool := field fields key == some (.str text)

/-- `fields.get(key) is None`. -/
def isNone (fields : JsonObject) (key : String) : Bool :=
  (field fields key).all fun value => value == .null

/-! ### Plans -/

/-- `DeploymentPlan`. -/
structure DeploymentPlan where
  /-- The action. -/
  action : Action
  /-- The specification that was read. -/
  before : JsonObject
  /-- The specification that is wanted. -/
  after : JsonObject

/-- `patch`. -/
def DeploymentPlan.patch (plan : DeploymentPlan) : List Json :=
  [.obj [("op", .str "test"), ("path", .str "/metadata/uid"), ("value", .str plan.action.resourceUid.val)],
    .obj [("op", .str "test"), ("path", .str "/metadata/resourceVersion"),
      ("value", .str plan.action.expectedVersion.val)],
    .obj [("op", .str "test"), ("path", .str "/spec"), ("value", .obj plan.before)],
    .obj [("op", .str "replace"), ("path", .str "/spec"), ("value", .obj plan.after)]]

/-- `validate_target`; an action is valid as it is. -/
def validateTarget (action : Action) (inventory : String → Option String) : Except Fault Unit :=
  if action.mode ≠ .localKind ∨ action.nameSpace.val ≠ "payops-sandbox" ∨
      action.service.val ∉ Policy.SERVICES ∨ inventory action.service.val ≠ some action.resourceUid.val ∨
      action.effect = .pause then
    .error (.permission "EXECUTOR_TARGET_DENIED")
  else .ok ()

/-- `deployment_spec`. -/
def deploymentSpec (action : Action) (current : JsonObject) : Except Fault JsonObject := do
  let metadata ← objectValue (← member current "metadata")
  let labels ← objectValue ((field metadata "labels").getD (.obj []))
  if !isText current "kind" "Deployment" || !isText current "apiVersion" "apps/v1" ||
      !isText metadata "namespace" action.nameSpace.val || !isText metadata "name" action.service.val ||
      !isText metadata "uid" action.resourceUid.val ||
      !isText metadata "resourceVersion" action.expectedVersion.val ||
      !isText labels "app.kubernetes.io/part-of" "payops" || !isNone metadata "deletionTimestamp" then
    throw (.permission "EXECUTOR_PRECONDITION_FAILED")
  else objectValue (← member current "spec")

/-- A character of `[a-zA-Z0-9./:_-]`. -/
def imageChar (c : Char) : Bool := c.isAlphanum || c ∈ ['.', '/', ':', '_', '-']

/-- `[a-zA-Z0-9][a-zA-Z0-9./:_-]*@sha256:` and the revision, as a whole. -/
def imageOk (revision image : String) : Bool :=
  let suffix := "@sha256:".toList ++ revision.toList
  let name := image.toList.take (image.toList.length - suffix.length)
  image.toList == name ++ suffix && match name with
    | c :: cs => c.isAlphanum && cs.all imageChar
    | [] => false

/-- `rollback_image`. -/
def rollbackImage (revision : String) (revisions : String → Option String) : Except Fault String :=
  let image := (revisions revision).getD ""
  if imageOk revision image then .ok image else .error (.permission "EXECUTOR_REVISION_DENIED")

/-- The specification with the approved image. -/
def rolledBack (revision : String) (revisions : String → Option String) (after : JsonObject) :
    Except Fault JsonObject := do
  let template ← objectValue (← member after "template")
  let podSpec ← objectValue (← member template "spec")
  match ← objectItems (← member podSpec "containers") with
  | [container] =>
    if !isText container "name" "sandbox" then throw (.permission "EXECUTOR_CONTAINER_DENIED")
    else
      let image ← rollbackImage revision revisions
      let containers := Json.arr [.obj (setField container "image" (.str image))]
      return setField after "template" (.obj (setField template "spec"
        (.obj (setField podSpec "containers" containers))))
  | _ => throw (.permission "EXECUTOR_CONTAINER_DENIED")

/-- The specification with the annotation of a restart. -/
def restarted (key : String) (after : JsonObject) : Except Fault JsonObject := do
  let template ← objectValue (← member after "template")
  let metadata ← objectValue (← member template "metadata")
  let annotations ← objectValue ((field metadata "annotations").getD (.obj []))
  let annotations := Json.obj (setField annotations "payops.dev/remediation" (.str key))
  return setField after "template" (.obj (setField template "metadata"
    (.obj (setField metadata "annotations" annotations))))

/-- The specification that is wanted. -/
def wanted (action : Action) (key : String) (revisions : String → Option String) (before : JsonObject) :
    Except Fault JsonObject :=
  match action.effect with
  | .scale replicas _ => .ok (setField before "replicas" (.int replicas))
  | .rollback revision => rolledBack revision.val revisions before
  | _ => restarted key before

/-- `plan_deployment`. -/
def planDeployment (action : Action) (current : JsonObject) (key : String)
    (inventory revisions : String → Option String) : Except Fault DeploymentPlan := do
  validateTarget action inventory
  if key ≠ actionDigest action then throw (.permission "EXECUTOR_DIGEST_MISMATCH")
  else
    let before ← deploymentSpec action current
    let after ← wanted action key revisions before
    return ⟨action, before, after⟩

/-! ### What a plan changes -/

/-- Where the action changes a specification. -/
def changedPath : Policy.Effect → List String
  | .scale .. => ["replicas"]
  | .rollback _ => ["template", "spec", "containers", "0", "image"]
  | _ => ["template", "metadata", "annotations", "payops.dev/remediation"]

/-- What is there afterwards, in the specification `after`. -/
def Changed (action : Action) (key : String) (revisions : String → Option String) (after : Json) : Prop :=
  match action.effect with
  | .scale replicas _ => lookup ["replicas"] after = some (.int replicas)
  | .rollback revision => ∃ image container, revisions revision.val = some image ∧
      imageOk revision.val image = true ∧
      lookup ["template", "spec", "containers"] after = some (.arr [.obj container]) ∧
      field container "name" = some (.str "sandbox") ∧ field container "image" = some (.str image)
  | _ => lookup ["template", "metadata", "annotations", "payops.dev/remediation"] after = some (.str key)

omit [Platform] in
theorem objectValue_eq_ok {x : Json} {fields : JsonObject} : objectValue x = .ok fields ↔ x = .obj fields := by
  cases x <;> simp [objectValue, eq_comm]

omit [Platform] in
theorem member_eq_ok {fields : JsonObject} {key : String} {x : Json} :
    member fields key = .ok x ↔ field fields key = some x := by
  unfold member
  cases h : field fields key <;> simp

omit [Platform] in
theorem isText_iff {fields : JsonObject} {key text : String} :
    isText fields key text = true ↔ field fields key = some (.str text) := by
  simp [isText]

omit [Platform] in
/-- **What a restart changes.** -/
theorem restarted_agreesOff {key : String} {before after : JsonObject} (h : restarted key before = .ok after) :
    AgreesOff ["template", "metadata", "annotations", "payops.dev/remediation"] (.obj before) (.obj after) ∧
      lookup ["template", "metadata", "annotations", "payops.dev/remediation"] (.obj after) =
        some (.str key) := by
  unfold restarted at h
  obtain ⟨_, hmember, h⟩ := bind_eq_ok.mp h
  obtain ⟨template, hobj, h⟩ := bind_eq_ok.mp h
  obtain ⟨_, hmember', h⟩ := bind_eq_ok.mp h
  obtain ⟨metadata, hobj', h⟩ := bind_eq_ok.mp h
  obtain ⟨annotations, hobj'', h⟩ := bind_eq_ok.mp h
  cases h
  rw [member_eq_ok, objectValue_eq_ok.mp hobj] at hmember
  rw [member_eq_ok, objectValue_eq_ok.mp hobj'] at hmember'
  refine ⟨.member ?_, by simp [child]⟩
  rw [hmember]
  refine .member ?_
  rw [hmember']
  refine .member ?_
  rw [objectValue_eq_ok.mp hobj'']
  exact .put _ _ _

omit [Platform] in
theorem objectValues_eq_ok {items : List Json} {found : List JsonObject} (h : objectValues items = .ok found) :
    items = found.map .obj := by
  induction items generalizing found with
  | nil =>
    cases h
    rfl
  | cons item items ih =>
    obtain ⟨fields, hfields, h'⟩ := bind_eq_ok.mp h
    obtain ⟨rest, hrest, h''⟩ := bind_eq_ok.mp h'
    cases h''
    rw [List.map_cons, ← ih hrest, objectValue_eq_ok.mp hfields]

omit [Platform] in
theorem objectItems_eq_ok {x : Json} {found : List JsonObject} (h : objectItems x = .ok found) :
    x = .arr (found.map .obj) := by
  cases x with
  | arr items => rw [objectValues_eq_ok h]
  | _ => cases h

omit [Platform] in
theorem rollbackImage_eq_ok {revision image : String} {revisions : String → Option String}
    (h : rollbackImage revision revisions = .ok image) :
    revisions revision = some image ∧ imageOk revision image = true := by
  unfold rollbackImage at h
  dsimp only at h
  split_ifs at h with hok
  cases h
  cases hfound : revisions revision with
  | some image => exact ⟨rfl, by simpa [hfound] using hok⟩
  | none =>
    rw [hfound] at hok
    simp [imageOk] at hok

omit [Platform] in
/-- **What a rollback changes.** -/
theorem rolledBack_agreesOff {revision : String} {revisions : String → Option String}
    {before after : JsonObject} (h : rolledBack revision revisions before = .ok after) :
    AgreesOff ["template", "spec", "containers", "0", "image"] (.obj before) (.obj after) ∧
      ∃ image container, revisions revision = some image ∧ imageOk revision image = true ∧
        lookup ["template", "spec", "containers"] (.obj after) = some (.arr [.obj container]) ∧
        field container "name" = some (.str "sandbox") ∧ field container "image" = some (.str image) := by
  unfold rolledBack at h
  obtain ⟨_, hmember, h⟩ := bind_eq_ok.mp h
  obtain ⟨template, hobj, h⟩ := bind_eq_ok.mp h
  obtain ⟨_, hmember', h⟩ := bind_eq_ok.mp h
  obtain ⟨podSpec, hobj', h⟩ := bind_eq_ok.mp h
  obtain ⟨_, hmember'', h⟩ := bind_eq_ok.mp h
  obtain ⟨containers, hitems, h⟩ := bind_eq_ok.mp h
  rw [member_eq_ok, objectValue_eq_ok.mp hobj] at hmember
  rw [member_eq_ok, objectValue_eq_ok.mp hobj'] at hmember'
  rw [member_eq_ok] at hmember''
  split at h
  · rename_i container
    split_ifs at h with hname
    obtain ⟨image, himage, h⟩ := bind_eq_ok.mp h
    cases h
    rw [objectItems_eq_ok hitems] at hmember''
    have happroved := rollbackImage_eq_ok himage
    refine ⟨.member ?_, image, setField container "image" (.str image), happroved.1, happroved.2,
      by simp [child], ?_, by simp⟩
    · rw [hmember]
      refine .member ?_
      rw [hmember']
      refine .member ?_
      rw [hmember'']
      exact .item (.put _ _ _)
    · rw [field_setField, if_neg (by decide)]
      exact isText_iff.mp (by simpa using hname)
  · cases h

/-- **What a plan keeps and what it changes**: it is of the specification that was read, and agrees with it
but for the approved place. -/
theorem planned {action : Action} {current : JsonObject} {key : String}
    {inventory revisions : String → Option String} {plan : DeploymentPlan}
    (h : planDeployment action current key inventory revisions = .ok plan) :
    plan.action = action ∧ field current "spec" = some (.obj plan.before) ∧
      AgreesOff (changedPath action.effect) (.obj plan.before) (.obj plan.after) ∧
      Changed action key revisions (.obj plan.after) := by
  unfold planDeployment at h
  obtain ⟨_, -, h₁⟩ := bind_eq_ok.mp h
  split_ifs at h₁ with hkey
  obtain ⟨before, hbefore, h₂⟩ := bind_eq_ok.mp h₁
  obtain ⟨after, hafter, h₃⟩ := bind_eq_ok.mp h₂
  cases h₃
  refine ⟨rfl, ?_, ?_⟩
  · unfold deploymentSpec at hbefore
    obtain ⟨_, -, h₄⟩ := bind_eq_ok.mp hbefore
    obtain ⟨metadata, -, h₅⟩ := bind_eq_ok.mp h₄
    obtain ⟨labels, -, h₆⟩ := bind_eq_ok.mp h₅
    split_ifs at h₆
    obtain ⟨spec, hspec, hobj⟩ := bind_eq_ok.mp h₆
    rw [member_eq_ok, objectValue_eq_ok.mp hobj] at hspec
    exact hspec
  · unfold wanted at hafter
    unfold Changed
    cases heffect : action.effect with
    | scale replicas bounded =>
      rw [heffect] at hafter
      cases hafter
      exact ⟨.put _ _ _, by simp [child]⟩
    | rollback revision =>
      rw [heffect] at hafter
      exact rolledBack_agreesOff hafter
    | restart =>
      rw [heffect] at hafter
      exact restarted_agreesOff hafter
    | pause =>
      rw [heffect] at hafter
      exact restarted_agreesOff hafter

/-! ### The patch -/

variable [Numerals]

/-- A patch of a plan is three tests and a replacement. -/
theorem applyPatch_plan (plan : DeploymentPlan) (doc : Json) :
    applyPatch plan.patch doc =
      (Operation.apply doc (.test ["metadata", "uid"] (.str plan.action.resourceUid.val))).bind fun doc =>
        (Operation.apply doc (.test ["metadata", "resourceVersion"]
          (.str plan.action.expectedVersion.val))).bind fun doc =>
            (Operation.apply doc (.test ["spec"] (.obj plan.before))).bind fun doc =>
              (Operation.apply doc (.replace ["spec"] (.obj plan.after))).bind some := rfl

/-- The second document differs from the first only at `path`: at every path that neither leads there nor
goes on from there it has the same value, or an equal one. -/
def DiffersOnlyAt (path : List String) (x y : Json) : Prop :=
  ∀ q, ¬path <+: q → ¬q <+: path → lookup q y = lookup q x ∨
    Option.Rel (fun a b => equal scalarEqual a b = true) (lookup q x) (lookup q y)

/-- What a patch of a plan does to a document. -/
structure Framed (action : Action) (key : String) (revisions : String → Option String)
    (before : JsonObject) (doc doc' : Json) : Prop where
  /-- The document has the approved identity, -/
  uid : lookup ["metadata", "uid"] doc = some (.str action.resourceUid.val)
  /-- and the approved version. -/
  version : lookup ["metadata", "resourceVersion"] doc = some (.str action.expectedVersion.val)
  /-- It has the specification that was read. -/
  spec : ∃ spec, lookup ["spec"] doc = some spec ∧ equal scalarEqual spec (.obj before) = true
  /-- Only the approved place differs, -/
  differs : DiffersOnlyAt ("spec" :: changedPath action.effect) doc doc'
  /-- where there is what was approved. -/
  changed : ∃ after, lookup ["spec"] doc' = some after ∧ Changed action key revisions after

omit [Platform] in
/-- A test succeeds on an equal value. -/
theorem test_eq_some {path : List String} {value doc doc' : Json}
    (h : Operation.apply doc (.test path value) = some doc') :
    doc = doc' ∧ ∃ target, lookup path doc = some target ∧ equal scalarEqual target value = true := by
  obtain ⟨target, htarget, h'⟩ := Option.bind_eq_some_iff.mp h
  split_ifs at h' with hequal
  exact ⟨Option.some.inj h', target, htarget, hequal⟩

omit [Platform] in
/-- What is equal to a string is that string. -/
theorem equal_str {x : Json} {s : String} (h : equal scalarEqual x (.str s) = true) : x = .str s := by
  cases x <;> simp [equal, scalarEqual, sameNumber, number] at h
  rw [h]

/-- **The patch fails, or the document differs only at the approved place.** -/
theorem patch_framed {action : Action} {current : JsonObject} {key : String}
    {inventory revisions : String → Option String} {plan : DeploymentPlan}
    (h : planDeployment action current key inventory revisions = .ok plan) {doc doc' : Json}
    (hpatch : applyPatch plan.patch doc = some doc') :
    field current "spec" = some (.obj plan.before) ∧ Framed action key revisions plan.before doc doc' := by
  obtain ⟨rfl, hspec, hagrees, hchanged⟩ := planned h
  refine ⟨hspec, ?_⟩
  rw [applyPatch_plan] at hpatch
  obtain ⟨_, htest, hpatch₁⟩ := Option.bind_eq_some_iff.mp hpatch
  obtain ⟨rfl, uid, huid, heq⟩ := test_eq_some htest
  obtain ⟨_, htest', hpatch₂⟩ := Option.bind_eq_some_iff.mp hpatch₁
  obtain ⟨rfl, version, hversion, heq'⟩ := test_eq_some htest'
  obtain ⟨_, htest'', hpatch₃⟩ := Option.bind_eq_some_iff.mp hpatch₂
  obtain ⟨rfl, spec, hfound, hequal⟩ := test_eq_some htest''
  obtain ⟨_, hreplace, hdone⟩ := Option.bind_eq_some_iff.mp hpatch₃
  cases hdone
  obtain rfl := equal_str heq
  obtain rfl := equal_str heq'
  cases doc with
  | obj fields =>
    have hmember : field fields "spec" = some spec := (lookup_member "spec" fields).symm.trans hfound
    have hresult : doc' = .obj (setField fields "spec" (.obj plan.after)) := by
      simp [Operation.apply, replaceAt, hmember] at hreplace
      exact hreplace.symm
    subst hresult
    refine ⟨huid, hversion, ⟨spec, hfound, hequal⟩, fun q hq hq' => ?_, _, by simp [child], hchanged⟩
    cases q with
    | nil => exact absurd List.nil_prefix hq'
    | cons token q =>
      have hnew : lookup (token :: q) (.obj (setField fields "spec" (.obj plan.after))) =
          (field (setField fields "spec" (.obj plan.after)) token).bind (lookup q) := rfl
      have hold : lookup (token :: q) (.obj fields) = (field fields token).bind (lookup q) := rfl
      rw [hnew, hold, field_setField]
      by_cases htoken : "spec" = token
      · subst htoken
        rw [List.cons_prefix_cons] at hq hq'
        have hsame := hagrees q (fun hp => hq ⟨rfl, hp⟩) fun hp => hq' ⟨rfl, hp⟩
        rw [if_pos rfl, hmember, Option.bind_some, Option.bind_some, hsame]
        exact .inr (equal_lookup scalarEqual_leaf hequal q)
      · rw [if_neg htoken]
        exact .inl rfl
  | arr items =>
    have hindex : arrayIndex "spec" = none := by decide
    simp [child, hindex] at hfound
  | _ => simp [child] at hfound

end PayOps.Remediation
