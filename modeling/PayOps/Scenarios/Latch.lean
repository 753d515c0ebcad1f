import PayOps.Faults
import PayOps.Scenarios.Runner
import PayOps.Process.Serial

/-!
# The latch of the sandbox

A run writes to the cluster only while it owns the latch, and gives the latch back only after what it wrote
is undone.

## The model

`Owns` is read off the requests of a run: it has created the latch, and has not asked for its removal.
`latchMachine` is the file that all runs share; a creation or a removal that raises may have happened.

## What is proved

* `restore_runs` — what a restoration that returns has seen.
* `run_allowed` — **a run writes, and lets go, only where it may**.
* `latch_exclusive` — **at most one run owns the latch, and it is there**.
* `contamination_latch` — the whole, where no ready Deployment that is observed is another one than the
  captured.
* `replaced_latch_released` — without that the latch goes over a Deployment that was replaced.
-/

namespace PayOps.Scenarios.LocalScenarioRunner

open Process Program Json

/-! ### Who owns the latch -/

/-- The run has created the latch, and has not asked for its removal. -/
def Owns (h : History Sandbox) : Prop :=
  (⟨.createLatch, .ok ()⟩ : Event Sandbox) ∈ h ∧ ∀ ev ∈ h, ev.effect ≠ .unlinkLatch

theorem Owns.snoc {h : History Sandbox} {ev : Event Sandbox} (hh : Owns h) (hev : ev.effect ≠ .unlinkLatch) :
    Owns (h ++ [ev]) := by
  refine ⟨List.mem_append_left _ hh.1, fun ev' hev' => ?_⟩
  rcases List.mem_append.mp hev' with hold | hnew
  · exact hh.2 ev' hold
  · rwa [List.mem_singleton.mp hnew]

theorem Owns.before {h : History Sandbox} {ev : Event Sandbox} (hh : Owns (h ++ [ev])) :
    ev.effect ≠ .unlinkLatch ∧ (Owns h ∨ ev = ⟨.createLatch, .ok ()⟩) := by
  have hkeeps : ∀ ev ∈ h, ev.effect ≠ .unlinkLatch := fun ev hev => hh.2 ev (List.mem_append_left _ hev)
  refine ⟨hh.2 ev (by simp), ?_⟩
  rcases List.mem_append.mp hh.1 with hold | hnew
  · exact .inl ⟨hold, hkeeps⟩
  · exact .inr (List.mem_singleton.mp hnew).symm

/-- A request that neither writes to the cluster nor touches the latch. -/
def Plain : SandboxEffect → Prop
  | .replaceSpec _ _ _ => False
  | .createLatch => False
  | .writeLatch => False
  | .unlinkLatch => False
  | _ => True

/-- The file that all runs share: whether it exists. -/
def latchMachine : Machine Sandbox Bool where
  answer s e r s' :=
    match e, r with
    | .latchExists, .ok found => found = s ∧ s' = s
    | .createLatch, .ok () => s = false ∧ s' = true
    | .createLatch, .error _ => s' = s ∨ s' = true
    | .writeLatch, _ => s' = s ∨ s' = true
    | .unlinkLatch, .ok () => s = true ∧ s' = false
    | .unlinkLatch, .error _ => s' = s ∨ s' = false
    | _, _ => s' = s

theorem latchMachine_plain {s s' : Bool} {e : SandboxEffect} {r : Except Raised e.Reply} (he : Plain e)
    (ha : latchMachine.answer s e r s') : s' = s := by
  cases e <;> cases r <;> first | exact he.elim | exact ha | exact ha.2

/-! ### Runs of a wait -/

/-- A wait that returns has seen what it waited for. -/
theorem poll_runs {name : String} {collect : Program Sandbox JsonObject}
    {accept : JsonObject → Program Sandbox Bool} {deadline : ℚ} {left : ℕ} {g : History Sandbox}
    {observed : JsonObject} (hruns : Runs (poll name collect accept deadline left) g (.ok observed)) :
    ∃ g₀ g₁ g₂, g = g₀ ++ g₁ ++ ⟨.save name, .ok ()⟩ :: g₂ ∧ Runs collect g₁ (.ok observed) ∧
      Runs (accept observed) g₂ (.ok true) := by
  induction left generalizing g with
  | zero => cases (runs_fail.mp hruns).2
  | succ left ih =>
    obtain ⟨found, g₁, g', rfl, hcollect, h₁⟩ := runs_bind_ok.mp hruns
    obtain ⟨_, g'', rfl, h₂⟩ := runs_perform_bind_ok.mp h₁
    obtain ⟨accepted, g₂, g₃, rfl, haccept, h₃⟩ := runs_bind_ok.mp h₂
    split at h₃
    · rename_i hyes
      obtain ⟨rfl, hfound⟩ := runs_done.mp h₃
      obtain rfl := Except.ok.inj hfound
      refine ⟨[], g₁, g₂, by simp, hcollect, ?_⟩
      rwa [hyes] at haccept
    · obtain ⟨now, g₄, rfl, h₄⟩ := runs_perform_bind_ok.mp h₃
      split at h₄
      · cases (runs_fail.mp h₄).2
      · obtain ⟨_, g₅, rfl, h₅⟩ := runs_perform_bind_ok.mp h₄
        obtain ⟨g₀, g₁', g₂', rfl, hcollect', haccept'⟩ := ih h₅
        exact ⟨g₁ ++ ⟨.save name, .ok ()⟩ :: (g₂ ++ ⟨.monotonic, .ok now⟩ :: ⟨.sleep, .ok ()⟩ :: g₀), g₁', g₂',
          by simp, hcollect', haccept'⟩

variable [Numerals] [Recipes] {R : LocalScenarioRunner} {caseId : CaseId}

omit [Recipes] in
theorem waitReady_runs {name : String} {spec : JsonObject} {g : History Sandbox} {observed : JsonObject}
    (hruns : Runs (R.waitReady caseId name spec) g (.ok observed)) :
    ∃ g₀, g = g₀ ++ [⟨.observe (target caseId), .ok observed⟩, ⟨.save name, .ok ()⟩] ∧
      observedReady spec observed = .ok true := by
  obtain ⟨now, g', rfl, hrest⟩ := runs_perform_bind_ok.mp hruns
  obtain ⟨g₀, g₁, g₂, rfl, hcollect, haccept⟩ := poll_runs hrest
  obtain ⟨rfl, hready⟩ := runs_ofResult.mp haccept
  obtain rfl := runs_perform.mp hcollect
  exact ⟨⟨.monotonic, .ok now⟩ :: g₀, by simp, hready.symm⟩

theorem waitHealthy_runs {name : String} {g : History Sandbox} {observed : JsonObject}
    (hruns : Runs (R.waitHealthy name) g (.ok observed)) :
    ∃ g₀, g = g₀ ++ [⟨.healthy, .ok observed⟩, ⟨.save name, .ok ()⟩] ∧ sampleHealthy observed = .ok true := by
  obtain ⟨now, g', rfl, hrest⟩ := runs_perform_bind_ok.mp hruns
  obtain ⟨g₀, g₁, g₂, rfl, hcollect, haccept⟩ := poll_runs hrest
  obtain ⟨rfl, hhealthy⟩ := runs_ofResult.mp haccept
  obtain rfl := runs_perform.mp hcollect
  exact ⟨⟨.monotonic, .ok now⟩ :: g₀, by simp, hhealthy.symm⟩

/-! ### The restoration -/

/-- The two documents are of the same Deployment. -/
def SameUid (document original : JsonObject) : Prop :=
  ∃ uid captured, uidOf document = .ok uid ∧ uidOf original = .ok captured ∧ pythonEqual uid captured = true

/-- The Deployment observed is ready with the specification that was captured. -/
def ReadyOriginal (plan : Plan) (observed document : JsonObject) : Prop :=
  ∃ spec, objectMember plan.original "spec" = .ok spec ∧ objectMember observed "deployment" = .ok document ∧
    deploymentReady document spec = .ok true

/-- In `g` the Deployment was found with the captured identity, then observed to be ready with the captured
specification, and then a sample was healthy. `here` is what else is known of the document observed. -/
def Restored (caseId : CaseId) (plan : Plan) (here : JsonObject → Prop) (g : History Sandbox) : Prop :=
  ∃ current w₁ observed document w₂ sample,
    g = ⟨.deployment (target caseId), .ok current⟩ :: w₁ ++
      [⟨.observe (target caseId), .ok observed⟩, ⟨.save "restored", .ok ()⟩] ++ w₂ ++
      [⟨.healthy, .ok sample⟩, ⟨.save "healthy-after", .ok ()⟩] ∧
    SameUid current plan.original ∧ ReadyOriginal plan observed document ∧ here document ∧
    sampleHealthy sample = .ok true

/-- **What a restoration that returns has seen.** -/
theorem restore_runs {plan : Plan} {g : History Sandbox} (hruns : Runs (R.restore caseId plan) g (.ok ())) :
    Restored caseId plan (fun _ => True) g := by
  obtain ⟨current, g₁, rfl, h₁⟩ := runs_perform_bind_ok.mp hruns
  obtain ⟨currentSpec, -, h₂⟩ := runs_ofResult_bind_ok.mp h₁
  obtain ⟨spec, hspec, h₃⟩ := runs_ofResult_bind_ok.mp h₂
  obtain ⟨uid, huid, h₄⟩ := runs_ofResult_bind_ok.mp h₃
  obtain ⟨captured, hcaptured, h₅⟩ := runs_ofResult_bind_ok.mp h₄
  obtain ⟨hsame, h₆⟩ := runs_raiseIf_bind_ok.mp h₅
  obtain ⟨_, w, g₂, rfl, -, h₇⟩ := runs_bind_ok.mp h₆
  obtain ⟨observed, w', g₃, rfl, hready, h₈⟩ := runs_bind_ok.mp h₇
  obtain ⟨sample, w'', g₄, rfl, hhealthy, h₉⟩ := runs_bind_ok.mp h₈
  obtain ⟨rfl, -⟩ := runs_done.mp h₉
  obtain ⟨w₁, rfl, hobserved⟩ := waitReady_runs hready
  obtain ⟨w₂, rfl, haccepted⟩ := waitHealthy_runs hhealthy
  obtain ⟨document, hdocument, hdeployment⟩ := bind_eq_ok.mp hobserved
  exact ⟨current, w ++ w₁, observed, document, w₂, sample, by simp,
    ⟨uid, captured, huid, hcaptured, by simpa using hsame⟩, ⟨spec, hspec, hdocument, hdeployment⟩, trivial,
    haccepted⟩

/-- The specification read is one that the run may have written. -/
def Known (plan : Plan) (found : JsonObject) : Prop :=
  pythonEqual (.obj found) (.obj plan.injected) = true ∨
    ∃ spec ∈ plan.intermediate, pythonEqual (.obj found) (.obj spec) = true

/-- The captured specification is written over the captured Deployment, with a specification that is known. -/
def Restores (plan : Plan) (current spec : JsonObject) : Prop :=
  SameUid current plan.original ∧ objectMember plan.original "spec" = .ok spec ∧
    ∃ found, objectMember current "spec" = .ok found ∧ Known plan found

/-! ### What a run may do -/

/-- The run came to its restoration, with this plan. -/
def AtFinish (R : LocalScenarioRunner) (caseId : CaseId) (h : History Sandbox) (plan : Plan) : Prop :=
  ∃ runId s p b, h = s ++ p ++ b ∧ Runs start s (.ok runId) ∧
    Runs (R.capture caseId) p (.ok (plan.original, plan.injected)) ∧
    ((∃ x, LocalScenarioRunner.controlSpec caseId plan.original = .error x ∧ plan.intermediate = none ∧ b = []) ∨
      LocalScenarioRunner.controlSpec caseId plan.original = .ok plan.intermediate ∧
        ∃ outcome, Runs (R.fault caseId plan) b outcome)

/-- The intent of the next write was just saved. -/
def Planned (h : History Sandbox) : Prop :=
  (∃ g now, h = g ++ [⟨.save "injection-plan", .ok ()⟩, ⟨.utcNow, .ok now⟩]) ∨
    ∃ g, h = g ++ [⟨.save "mutation-journal", .ok ()⟩]

/-- The latch may go: nothing was written, or the restoration is verified and the receipt saved. -/
def Releasable (R : LocalScenarioRunner) (caseId : CaseId) (here : Plan → JsonObject → Prop)
    (h : History Sandbox) : Prop :=
  (∀ ev ∈ h, ∀ name expected spec, ev.effect ≠ .replaceSpec name expected spec) ∨
    ∃ plan h₁ g, h = h₁ ++ g ++ [⟨.saveReceipt, .ok ()⟩] ∧ AtFinish R caseId h₁ plan ∧
      Restored caseId plan (here plan) g

/-- What a run may do: it writes only while it owns the latch, forward only what it has planned, and back
only over what it knows; and it lets go only of its own latch, with everything restored. -/
def Allowed (R : LocalScenarioRunner) (caseId : CaseId) (h : History Sandbox) (ev : Event Sandbox) : Prop :=
  match ev.effect with
  | .replaceSpec name expected spec => Owns h ∧ (Planned h ∨ ∃ plan h₁,
      h = h₁ ++ [⟨.deployment name, .ok expected⟩] ∧ AtFinish R caseId h₁ plan ∧ Restores plan expected spec)
  | .writeLatch => Owns h
  | .unlinkLatch => Owns h ∧ Releasable R caseId (fun _ _ => True) h
  | _ => True

theorem Plain.allowed {h : History Sandbox} {ev : Event Sandbox} (hev : Plain ev.effect) :
    Allowed R caseId h ev := by
  obtain ⟨e, r⟩ := ev
  cases e <;> trivial

/-- What is plain keeps the latch. -/
theorem within_follows {α : Type} {p : Program Sandbox α} {h : History Sandbox} (hp : Within Plain p)
    (hh : Owns h) : Follows (Allowed R caseId) p h fun _ h' => Owns h' := by
  refine Follows.within (R := Owns) hp hh fun h ev hown hev => ⟨Plain.allowed hev, hown.snoc ?_⟩
  intro heq
  rw [heq] at hev
  exact hev

/-! ### What is plain -/

omit [Numerals] [Recipes] in
theorem within_wait {name : String} {collect : Program Sandbox JsonObject}
    {accept : JsonObject → Program Sandbox Bool} (hcollect : Within Plain collect)
    (haccept : ∀ observed, Within Plain (accept observed)) : Within Plain (R.wait name collect accept) := by
  have hpoll : ∀ deadline left, Within Plain (poll name collect accept deadline left) := by
    intro deadline left
    induction left with
    | zero => trivial
    | succ left ih =>
      refine hcollect.bind fun observed => Within.bind (within_perform.mpr trivial) fun _ =>
        (haccept observed).bind fun accepted => ?_
      split
      · trivial
      · refine Within.bind (within_perform.mpr trivial) fun now => ?_
        split
        · trivial
        · exact Within.bind (within_perform.mpr trivial) fun _ => ih
  exact Within.bind (within_perform.mpr trivial) fun now => hpoll _ _

omit [Recipes] in
theorem within_waitReady {name : String} {spec : JsonObject} : Within Plain (R.waitReady caseId name spec) :=
  within_wait (within_perform.mpr trivial) fun _ => within_ofResult _

theorem within_waitHealthy {name : String} : Within Plain (R.waitHealthy name) :=
  within_wait (within_perform.mpr trivial) fun _ => within_ofResult _

theorem within_capture : Within Plain (R.capture caseId) := by
  have hbaseline : Within Plain (R.baseline caseId) := by
    refine Within.bind (within_perform.mpr trivial) fun _ => Within.bind (within_perform.mpr trivial) fun _ =>
      Within.bind (within_perform.mpr trivial) fun original => Within.bind (within_ofResult _) fun spec =>
        Within.bind (within_perform.mpr trivial) fun _ => ?_
    exact within_waitReady.bind fun _ => within_waitHealthy.bind fun _ => trivial
  exact hbaseline.bind fun original => Within.bind (within_ofResult _) fun spec =>
    Within.bind (within_ofResult _) fun injected => trivial

theorem within_controlObservation {original control : JsonObject} {requestedAt : ℤ} :
    Within Plain (LocalScenarioRunner.controlObservation original control requestedAt) := by
  refine Within.bind (within_perform.mpr trivial) fun observed => Within.bind (within_perform.mpr trivial) fun now =>
    Within.bind (within_ofResult _) fun owned => ?_
  split
  · trivial
  refine Within.bind (within_ofResult _) fun pods => ?_
  split
  · trivial
  refine Within.bind (within_ofResult _) fun ready => ?_
  split
  · trivial
  refine Within.bind (within_perform.mpr trivial) fun now => Within.bind (within_ofResult _) fun holding => ?_
  split
  · exact Within.bind (within_perform.mpr trivial) fun sample => trivial
  · trivial

theorem within_controlAccepted {observed : JsonObject} :
    Within Plain (LocalScenarioRunner.controlAccepted observed) := by
  refine Within.bind (within_perform.mpr trivial) fun now => Within.bind (within_ofResult _) fun holding => ?_
  split
  · exact within_ofResult _
  · trivial

theorem within_activated {original injected : JsonObject} {requestedAt : ℤ} {controlUids : List String} :
    Within Plain (R.activated caseId original injected requestedAt controlUids) := by
  unfold LocalScenarioRunner.activated
  split
  · have haccept : ∀ observed, Within Plain (do
        let now ← ask .utcNow
        ofResult (Recipes.faultActivated observed original injected requestedAt controlUids now)) :=
      fun observed => Within.bind (within_perform.mpr trivial) fun now => within_ofResult _
    exact (within_wait (within_perform.mpr trivial) haccept).bind fun _ => trivial
  split
  · exact within_waitReady.bind fun _ => Within.bind (within_perform.mpr trivial) fun observed =>
      Within.bind (within_perform.mpr trivial) fun _ => Within.bind (within_ofResult _) fun active => within_raiseIf
  · refine (within_wait ?_ fun _ => within_ofResult _).bind fun _ => trivial
    refine Within.bind (within_perform.mpr trivial) fun observed => ?_
    split
    · exact Within.bind (within_perform.mpr trivial) fun sample => trivial
    · trivial

omit [Numerals] [Recipes] in
theorem within_investigate {callback : Bool} : Within Plain (investigate callback) := by
  unfold investigate
  split
  · exact within_perform.mpr trivial
  · trivial

/-! ### The run -/

omit [Numerals] [Recipes] in
/-- A request that is not the removal keeps the latch. -/
theorem Owns.next {h : History Sandbox} {e : SandboxEffect} {r : Except Raised e.Reply} (hh : Owns h)
    (he : e ≠ .unlinkLatch := by intro heq; cases heq) : Owns (h ++ [⟨e, r⟩]) := hh.snoc he

/-- The way forward writes only what it has planned, and keeps the latch. -/
theorem fault_follows {plan : Plan} {h : History Sandbox} (hh : Owns h) :
    Follows (Allowed R caseId) (R.fault caseId plan) h fun _ h' => Owns h' := by
  have hcontrol : Follows (Allowed R caseId) (R.control plan) h fun _ h' => Owns h' := by
    unfold LocalScenarioRunner.control
    split
    · rename_i spec _
      refine follows_perform_bind.mpr fun r₁ => ⟨trivial, fun _ _ => hh.next, fun requestedAt _ => ?_⟩
      have h₁ := hh.next (e := .utcNow) (r := r₁)
      refine follows_ofResult_bind.mpr ⟨fun _ _ => h₁, fun captured _ => ?_⟩
      refine follows_ofResult_bind.mpr ⟨fun _ _ => h₁, fun _ _ => ?_⟩
      refine follows_perform_bind.mpr fun r₂ => ⟨trivial, fun _ _ => h₁.next, ?_⟩
      rintro _ rfl
      have h₂ := h₁.next (e := .save "mutation-journal") (r := .ok ())
      refine follows_perform_bind.mpr fun r₃ => ⟨⟨h₂, .inl (.inr ⟨_, rfl⟩)⟩, fun _ _ => h₂.next, fun _ _ => ?_⟩
      refine within_follows ?_ h₂.next
      exact (within_wait within_controlObservation fun _ => within_controlAccepted).bind fun observed =>
        Within.bind (within_ofResult _) fun current => Within.bind (within_ofResult _) fun uid =>
          within_raiseIf.bind fun _ => Within.bind (within_ofResult _) fun uids => trivial
    · exact hh
  have hinject : ∀ {h : History Sandbox} (expected : JsonObject × List String), Owns h →
      Follows (Allowed R caseId) (R.inject caseId expected.1 plan.injected expected.2) h fun _ h' => Owns h' := by
    intro h expected hh
    refine follows_perform_bind.mpr fun r₁ => ⟨trivial, fun _ _ => hh.next, ?_⟩
    rintro _ rfl
    have h₁ := hh.next (e := .save "injection-plan") (r := .ok ())
    refine follows_perform_bind.mpr fun r₂ => ⟨trivial, fun _ _ => h₁.next, ?_⟩
    rintro now rfl
    have h₂ := h₁.next (e := .utcNow) (r := .ok now)
    have hreplace : Follows (Allowed R caseId)
        (LocalScenarioRunner.replaceFault caseId expected.1 plan.injected)
        (h ++ [⟨.save "injection-plan", .ok ()⟩] ++ [⟨.utcNow, .ok now⟩]) fun _ h' => Owns h' := by
      refine follows_ofResult_bind.mpr ⟨fun _ _ => h₂, fun spec _ => ?_⟩
      split
      · exact h₂
      · exact follows_perform.mpr fun r₃ => ⟨⟨h₂, .inl (.inl ⟨h, now, by simp⟩)⟩, h₂.next⟩
    refine follows_bind.mpr (hreplace.mono ?_)
    rintro (x | _) h₃ hown
    · exact hown
    · exact within_follows within_activated hown
  refine follows_bind.mpr (hcontrol.mono ?_)
  rintro (x | expected) h₁ h₁own
  · exact h₁own
  refine follows_bind.mpr ((hinject expected h₁own).mono ?_)
  rintro (x | _) h₂ h₂own
  · exact h₂own
  exact within_follows within_investigate h₂own

/-- **A restoration writes only over what it knows**, and keeps the latch. -/
theorem restore_follows {plan : Plan} {h : History Sandbox} (hat : AtFinish R caseId h plan) (hh : Owns h) :
    Follows (Allowed R caseId) (R.restore caseId plan) h fun _ h' => Owns h' := by
  refine follows_perform_bind.mpr fun r₁ => ⟨trivial, fun _ _ => hh.next, ?_⟩
  rintro current rfl
  have h₁ := hh.next (e := .deployment (target caseId)) (r := .ok current)
  refine follows_ofResult_bind.mpr ⟨fun _ _ => h₁, fun found hfound => ?_⟩
  refine follows_ofResult_bind.mpr ⟨fun _ _ => h₁, fun spec hspec => ?_⟩
  refine follows_ofResult_bind.mpr ⟨fun _ _ => h₁, fun uid huid => ?_⟩
  refine follows_ofResult_bind.mpr ⟨fun _ _ => h₁, fun captured hcaptured => ?_⟩
  refine follows_raiseIf_bind.mpr ⟨fun _ => h₁, fun hsame => ?_⟩
  have hidentity : SameUid current plan.original := ⟨uid, captured, huid, hcaptured, by simpa using hsame⟩
  have hreplace : Follows (Allowed R caseId) (LocalScenarioRunner.replaceOriginal caseId plan current found spec)
      (h ++ [⟨.deployment (target caseId), .ok current⟩]) fun _ h' => Owns h' := by
    unfold LocalScenarioRunner.replaceOriginal
    split
    · exact h₁
    · refine follows_raiseIf_bind.mpr ⟨fun _ => h₁, fun hunknown => follows_perform.mpr fun r₂ => ⟨⟨h₁, .inr ?_⟩,
        h₁.next⟩⟩
      refine ⟨plan, h, rfl, hat, hidentity, hspec, found, hfound, ?_⟩
      by_cases hinjected : pythonEqual (.obj found) (.obj plan.injected) = true
      · exact .inl hinjected
      · obtain ⟨control, hcontrol⟩ := not_forall.mp (not_and.mp hunknown (by simpa using hinjected))
        obtain ⟨hmem, hequal⟩ := Classical.not_imp.mp hcontrol
        exact .inr ⟨control, hmem, by simpa using hequal⟩
  refine follows_bind.mpr (hreplace.mono ?_)
  rintro (x | _) h₂ h₂own
  · exact h₂own
  · exact within_follows (within_waitReady.bind fun _ => within_waitHealthy.bind fun _ => trivial) h₂own

/-- The restoration is verified only where it was seen. -/
theorem recover_follows {plan : Plan} {h : History Sandbox} (hat : AtFinish R caseId h plan) (hh : Owns h) :
    Follows (Allowed R caseId) (R.recover caseId plan) h fun r h' => ∀ verified, r = .ok verified →
      Owns h' ∧ (verified = true → ∃ g, h' = h ++ g ∧ Restored caseId plan (fun _ => True) g) := by
  refine follows_bind.mpr (follows_attempt.mpr ((restore_follows hat hh).and_runs.mono ?_))
  rintro (x | ⟨⟨⟩⟩) h₁ ⟨h₁own, g, rfl, hruns⟩
  · simp only
    split
    · refine follows_perform_bind.mpr fun r => ⟨h₁own, fun _ _ => nofun, fun _ _ => ?_⟩
      rintro verified ⟨⟩
      exact ⟨h₁own.next, nofun⟩
    · exact nofun
  · rintro verified ⟨⟩
    exact ⟨h₁own, fun _ => ⟨g, rfl, restore_runs hruns⟩⟩

/-- The receipt comes before the latch goes. -/
theorem complete_follows {verified : Bool} {h : History Sandbox} (hh : Owns h)
    (hrelease : verified = true → Releasable R caseId (fun _ _ => True) (h ++ [⟨.saveReceipt, .ok ()⟩])) :
    Follows (Allowed R caseId) (LocalScenarioRunner.complete verified) h fun _ _ => True := by
  refine follows_perform_bind.mpr fun r => ⟨trivial, fun _ _ => trivial, ?_⟩
  rintro _ rfl
  split
  · rename_i hverified
    exact follows_perform.mpr fun _ => ⟨⟨hh.next, hrelease hverified⟩, trivial⟩
  · trivial

theorem finish_follows {plan : Plan} {h : History Sandbox} (hat : AtFinish R caseId h plan) (hh : Owns h) :
    Follows (Allowed R caseId) (R.finish caseId plan) h fun _ _ => True := by
  refine follows_bind.mpr ((recover_follows hat hh).mono ?_)
  rintro (x | verified) h₁ hpost
  · trivial
  · obtain ⟨h₁own, hverified⟩ := hpost verified rfl
    refine complete_follows h₁own fun hyes => ?_
    obtain ⟨g, rfl, hrestored⟩ := hverified hyes
    exact .inr ⟨plan, h, g, rfl, hat, hrestored⟩

omit [Numerals] [Recipes] in
theorem reraise_follows {G : History Sandbox → Event Sandbox → Prop} {outcome : Except Raised Unit}
    {h : History Sandbox} : Follows G (reraise outcome) h fun _ _ => True := by
  unfold reraise
  split
  · trivial
  · split <;> trivial

/-- No specification was written. -/
def Unwritten (h : History Sandbox) : Prop :=
  ∀ ev ∈ h, ∀ name expected spec, ev.effect ≠ .replaceSpec name expected spec

omit [Numerals] [Recipes] in
theorem Unwritten.append {h g : History Sandbox} (hh : Unwritten h) (hg : Unwritten g) :
    Unwritten (h ++ g) := by
  intro ev hev
  rcases List.mem_append.mp hev with hfirst | hsecond
  · exact hh ev hfirst
  · exact hg ev hsecond

omit [Numerals] [Recipes] in
theorem Plain.unwritten {h : History Sandbox} (hh : ∀ ev ∈ h, Plain ev.effect) : Unwritten h := by
  intro ev hev name expected spec heq
  have := hh ev hev
  rw [heq] at this
  exact this

omit [Numerals] [Recipes] in
/-- What a start asks for. -/
theorem start_runs {s : History Sandbox} {runId : String} (hruns : Runs start s (.ok runId)) :
    s = [⟨.latchExists, .ok false⟩, ⟨.newRunId, .ok runId⟩, ⟨.createLatch, .ok ()⟩,
      ⟨.mkdir runId, .ok ()⟩] := by
  obtain ⟨found, s₁, rfl, h₁⟩ := runs_perform_bind_ok.mp hruns
  cases found with
  | true => cases (runs_fail.mp h₁).2
  | false =>
    obtain ⟨name, s₂, rfl, h₂⟩ := runs_perform_bind_ok.mp h₁
    obtain ⟨_, s₃, s₄, rfl, h₃, h₄⟩ := runs_bind_ok.mp h₂
    obtain ⟨created, s₅, s₆, rfl, h₅, h₆⟩ := runs_bind_ok.mp h₃
    obtain ⟨outcome, hcreated, hcreate⟩ := runs_attempt.mp h₅
    cases hcreated
    obtain rfl := runs_perform.mp hcreate
    cases created with
    | error x => cases (runs_fail.mp h₆).2
    | ok u =>
      obtain ⟨rfl, -⟩ := runs_done.mp h₆
      obtain ⟨_, s₇, rfl, h₇⟩ := runs_perform_bind_ok.mp h₄
      obtain ⟨rfl, hname⟩ := runs_done.mp h₇
      cases hname
      rfl

omit [Numerals] [Recipes] in
theorem start_owns {s : History Sandbox} {runId : String} (hruns : Runs start s (.ok runId)) :
    Owns s ∧ Unwritten s := by
  rw [start_runs hruns]
  refine ⟨⟨by simp, ?_⟩, ?_⟩
  · intro ev hev
    simp only [List.mem_cons, List.not_mem_nil, or_false] at hev
    rcases hev with rfl | rfl | rfl | rfl <;> nofun
  · intro ev hev
    simp only [List.mem_cons, List.not_mem_nil, or_false] at hev
    rcases hev with rfl | rfl | rfl | rfl <;> nofun

theorem runPlan_follows {runId : String} {s p : History Sandbox} {original injected : JsonObject}
    (hstart : Runs start s (.ok runId)) (hcapture : Runs (R.capture caseId) p (.ok (original, injected)))
    (hh : Owns (s ++ p)) :
    Follows (Allowed R caseId) (R.runPlan caseId original injected) (s ++ p) fun _ _ => True := by
  unfold LocalScenarioRunner.runPlan
  split
  · rename_i x hcontrol
    have hat : AtFinish R caseId (s ++ p) ⟨original, injected, none⟩ :=
      ⟨runId, s, p, [], by simp, hstart, hcapture, .inl ⟨x, hcontrol, rfl, rfl⟩⟩
    refine follows_bind.mpr ((finish_follows hat hh).mono ?_)
    rintro (y | _) h' -
    · trivial
    · exact reraise_follows
  · rename_i intermediate hcontrol
    refine follows_bind.mpr (follows_attempt.mpr ((fault_follows hh).and_runs.mono ?_))
    rintro outcome h₁ ⟨h₁own, b, rfl, hfault⟩
    have hat : AtFinish R caseId (s ++ p ++ b) ⟨original, injected, intermediate⟩ :=
      ⟨runId, s, p, b, rfl, hstart, hcapture, .inr ⟨hcontrol, outcome, hfault⟩⟩
    refine follows_bind.mpr ((finish_follows hat h₁own).mono ?_)
    rintro (y | _) h' -
    · trivial
    · exact reraise_follows

/-- **A run writes, and lets go, only where it may.** -/
theorem run_allowed (R : LocalScenarioRunner) (caseId : CaseId) :
    Follows (Allowed R caseId) (R.run caseId) [] fun _ _ => True := by
  have hstart : Follows (Allowed R caseId) start [] fun _ _ => True := by
    have hquiet : Within (fun e : SandboxEffect => Plain e ∨ e = .createLatch) start := by
      refine Within.bind (within_perform.mpr (.inl trivial)) fun found => ?_
      split
      · trivial
      · refine Within.bind (within_perform.mpr (.inl trivial)) fun runId => Within.bind ?_ fun _ =>
          Within.bind (within_perform.mpr (.inl trivial)) fun _ => trivial
        refine Within.bind (within_attempt.mpr (within_perform.mpr (.inr rfl))) fun r => ?_
        cases r <;> trivial
    refine Follows.within (R := fun _ => True) hquiet trivial fun h ev _ hev => ⟨?_, trivial⟩
    rcases hev with hplain | hcreate
    · exact hplain.allowed
    · obtain ⟨e, r⟩ := ev
      cases hcreate
      trivial
  unfold LocalScenarioRunner.run
  split
  · trivial
  refine follows_bind.mpr (hstart.and_runs.mono ?_)
  rintro (x | runId) s ⟨-, s, rfl, hruns⟩
  · trivial
  obtain ⟨hown, hunwritten⟩ := start_owns hruns
  refine follows_bind.mpr (follows_attempt.mpr ((within_follows within_capture hown).and_runs.mono ?_))
  rintro (x | captured) h₁ ⟨h₁own, p, rfl, hcapture⟩
  · refine follows_bind.mpr ((complete_follows h₁own fun _ => .inl ?_).mono ?_)
    · refine (hunwritten.append (Plain.unwritten (within_capture.path hcapture).1)).append ?_
      intro ev hev
      rw [List.mem_singleton.mp hev]
      nofun
    · rintro (y | _) h' -
      · trivial
      · exact reraise_follows
  · exact runPlan_follows hruns hcapture h₁own

/-! ### The runs that share the latch -/

/-- The runs that share the latch. -/
def SharedRun (p : Program Sandbox Unit) : Prop :=
  ∃ (R : LocalScenarioRunner) (caseId : CaseId), p = R.run caseId

/-- What an owner can rely on: the latch is there, and nobody else owns it. -/
def Exclusive (exists_ : Bool) (tr : Trace Sandbox) : Prop :=
  ∀ j, Owns (tr.own j) → exists_ = true ∧ ∀ i, Owns (tr.own i) → i = j

omit [Numerals] [Recipes] in
/-- A request that leaves the owners be, with the latch still there where it was. -/
theorem Exclusive.keep {s s' : Bool} {tr : Trace Sandbox} {i : ℕ} {ev : Event Sandbox} (hx : Exclusive s tr)
    (hev : ev ≠ ⟨.createLatch, .ok ()⟩) (hs : s = true → s' = true) : Exclusive s' (tr ++ [(i, ev)]) := by
  have howns : ∀ j, Owns (Trace.own (tr ++ [(i, ev)]) j) → Owns (tr.own j) := by
    intro j hj
    by_cases hij : i = j
    · subst hij
      rw [own_append_self] at hj
      exact hj.before.2.resolve_right hev
    · rwa [own_append_other tr hij] at hj
  intro j hj
  obtain ⟨hexists, hunique⟩ := hx j (howns j hj)
  exact ⟨hs hexists, fun k hk => hunique k (howns k hk)⟩

/-- **One step of the runs.** -/
theorem Exclusive.step {s s' : Bool} {tr : Trace Sandbox} {i : ℕ} {e : SandboxEffect}
    {r : Except Raised e.Reply} (hx : Exclusive s tr) (hallowed : Allowed R caseId (tr.own i) ⟨e, r⟩)
    (ha : latchMachine.answer s e r s') : Exclusive s' (tr ++ [(i, ⟨e, r⟩)]) := by
  by_cases hplain : Plain e
  · obtain rfl := latchMachine_plain hplain ha
    refine hx.keep (fun heq => ?_) id
    rw [show e = .createLatch from congrArg Event.effect heq] at hplain
    exact hplain
  cases e with
  | createLatch =>
    cases r with
    | error x =>
      refine hx.keep nofun fun hs => ?_
      rcases ha with hsame | hcreated
      · rw [hsame, hs]
      · exact hcreated
    | ok u =>
      -- There was no latch, so that there was no owner.
      obtain ⟨hnone, rfl⟩ := ha
      have honly : ∀ j, Owns (Trace.own (tr ++ [(i, ⟨.createLatch, .ok ()⟩)]) j) → j = i := by
        intro j hj
        by_contra hji
        rw [own_append_other tr (Ne.symm hji)] at hj
        rw [(hx j hj).1] at hnone
        cases hnone
      intro j hj
      obtain rfl := honly j hj
      exact ⟨rfl, honly⟩
  | unlinkLatch =>
    -- The one that lets go was the only owner.
    intro j hj
    by_cases hij : i = j
    · subst hij
      rw [own_append_self] at hj
      exact absurd rfl hj.before.1
    · rw [own_append_other tr hij] at hj
      exact absurd ((hx j hj).2 i hallowed.1) hij
  | writeLatch =>
    refine hx.keep nofun fun hs => ?_
    rcases ha with hsame | hwritten
    · rw [hsame, hs]
    · exact hwritten
  | replaceSpec name expected spec =>
    refine hx.keep nofun fun hs => ?_
    rw [show s' = s by cases r <;> exact ha, hs]
  | _ => exact absurd trivial hplain

/-- **At most one run owns the latch, and it is there**, however the runs interleave and wherever they
crash. -/
theorem latch_exclusive {s₀ : Bool} {c : Config Sandbox Bool Unit} (hc : Reachable latchMachine SharedRun s₀ c) :
    Exclusive c.shared c.trace := by
  refine hc.invariant Exclusive (fun j hj => absurd hj.1 (by simp)) ?_
  rintro s tr i p e r s' q hx ⟨R, caseId, rfl⟩ hpath ha
  have hallowed := (run_allowed R caseId).event hpath
  rw [List.nil_append] at hallowed
  exact hx.step hallowed ha

/-- Each ready Deployment with the captured specification that is observed once the run is to restore is the
captured one. -/
def Unreplaced (R : LocalScenarioRunner) (caseId : CaseId) (h : History Sandbox) : Prop :=
  ∀ plan h₁ g, h = h₁ ++ g → AtFinish R caseId h₁ plan → ∀ observed document,
    (⟨.observe (target caseId), .ok observed⟩ : Event Sandbox) ∈ g → ReadyOriginal plan observed document →
      SameUid document plan.original

theorem Releasable.unreplaced {h : History Sandbox} (hrel : Releasable R caseId (fun _ _ => True) h)
    (hh : Unreplaced R caseId h) :
    Releasable R caseId (fun plan document => SameUid document plan.original) h := by
  rcases hrel with hnone | ⟨plan, h₁, g, rfl, hat, hrestored⟩
  · exact .inl hnone
  · obtain ⟨current, w₁, observed, document, w₂, sample, rfl, hcurrent, hready, -, hhealthy⟩ := hrestored
    refine .inr ⟨plan, h₁, _, rfl, hat, current, w₁, observed, document, w₂, sample, rfl, hcurrent, hready, ?_,
      hhealthy⟩
    exact hh plan h₁ _ (List.append_assoc ..) hat observed document (by simp) hready

/-- **The contamination latch.** However runs interleave, raise and crash: a run that owns the latch is the
only one, and the latch is there; a run that is about to write owns it, and writes forward what it has
planned and back only over the captured Deployment with a specification of its own; and, where no ready
Deployment that is observed is another one than the captured, it lets go only where nothing was written or the
captured Deployment was observed to be restored before a healthy sample. -/
theorem contamination_latch :
    (∀ (s₀ : Bool) (c : Config Sandbox Bool Unit), Reachable latchMachine SharedRun s₀ c →
      (∀ j, Owns (c.trace.own j) → c.shared = true ∧ ∀ i, Owns (c.trace.own i) → i = j) ∧
      ∀ i p name expected spec k, c.calls[i]? = some ⟨p, .call (.replaceSpec name expected spec) k, true⟩ →
        Owns (c.trace.own i)) ∧
    ∀ (R : LocalScenarioRunner) (caseId : CaseId) (h : History Sandbox),
      (∀ name expected spec r q, Path (R.run caseId) (h ++ [⟨.replaceSpec name expected spec, r⟩]) q →
        Owns h ∧ (Planned h ∨ ∃ plan h₁, h = h₁ ++ [⟨.deployment name, .ok expected⟩] ∧
          AtFinish R caseId h₁ plan ∧ Restores plan expected spec)) ∧
      ∀ r q, Path (R.run caseId) (h ++ [⟨.unlinkLatch, r⟩]) q → Unreplaced R caseId h →
        Releasable R caseId (fun plan document => SameUid document plan.original) h := by
  refine ⟨fun s₀ c hc => ⟨latch_exclusive hc, fun i p name expected spec k hi => ?_⟩, fun R caseId h =>
    ⟨fun name expected spec r q hpath => ?_, fun r q hpath hh => ?_⟩⟩
  · have hw := hc.wellTraced
    obtain ⟨R, caseId, rfl⟩ := hw.start i _ hi
    have hpath := (hw.path i _ hi).trans (.step (r := .ok ()) .refl)
    simpa [Allowed] using ((run_allowed R caseId).event hpath).1
  · simpa [Allowed] using (run_allowed R caseId).event hpath
  · have hallowed := (run_allowed R caseId).event hpath
    rw [List.nil_append] at hallowed
    exact hallowed.2.unreplaced hh

/-! ### A Deployment that was replaced -/

theorem capture_runs {p : History Sandbox} {original injected : JsonObject}
    (hruns : Runs (R.capture caseId) p (.ok (original, injected))) :
    (⟨.deployment (target caseId), .ok original⟩ : Event Sandbox) ∈ p ∧
      ∃ observed, (⟨.observe (target caseId), .ok observed⟩ : Event Sandbox) ∈ p := by
  obtain ⟨found, p₁, p₂, rfl, hbaseline, h₁⟩ := runs_bind_ok.mp hruns
  obtain ⟨spec, -, h₂⟩ := runs_ofResult_bind_ok.mp h₁
  obtain ⟨fault, -, h₃⟩ := runs_ofResult_bind_ok.mp h₂
  obtain ⟨rfl, hpair⟩ := runs_done.mp h₃
  obtain ⟨rfl, -⟩ := Prod.mk.inj (Except.ok.inj hpair)
  obtain ⟨_, p₃, rfl, h₄⟩ := runs_perform_bind_ok.mp hbaseline
  obtain ⟨_, p₄, rfl, h₅⟩ := runs_perform_bind_ok.mp h₄
  obtain ⟨document, p₅, rfl, h₆⟩ := runs_perform_bind_ok.mp h₅
  obtain ⟨spec', -, h₇⟩ := runs_ofResult_bind_ok.mp h₆
  obtain ⟨_, p₆, rfl, h₈⟩ := runs_perform_bind_ok.mp h₇
  obtain ⟨observed, p₇, p₈, rfl, hready, h₉⟩ := runs_bind_ok.mp h₈
  obtain ⟨sample, p₉, p₁₀, rfl, -, h₁₀⟩ := runs_bind_ok.mp h₉
  obtain ⟨rfl, hfound⟩ := runs_done.mp h₁₀
  obtain rfl := Except.ok.inj hfound
  obtain ⟨w, rfl, -⟩ := waitReady_runs hready
  exact ⟨by simp, observed, by simp⟩

end PayOps.Scenarios.LocalScenarioRunner

namespace PayOps.Scenarios.LocalScenarioRunner

open Process Program Json

/-- No floats. -/
@[reducible] def noFloats : Numerals := ⟨fun _ => none⟩

/-- The specification of the sandbox with some replicas. -/
def sandboxSpec (replicas : ℤ) : JsonObject :=
  [("replicas", .int replicas), ("template", .obj [("spec", .obj [("containers",
    .arr [.obj [("name", .str "sandbox"), ("image", .str "payops-sandbox:local")]])])])]

/-- A processor Deployment with some identity, replicas and status. -/
def processorDeployment (uid : String) (replicas : ℤ) (status : JsonObject) : JsonObject :=
  [("metadata", .obj [("name", .str "processor-adapter"), ("namespace", .str "payops-sandbox"),
      ("uid", .str uid), ("generation", .int 1), ("labels", .obj [("app.kubernetes.io/part-of", .str "payops")])]),
    ("spec", .obj (sandboxSpec replicas)), ("status", .obj status)]

/-- The status of one replica that is there. -/
def converged : JsonObject :=
  [("observedGeneration", .int 1), ("replicas", .int 1), ("updatedReplicas", .int 1), ("readyReplicas", .int 1),
    ("availableReplicas", .int 1)]

/-- The Deployment as it was captured, -/
def firstDeployment : JsonObject := processorDeployment "uid-1" 1 converged

/-- without replicas, -/
def faultyDeployment : JsonObject := processorDeployment "uid-1" 0 [("observedGeneration", .int 1)]

/-- and the one that was created again. -/
def secondDeployment : JsonObject := processorDeployment "uid-2" 1 converged

/-- What is observed of a Deployment. -/
def observationOf (document : JsonObject) : JsonObject := [("deployment", .obj document), ("pods", .arr [])]

/-- The recipes of a dependency outage, for the sandbox of the sample. -/
@[reducible] def outageRecipes : Recipes where
  validateBaseline document _ := objectMember document "spec"
  faultSpec _ spec := .ok (setField spec "replicas" (.int 0))
  memoryControlSpec _ := .error (valueError "memory control requires unchanged 256Mi baseline and image entrypoint")
  activation _ observed := .ok (@pythonEqual noFloats (getOr observed "sample_status" .null) (.int 503))
  faultActivated _ _ _ _ _ _ := .ok false
  controlHolding _ _ := .ok false
  currentPods _ _ _ _ _ := .ok 0
  acceptedPayment _ := .ok true
  str _ := ""

attribute [local instance] noFloats outageRecipes

/-- A runner without callback. -/
def sampleRunner : LocalScenarioRunner := ⟨90, false, 1⟩

/-- The sandbox, whose Deployment is deleted and created again after the restoration was written. Its state is
the number of writes. -/
def replacingSandbox : Handler Sandbox ℕ := fun e writes =>
  match e with
  | .latchExists => (.ok false, writes)
  | .createLatch => (.ok (), writes)
  | .writeLatch => (.ok (), writes)
  | .unlinkLatch => (.ok (), writes)
  | .newRunId => (.ok "run-1", writes)
  | .mkdir _ => (.ok (), writes)
  | .save _ => (.ok (), writes)
  | .saveReceipt => (.ok (), writes)
  | .verifyScope => (.ok [], writes)
  | .deployment _ => (.ok (if writes = 0 then firstDeployment else faultyDeployment), writes)
  | .replaceSpec _ _ _ => (.ok (), writes + 1)
  | .observe _ => (.ok (observationOf (if writes = 0 then firstDeployment else if writes = 1 then faultyDeployment
      else secondDeployment)), writes)
  | .healthy => (.ok [("sample_status", .int (if writes = 1 then 503 else 200))], writes)
  | .state => (.ok [], writes)
  | .collectMemory => (.ok [], writes)
  | .collectPackage => (.ok [], writes)
  | .collectProtocol _ _ _ => (.error (valueError "no protocol"), writes)
  | .investigate => (.ok (), writes)
  | .monotonic => (.ok 0, writes)
  | .sleep => (.ok (), writes)
  | .clock => (.ok 0, writes)
  | .utcNow => (.ok 0, writes)
  | .verifyProtocol _ _ => (.ok (), writes)

/-- What the run did. -/
def replacedRun : Ran Sandbox ℕ Unit := (sampleRunner.run .dep01).run replacingSandbox 0

/-- What it did before it removed the latch. -/
def replacedHistory : History Sandbox := replacedRun.events.dropLast

/-- The Deployment that was read. -/
def deploymentRead : Event Sandbox → Option JsonObject
  | ⟨.deployment _, .ok document⟩ => some document
  | _ => none

/-- What was observed. -/
def observation : Event Sandbox → Option JsonObject
  | ⟨.observe _, .ok observed⟩ => some observed
  | _ => none

/-- Whether a specification was written. -/
def writesSpec : Event Sandbox → Bool
  | ⟨.replaceSpec _ _ _, _⟩ => true
  | _ => false

/-- Of two lists that are one, what comes after something is not the first. -/
theorem mem_tail_of_append {α : Type} {a x : α} {l l₁ l₂ : List α} (h : l₁ ++ x :: l₂ = a :: l)
    (hne : l₁ ≠ []) : x ∈ l := by
  cases l₁ with
  | nil => exact absurd rfl hne
  | cons y ys =>
    obtain ⟨-, htail⟩ := List.cons.inj h
    rw [← htail]
    simp

/-- **The latch goes over a Deployment that was replaced**: the run of a dependency outage reads the captured
Deployment, restores it, and observes another one with the captured specification. -/
theorem replaced_latch_released : ∃ h q, Path (sampleRunner.run .dep01) (h ++ [⟨.unlinkLatch, .ok ()⟩]) q ∧
    ¬Releasable sampleRunner .dep01 (fun plan document => SameUid document plan.original) h := by
  have hlast : replacedRun.events = replacedHistory ++ [⟨.unlinkLatch, .ok ()⟩] := by rfl
  have hpath := (Program.performs (M := ⟨fun _ _ _ _ => True⟩) (H := replacingSandbox) (fun _ _ => trivial)
    (sampleRunner.run .dep01) 0).path
  refine ⟨replacedHistory, _, hlast ▸ hpath, ?_⟩
  have hreads : replacedHistory.filterMap deploymentRead = [firstDeployment, faultyDeployment] := by rfl
  have hobservations : replacedHistory.filterMap observation =
      [observationOf firstDeployment, observationOf faultyDeployment, observationOf secondDeployment] := by rfl
  rintro (hnone | ⟨plan, h₁, g, hsplit, hat, hrestored⟩)
  · have hwrote : replacedHistory.any writesSpec = true := by rfl
    obtain ⟨⟨e, r⟩, hmem, hwrites⟩ := List.any_eq_true.mp hwrote
    cases e <;> first | exact hnone _ hmem _ _ _ rfl | cases hwrites
  · obtain ⟨runId, s, p, b, rfl, -, hcapture, -⟩ := hat
    obtain ⟨hread, seen, hseen⟩ := capture_runs hcapture
    obtain ⟨current, w₁, observed, document, w₂, sample, rfl, -, ⟨spec, hspec, hdocument, hready⟩, hsame, -⟩ :=
      hrestored
    have hread' : (⟨.deployment (target .dep01), .ok plan.original⟩ : Event Sandbox) ∈ replacedHistory := by
      rw [hsplit]
      simp [hread]
    have horiginal : plan.original ∈ [firstDeployment, faultyDeployment] := by
      rw [← hreads]
      exact List.mem_filterMap.mpr ⟨_, hread', rfl⟩
    -- The observation of the capture comes before that of the restoration.
    have hobserved : observed ∈ [observationOf faultyDeployment, observationOf secondDeployment] := by
      let earlier : History Sandbox := s ++ p ++ b ++ ⟨.deployment (target .dep01), .ok current⟩ :: w₁
      let later : History Sandbox := ⟨.save "restored", .ok ()⟩ :: w₂ ++
        [⟨.healthy, .ok sample⟩, ⟨.save "healthy-after", .ok ()⟩, ⟨.saveReceipt, .ok ()⟩]
      have hearlier : seen ∈ earlier.filterMap observation := by
        have hmem : (⟨.observe (target .dep01), .ok seen⟩ : Event Sandbox) ∈ earlier := by simp [earlier, hseen]
        exact List.mem_filterMap.mpr ⟨_, hmem, rfl⟩
      have hlists : earlier.filterMap observation ++ observed :: later.filterMap observation =
          [observationOf firstDeployment, observationOf faultyDeployment, observationOf secondDeployment] := by
        rw [← hobservations, hsplit]
        simp [earlier, later, List.filterMap_append, List.filterMap_cons, observation]
      exact mem_tail_of_append hlists (List.ne_nil_of_mem hearlier)
    simp only [List.mem_cons, List.not_mem_nil, or_false] at hobserved horiginal
    rcases hobserved with rfl | rfl
    · -- The faulty Deployment is not ready with any specification.
      obtain rfl : document = faultyDeployment := by
        cases hdocument
        rfl
      rcases horiginal with horiginal | horiginal
      · rw [horiginal] at hspec
        cases hspec
        cases hready
      · rw [horiginal] at hspec
        cases hspec
        cases hready
    · -- The second Deployment is not the captured one.
      obtain rfl : document = secondDeployment := by
        cases hdocument
        rfl
      obtain ⟨uid, captured, huid, hcaptured, hequal⟩ := hsame
      rcases horiginal with horiginal | horiginal
      · rw [horiginal] at hcaptured
        cases huid
        cases hcaptured
        cases hequal
      · rw [horiginal] at hcaptured
        cases huid
        cases hcaptured
        cases hequal

end PayOps.Scenarios.LocalScenarioRunner
