import PayOps.Scenarios.Protocol

/-!
# The recovery of a protocol rollout

Both Deployments are restored whatever happened before, and the latch goes only where everything was
verified.

## The model

A segment of the history belongs to a program where it is one of its runs (`Runs`), so that what a part
of the rollout did is read off its own segment.

## What is proved

* `settle_follows`, `stage_follows` — what a snapshot that is ready and what a verified stage leave behind.
* `undo_follows` — a Deployment is written only over the captured uid and over the journaled specification.
* `cleanup_follows` — where no error is collected, everything succeeded.
* `protocol_recovery` — **both are restored, over nothing unknown, and the latch goes last**.
-/

namespace PayOps.Scenarios

open Process Program Json

/-- The requests of the stages. -/
def Quiet : SandboxEffect → Prop
  | .deployment _ => False
  | .replaceSpec _ _ _ => False
  | .unlinkLatch => False
  | .save name => name ≠ "protocol-journal"
  | _ => True

theorem runtime_quiet : Quiet (.save "runtime") := by
  show "runtime" ≠ "protocol-journal"
  decide

theorem stage_quiet (stage : ProtocolStage) : Quiet (.save stage.name) := by
  show stage.name ≠ "protocol-journal"
  cases stage <;> decide

/-- No file was refused. -/
def NoFailedSave (h : History Sandbox) : Prop :=
  ∀ name x, (⟨.save name, .error x⟩ : Event Sandbox) ∉ h

theorem NoFailedSave.append {g g' : History Sandbox} (hg : NoFailedSave g) (hg' : NoFailedSave g') :
    NoFailedSave (g ++ g') := by
  intro name x hmem
  rcases List.mem_append.mp hmem with hfirst | hsecond
  · exact hg name x hfirst
  · exact hg' name x hsecond

/-- What a part of the rollout keeps: the journal, the errors, and that a file that was refused is among
them. -/
structure Advance (keep : Bool) (s : Progress) (h : History Sandbox) (s' : Progress) (h' : History Sandbox) :
    Prop where
  /-- The state that was captured is the same. -/
  original : s'.context.original = s.context.original
  /-- The second versions are the same. -/
  variants : s'.context.variants = s.context.variants
  /-- No error is dropped. -/
  errors : s'.errors = [] → s.errors = []
  /-- The requests are quiet, and a file that was refused is an error. -/
  segment : ∃ g, h' = h ++ g ∧ (∀ ev ∈ g, Quiet ev.effect) ∧
    (keep = true → s'.errors = [] → NoFailedSave g)

section Advance

variable {keep : Bool} {s s' s'' : Progress} {h h' h'' : History Sandbox}

theorem Advance.refl : Advance keep s h s h :=
  ⟨rfl, rfl, id, [], by simp, by simp, fun _ _ => by simp [NoFailedSave]⟩

theorem Advance.trans (a : Advance keep s h s' h') (b : Advance keep s' h' s'' h'') :
    Advance keep s h s'' h'' := by
  obtain ⟨g, rfl, hquiet, hsaves⟩ := a.segment
  obtain ⟨g', rfl, hquiet', hsaves'⟩ := b.segment
  refine ⟨b.original.trans a.original, b.variants.trans a.variants, fun e => a.errors (b.errors e),
    g ++ g', by simp, ?_, fun hkeep e => (hsaves hkeep (b.errors e)).append (hsaves' hkeep e)⟩
  intro ev hev
  rcases List.mem_append.mp hev with hfirst | hsecond
  · exact hquiet ev hfirst
  · exact hquiet' ev hsecond

/-- One request. -/
theorem Advance.single {e : SandboxEffect} {r : Except Raised e.Reply} {es : List String} (hquiet : Quiet e)
    (hes : es = [] → s.errors = [])
    (hsave : keep = true → es = [] → NoFailedSave [⟨e, r⟩]) :
    Advance keep s h { s with errors := es } (h ++ [⟨e, r⟩]) :=
  ⟨rfl, rfl, hes, _, rfl, by simpa using hquiet, hsave⟩

/-- A request that is no file. -/
theorem Advance.snoc {e : SandboxEffect} {r : Except Raised e.Reply} (a : Advance keep s h s' h')
    (hquiet : Quiet e) (he : ∀ name, e ≠ .save name) :
    Advance keep s h s' (h' ++ [⟨e, r⟩]) := by
  refine a.trans (.single hquiet id fun _ _ name x hmem => ?_)
  exact he name (congrArg Event.effect (List.mem_singleton.mp hmem)).symm

end Advance

variable {G : History Sandbox → Event Sandbox → Prop}

/-- **What a record leaves behind**: the file, or its error. -/
theorem record_follows {keep : Bool} {name : String} {s : Progress} {h : History Sandbox}
    (hname : Quiet (.save name)) (hG : ∀ h ev, Quiet ev.effect → G h ev) :
    (record keep name).Follows G s h fun r s' h' =>
      Advance keep s h s' h' ∧ s'.context = s.context ∧
        (∃ reply, h' = h ++ [⟨.save name, reply⟩] ∧ (keep = true → s'.errors = [] → reply = .ok ())) ∧
          (keep = true → r = .ok ()) := by
  refine Mutable.follows_attempt_bind (Mutable.follows_lift (follows_perform.mpr fun r =>
    ⟨hG _ _ hname, ?_⟩))
  cases r with
  | ok u =>
    refine Mutable.follows_pure ⟨.single hname id fun _ _ _ _ hmem => ?_, rfl, ⟨_, rfl, fun _ _ => rfl⟩,
      fun _ => rfl⟩
    cases List.mem_singleton.mp hmem
  | error x =>
    cases keep with
    | true =>
      refine Mutable.follows_modify ?_
      have hne : s.errors ++ [errorText (name ++ " persistence") x] ≠ [] := by simp
      exact ⟨.single hname (fun e => absurd e hne) (fun _ e => absurd e hne), rfl,
        ⟨_, rfl, fun _ e => absurd e hne⟩, fun _ => rfl⟩
    | false =>
      exact Mutable.follows_raise ⟨.single hname id nofun, rfl, ⟨_, rfl, nofun⟩, nofun⟩

/-! ### A state that is ready -/

variable [ProtocolChecks]

/-- In `g` a state was read that is ready for the specifications, with these processes. -/
def Ready (original : JsonObject) (wanted : JsonObject × JsonObject) (changed : List String)
    (previous current : Identities) (g : History Sandbox) : Prop :=
  ∃ state, (⟨.state, .ok state⟩ : Event Sandbox) ∈ g ∧
    ProtocolChecks.protocolIdentities state original wanted.1 wanted.2 = .ok current ∧
      peerChanged current changed previous = .ok false

theorem Ready.mono {original : JsonObject} {wanted : JsonObject × JsonObject} {changed : List String}
    {previous current : Identities} {g g' : History Sandbox}
    (hr : Ready original wanted changed previous current g) (hg : g ⊆ g') :
    Ready original wanted changed previous current g' := by
  obtain ⟨state, hmem, hids, hpeers⟩ := hr
  exact ⟨state, hg hmem, hids, hpeers⟩

theorem readyIdentities_follows {context : ProtocolRun} {wanted : JsonObject × JsonObject}
    {changed : List String} {state : JsonObject} {h : History Sandbox}
    (hG : ∀ h ev, Quiet ev.effect → G h ev) :
    Process.Follows G (readyIdentities context wanted changed state) h fun r h' =>
      (∀ s : Progress, ∀ keep, Advance keep s h s h') ∧ (∃ g, h' = h ++ g) ∧
        ∀ current, r = .ok current →
          ProtocolChecks.protocolIdentities state context.original wanted.1 wanted.2 = .ok current ∧
            peerChanged current changed context.identities = .ok false := by
  have hnone : (∀ s : Progress, ∀ keep, Advance keep s h s h) ∧ ∃ g, h = h ++ g :=
    ⟨fun _ _ => .refl, [], by simp⟩
  refine follows_ofResult_bind.mpr ⟨fun x _ => ⟨hnone.1, hnone.2, nofun⟩, fun current hids => ?_⟩
  refine follows_ofResult_bind.mpr ⟨fun x _ => ⟨hnone.1, hnone.2, nofun⟩, fun differs hpeers => ?_⟩
  refine follows_raiseIf_bind.mpr ⟨fun _ => ⟨hnone.1, hnone.2, nofun⟩, fun hsame => ?_⟩
  have hready : ∀ c, (.ok current : Except Raised Identities) = .ok c →
      ProtocolChecks.protocolIdentities state context.original wanted.1 wanted.2 = .ok c ∧
        peerChanged c changed context.identities = .ok false := by
    rintro c ⟨⟩
    exact ⟨hids, by rw [hpeers, Bool.not_eq_true _ |>.mp hsame]⟩
  refine follows_bind.mpr ?_
  match changed with
  | [] => exact ⟨hnone.1, hnone.2, hready⟩
  | [name] =>
    refine follows_perform_bind.mpr fun r => ⟨hG _ _ trivial, fun x _ => ?_, fun now _ => ?_⟩
    · exact ⟨fun _ _ => Advance.refl.snoc trivial nofun, ⟨_, rfl⟩, nofun⟩
    · refine follows_ofResult_bind.mpr ⟨fun x _ => ⟨fun _ _ => Advance.refl.snoc trivial nofun, ⟨_, rfl⟩, nofun⟩,
        fun identity _ => ?_⟩
      refine follows_ofResult_bind.mpr ⟨fun x _ => ⟨fun _ _ => Advance.refl.snoc trivial nofun, ⟨_, rfl⟩, nofun⟩,
        fun previous _ => follows_ofResult.mpr ?_⟩
      split
      · exact ⟨fun _ _ => Advance.refl.snoc trivial nofun, ⟨_, rfl⟩, hready⟩
      · exact ⟨fun _ _ => Advance.refl.snoc trivial nofun, ⟨_, rfl⟩, nofun⟩
  | _ :: _ :: _ => exact ⟨hnone.1, hnone.2, hready⟩

theorem snapshots_follows {wanted : JsonObject × JsonObject} {changed : List String} {keep : Bool}
    {deadline : ℚ} (hG : ∀ h ev, Quiet ev.effect → G h ev) (left : ℕ) (s : Progress) (h : History Sandbox) :
    (snapshots wanted changed keep deadline left).Follows G s h fun r s' h' =>
      Advance keep s h s' h' ∧ s'.context.observations = s.context.observations ∧ ∀ t, r = .ok t → ∃ g,
        h' = h ++ g ∧ (⟨.clock, .ok t⟩ : Event Sandbox) ∈ g ∧ Ready s.context.original wanted changed
          s.context.identities s'.context.identities g := by
  induction left generalizing s h with
  | zero => exact Mutable.follows_raise ⟨.refl, rfl, nofun⟩
  | succ left ih =>
    refine Mutable.follows_perform_bind (fun _ => hG _ _ trivial)
      (fun _ => ⟨Advance.refl.snoc trivial nofun, rfl, nofun⟩) fun now => ?_
    have a₁ : Advance keep s h s (h ++ [⟨.monotonic, .ok now⟩]) := Advance.refl.snoc trivial nofun
    split
    · exact Mutable.follows_raise ⟨a₁, rfl, nofun⟩
    refine Mutable.follows_perform_bind (fun _ => hG _ _ trivial)
      (fun _ => ⟨a₁.snoc trivial nofun, rfl, nofun⟩) fun state => ?_
    have a₂ := a₁.snoc (e := .state) (r := .ok state) trivial nofun
    refine Mutable.follows_perform_bind (fun _ => hG _ _ trivial)
      (fun _ => ⟨a₂.snoc trivial nofun, rfl, nofun⟩) fun captured => ?_
    have a₃ := a₂.snoc (e := .clock) (r := .ok captured) trivial nofun
    refine Mutable.follows_bind ((record_follows runtime_quiet hG).mono ?_)
    rintro (x | ⟨⟨⟩⟩) s₁ h₁ ⟨a₄, hcontext, ⟨reply, rfl, -⟩, -⟩
    · exact ⟨a₃.trans a₄, by rw [hcontext], nofun⟩
    -- The context is the one before the record.
    have a₅ := a₃.trans a₄
    refine Mutable.follows_get_bind (Mutable.follows_attempt_bind (Mutable.follows_lift
      ((readyIdentities_follows hG).mono ?_)))
    rintro (x | current) h₂ ⟨a₆, ⟨g, rfl⟩, hready⟩
    · have a₇ := a₅.trans (a₆ s₁ keep)
      simp only
      split
      · refine Mutable.follows_perform_bind (fun _ => hG _ _ trivial)
          (fun _ => ⟨a₇.snoc trivial nofun, by rw [hcontext], nofun⟩) fun _ => ?_
        refine Mutable.follows_perform_bind (fun _ => hG _ _ trivial)
          (fun _ => ⟨(a₇.snoc (by exact trivial) (by nofun)).snoc trivial nofun, by rw [hcontext], nofun⟩)
          fun _ => ?_
        refine (ih _ _).mono ?_
        rintro r s' h' ⟨a₈, hsame, hok⟩
        refine ⟨((a₇.snoc (by exact trivial) (by nofun)).snoc (by exact trivial) (by nofun)).trans a₈,
          hsame.trans (by rw [hcontext]), fun t ht => ?_⟩
        obtain ⟨g', rfl, hclock, hr⟩ := hok t ht
        rw [hcontext] at hr
        simp only [List.append_assoc]
        refine ⟨_, rfl, ?_, ?_⟩
        · simp [hclock]
        · exact hr.mono fun ev hev => by simp [hev]
      · exact Mutable.follows_raise ⟨a₇, by rw [hcontext], nofun⟩
    · have a₇ := a₅.trans (a₆ s₁ keep)
      obtain ⟨hids, hpeers⟩ := hready current rfl
      rw [hcontext] at hids hpeers
      refine Mutable.follows_perform_bind (fun _ => hG _ _ trivial)
        (fun _ => ⟨a₇.snoc trivial nofun, by rw [hcontext], nofun⟩) fun later => ?_
      have a₈ := a₇.snoc (e := .monotonic) (r := .ok later) trivial nofun
      split
      · exact Mutable.follows_raise ⟨a₈, by rw [hcontext], nofun⟩
      refine Mutable.follows_modify_bind (Mutable.follows_lift (follows_perform.mpr fun r =>
        ⟨hG _ _ trivial, ?_⟩))
      have a₉ := a₈.snoc (e := .clock) (r := r) trivial nofun
      refine ⟨⟨a₉.original, a₉.variants, a₉.errors, a₉.segment⟩, by rw [hcontext], ?_⟩
      rintro t rfl
      simp only [List.append_assoc]
      exact ⟨_, rfl, by simp, state, by simp, hids, hpeers⟩

/-- **What a settled stage leaves behind**: a state that is ready for the stage's specifications. -/
theorem settle_follows {H : ProtocolHarness} {stage : ProtocolStage} {changed : List String} {keep : Bool}
    (hG : ∀ h ev, Quiet ev.effect → G h ev) (s : Progress) (h : History Sandbox) :
    (H.settle stage changed keep).Follows G s h fun r s' h' =>
      Advance keep s h s' h' ∧ s'.context.observations = s.context.observations ∧ ∀ t, r = .ok t →
        ∃ wanted g, specs s.context stage = .ok wanted ∧ h' = h ++ g ∧
          (⟨.clock, .ok t⟩ : Event Sandbox) ∈ g ∧ Ready s.context.original wanted changed
            s.context.identities s'.context.identities g := by
  refine Mutable.follows_perform_bind (fun _ => hG _ _ trivial)
    (fun _ => ⟨Advance.refl.snoc trivial nofun, rfl, nofun⟩) fun now => Mutable.follows_get_bind ?_
  have a₁ : Advance keep s h s (h ++ [⟨.monotonic, .ok now⟩]) := Advance.refl.snoc trivial nofun
  refine Mutable.follows_ofResult_bind (fun _ _ => ⟨a₁, rfl, nofun⟩) fun wanted hwanted => ?_
  refine (snapshots_follows hG _ _ _).mono ?_
  rintro r s' h' ⟨a₂, hsame, hok⟩
  refine ⟨a₁.trans a₂, hsame, fun t ht => ?_⟩
  obtain ⟨g, rfl, hclock, hready⟩ := hok t ht
  exact ⟨wanted, ⟨.monotonic, .ok now⟩ :: g, hwanted, by simp, by simp [hclock],
    hready.mono (List.subset_cons_self _ _)⟩

/-- In `g` the stage was verified: a state that is ready for its specifications, an observation of this run,
of these processes and with fresh evidence, and a state that is ready again. -/
def Verified (H : ProtocolHarness) (runId : String) (stage : ProtocolStage) (changed : List String)
    (context : ProtocolRun) (g : History Sandbox) : Prop :=
  ∃ wanted identities readyAt observed reply current settled again,
    g = settled ++ [⟨.collectProtocol stage runId identities, .ok observed⟩, ⟨.save stage.name, reply⟩,
      ⟨.verifyProtocol stage observed, .ok ()⟩] ++ again ∧
    specs context stage = .ok wanted ∧
    Ready context.original wanted changed context.identities identities settled ∧
    (⟨.clock, .ok readyAt⟩ : Event Sandbox) ∈ settled ∧
    H.inScope runId identities readyAt observed = true ∧
    ProtocolHarness.freshEvidence context.observations observed = true ∧
    Ready context.original wanted [] identities current again

/-- **What a stage leaves behind**: where it returns it was verified. -/
theorem stage_follows {H : ProtocolHarness} {runId : String} {stage : ProtocolStage} {changed : List String}
    {keep : Bool} (hG : ∀ h ev, Quiet ev.effect → G h ev) (s : Progress) (h : History Sandbox) :
    (H.stage runId stage changed keep).Follows G s h fun r s' h' =>
      Advance keep s h s' h' ∧ (r = .ok () → ∃ g, h' = h ++ g ∧ Verified H runId stage changed s.context g) := by
  refine Mutable.follows_bind ((settle_follows hG s h).mono ?_)
  rintro (x | readyAt) s₁ h₁ ⟨a₁, hsame, hok⟩
  · exact ⟨a₁, nofun⟩
  obtain ⟨wanted, g₁, hwanted, rfl, hclock, hready⟩ := hok readyAt rfl
  refine Mutable.follows_get_bind (Mutable.follows_perform_bind (fun _ => hG _ _ trivial)
    (fun _ => ⟨a₁.snoc trivial nofun, nofun⟩) fun observed => ?_)
  have a₂ := a₁.snoc (e := .collectProtocol stage runId s₁.context.identities) (r := .ok observed) trivial nofun
  have hname : Quiet (.save stage.name) := stage_quiet stage
  refine Mutable.follows_bind ((record_follows hname hG).mono ?_)
  rintro (x | ⟨⟨⟩⟩) s₂ h₂ ⟨a₃, hcontext, ⟨reply, rfl, -⟩, -⟩
  · exact ⟨a₂.trans a₃, nofun⟩
  have a₄ := a₂.trans a₃
  simp only
  split
  · exact Mutable.follows_raise ⟨a₄, nofun⟩
  rename_i hscope
  split
  · exact Mutable.follows_raise ⟨a₄, nofun⟩
  rename_i hfresh
  refine Mutable.follows_perform_bind (fun _ => hG _ _ trivial)
    (fun _ => ⟨a₄.snoc trivial nofun, nofun⟩) fun _ => ?_
  have a₅ := a₄.snoc (e := .verifyProtocol stage observed) (r := .ok ()) trivial nofun
  refine Mutable.follows_bind ((settle_follows hG _ _).mono ?_)
  rintro (x | t) s₃ h₃ ⟨a₆, -, hagain⟩
  · exact ⟨a₅.trans a₆, nofun⟩
  obtain ⟨wanted', g₂, hwanted', rfl, -, hready'⟩ := hagain t rfl
  refine Mutable.follows_modify ⟨?_, fun _ => ?_⟩
  · have a₇ := a₅.trans a₆
    exact ⟨a₇.original, a₇.variants, a₇.errors, a₇.segment⟩
  · -- The specifications of a stage depend on the journal alone.
    have hspecs : specs s₂.context stage = specs s.context stage := by
      rw [hcontext]
      simp only [specs, a₁.original, a₁.variants]
    obtain rfl : wanted' = wanted := by
      rw [hspecs, hwanted] at hwanted'
      cases hwanted'
      rfl
    rw [hcontext, a₁.original] at hready'
    refine ⟨_, by simp only [List.append_assoc]; rfl, wanted', s₁.context.identities, readyAt, observed, reply,
      s₃.context.identities, g₁, g₂, by simp, hwanted, hready, hclock, ?_, ?_, hready'⟩
    · simpa using hscope
    · rw [hsame] at hfresh
      simpa using hfresh

/-! ### Undoing a change -/

variable [Numerals]

/-- The Deployment read is the captured one: it has its identity. -/
def Captured (context : ProtocolRun) (target : String) (current original : JsonObject) : Prop :=
  ∃ documents uid captured, ProtocolChecks.deploymentMap context.original = .ok documents ∧
    item documents target = .ok original ∧ uidOf current = .ok uid ∧ uidOf original = .ok captured ∧
      pythonEqual uid captured = true

/-- `spec` is the captured specification, and the Deployment read has the journaled second one. -/
def Restores (context : ProtocolRun) (target : String) (current spec : JsonObject) : Prop :=
  ∃ original found variant, Captured context target current original ∧ member current "spec" = .ok found ∧
    item context.variants target = .ok variant ∧ pythonEqual found (.obj variant) = true ∧
      member original "spec" = .ok (.obj spec)

/-- In `u` the Deployment was found with the captured identity and specification, or restored to them. -/
def Undone (context : ProtocolRun) (target : String) (u : History Sandbox) : Prop :=
  ∃ current original, Captured context target current original ∧
    ((∃ found wanted, member current "spec" = .ok found ∧ member original "spec" = .ok wanted ∧
        pythonEqual found wanted = true ∧ u = [⟨.deployment target, .ok current⟩]) ∨
      ∃ spec, Restores context target current spec ∧
        u = [⟨.deployment target, .ok current⟩, ⟨.replaceSpec target current spec, .ok ()⟩])

/-- **Nothing unknown is overwritten**, and where the program returns the change is undone. -/
theorem undo_follows {context : ProtocolRun} {target : String} {h : History Sandbox}
    (hread : ∀ r, G h ⟨.deployment target, r⟩)
    (hwrite : ∀ current spec r, Restores context target current spec →
      G (h ++ [⟨.deployment target, .ok current⟩]) ⟨.replaceSpec target current spec, r⟩) :
    Process.Follows G (ProtocolHarness.undo context target) h fun r h' =>
      r = .ok () → ∃ u, h' = h ++ u ∧ Undone context target u := by
  have hraise : ∀ {x : Raised} {P : Prop}, (.error x : Except Raised Unit) = .ok () → P := by
    intro x P h
    cases h
  refine follows_perform_bind.mpr fun r => ⟨hread r, fun _ _ => hraise, ?_⟩
  rintro current rfl
  refine follows_ofResult_bind.mpr ⟨fun _ _ => hraise, fun documents hdocuments => ?_⟩
  refine follows_ofResult_bind.mpr ⟨fun _ _ => hraise, fun original horiginal => ?_⟩
  refine follows_ofResult_bind.mpr ⟨fun _ _ => hraise, fun uid huid => ?_⟩
  refine follows_ofResult_bind.mpr ⟨fun _ _ => hraise, fun captured hcaptured => ?_⟩
  refine follows_raiseIf_bind.mpr ⟨fun _ => hraise, fun hsame => ?_⟩
  have hidentity : Captured context target current original :=
    ⟨documents, uid, captured, hdocuments, horiginal, huid, hcaptured, by simpa using hsame⟩
  refine follows_ofResult_bind.mpr ⟨fun _ _ => hraise, fun found hfound => ?_⟩
  refine follows_ofResult_bind.mpr ⟨fun _ _ => hraise, fun wanted hwanted => ?_⟩
  split
  · rename_i hequal
    exact fun _ => ⟨_, rfl, current, original, hidentity, .inl ⟨found, wanted, hfound, hwanted, hequal, rfl⟩⟩
  · refine follows_ofResult_bind.mpr ⟨fun _ _ => hraise, fun variant hvariant => ?_⟩
    refine follows_raiseIf_bind.mpr ⟨fun _ => hraise, fun hknown => ?_⟩
    refine follows_ofResult_bind.mpr ⟨fun _ _ => hraise, fun spec hspec => ?_⟩
    have hrestores : Restores context target current spec := by
      refine ⟨original, found, variant, hidentity, hfound, hvariant, by simpa using hknown, ?_⟩
      rw [hwanted, objectValue_ok hspec]
    refine follows_perform.mpr fun r => ⟨hwrite current spec r hrestores, ?_⟩
    rintro rfl
    exact ⟨[⟨.deployment target, .ok current⟩, ⟨.replaceSpec target current spec, .ok ()⟩], by simp,
      current, original, hidentity, .inr ⟨spec, hrestores, rfl⟩⟩

/-! ### The cleanup -/

/-- The run came to its cleanup, with this context. -/
def AtCleanup (H : ProtocolHarness) (runId : String) (h : History Sandbox) (context : ProtocolRun) : Prop :=
  ∃ s p f prepared outcome errors, h = s ++ p ++ f ∧ Runs start s (.ok runId) ∧
    Runs (H.prepare runId) p (.ok prepared) ∧
    Runs (H.forward runId ⟨prepared, []⟩) f (.ok (outcome, ⟨context, errors⟩)) ∧
    context.original = prepared.original ∧ context.variants = prepared.variants

/-- Both Deployments were restored and verified, everything was saved, and no error was collected. -/
def CleanedUp (H : ProtocolHarness) (runId : String) (context : ProtocolRun) (g : History Sandbox) : Prop :=
  ∃ u₁ u₂ v, g = u₁ ++ [⟨.save "cleanup-payments-api", .ok ()⟩] ++
      (u₂ ++ [⟨.save "cleanup-risk-sim", .ok ()⟩]) ++ (v ++ [⟨.save "cleanup-verify", .ok ()⟩]) ∧
    Undone context "payments-api" u₁ ∧ Undone context "risk-sim" u₂ ∧
    Verified H runId .final ["payments-api", "risk-sim"] context v ∧ NoFailedSave v

/-- The latch may go: nothing could have been changed, or everything was cleaned up. -/
def Releasable (H : ProtocolHarness) (h : History Sandbox) : Prop :=
  (⟨.save "protocol-journal", .ok ()⟩ : Event Sandbox) ∉ h ∧
      (∀ ev ∈ h, ∀ name expected spec, ev.effect ≠ .replaceSpec name expected spec) ∨
    ∃ runId context h₁ g, AtCleanup H runId h₁ context ∧ CleanedUp H runId context g ∧
      h = h₁ ++ g ++ [⟨.saveReceipt, .ok ()⟩]

/-- What a run may do: it writes no Deployment again but over what it knows, and the latch goes last. -/
def Allowed (H : ProtocolHarness) (h : History Sandbox) (ev : Event Sandbox) : Prop :=
  match ev.effect with
  | .replaceSpec name expected spec => (∃ read ∈ h, ∃ target, read.effect = .deployment target) →
      ∃ runId context h₁ g, h = h₁ ++ g ++ [⟨.deployment name, .ok expected⟩] ∧
        AtCleanup H runId h₁ context ∧ Restores context name expected spec
  | .unlinkLatch => Releasable H h
  | _ => True

variable {H : ProtocolHarness}

theorem Quiet.allowed {h : History Sandbox} {ev : Event Sandbox} (hev : Quiet ev.effect) : Allowed H h ev := by
  obtain ⟨e, r⟩ := ev
  cases e <;> trivial

/-- **What the restoration of a Deployment leaves behind**: it was tried, and where no error was collected
it is undone and recorded. -/
theorem restoreTarget_follows {context : ProtocolRun} {target : String} {runId : String}
    {h₁ g : History Sandbox} {s : Progress} (hname : Quiet (.save ("cleanup-" ++ target)))
    (hat : AtCleanup H runId h₁ context) :
    (ProtocolHarness.restoreTarget context target).Follows (Allowed H) s (h₁ ++ g) fun r s' h' =>
      r = .ok () ∧ s'.context = s.context ∧ (s'.errors = [] → s.errors = []) ∧ ∃ u m tried,
        h' = h₁ ++ g ++ u ++ m ∧ Runs (ProtocolHarness.undo context target) u tried ∧
          (s'.errors = [] → m = [⟨.save ("cleanup-" ++ target), .ok ()⟩] ∧ Undone context target u) := by
  have hundo : Process.Follows (Allowed H) (ProtocolHarness.undo context target) (h₁ ++ g) fun r h' =>
      r = .ok () → ∃ u, h' = h₁ ++ g ++ u ∧ Undone context target u := by
    refine undo_follows (fun _ => trivial) fun current spec _ hspec => ?_
    exact fun _ => ⟨runId, context, h₁, g, rfl, hat, hspec⟩
  refine Mutable.follows_attempt_bind (Mutable.follows_lift (hundo.and_runs.mono ?_))
  rintro (x | ⟨⟨⟩⟩) h₂ ⟨hok, u, rfl, hruns⟩
  · refine Mutable.follows_modify_bind ((record_follows hname fun _ _ => Quiet.allowed).mono ?_)
    rintro r s' h' ⟨a, hcontext, ⟨reply, rfl, -⟩, hr⟩
    have hne : s'.errors ≠ [] := fun e => by simpa using a.errors e
    exact ⟨hr rfl, hcontext, fun e => absurd e hne, u, _, _, rfl, hruns, fun e => absurd e hne⟩
  · refine (record_follows hname fun _ _ => Quiet.allowed).mono ?_
    rintro r s' h' ⟨a, hcontext, ⟨reply, rfl, hreply⟩, hr⟩
    refine ⟨hr rfl, hcontext, a.errors, u, _, _, rfl, hruns, fun e => ?_⟩
    obtain ⟨u', hu, hundone⟩ := hok rfl
    rw [hreply rfl e, List.append_cancel_left hu]
    exact ⟨rfl, hundone⟩

/-- **What the final stage leaves behind**: where no error was collected it is verified and recorded. -/
theorem verifyFinal_follows {runId : String} (s : Progress) (h : History Sandbox) :
    (H.verifyFinal runId).Follows (Allowed H) s h fun _ s' h' =>
      (s'.errors = [] → s.errors = []) ∧ ∃ g, h' = h ++ g ∧ (s'.errors = [] → ∃ v,
        g = v ++ [⟨.save "cleanup-verify", .ok ()⟩] ∧
          Verified H runId .final ["payments-api", "risk-sim"] s.context v ∧ NoFailedSave v) := by
  have hname : Quiet (.save "cleanup-verify") := by
    show "cleanup-verify" ≠ "protocol-journal"
    decide
  refine Mutable.follows_attempt_bind ((stage_follows (fun _ _ => Quiet.allowed) s h).mono ?_)
  rintro (x | ⟨⟨⟩⟩) s₁ h₁ ⟨a, hok⟩
  · obtain ⟨g, rfl, -, -⟩ := a.segment
    refine Mutable.follows_modify_bind ((record_follows hname fun _ _ => Quiet.allowed).mono ?_)
    rintro r s' h' ⟨b, -, ⟨reply, rfl, -⟩, -⟩
    have hne : s'.errors ≠ [] := fun e => by simpa using b.errors e
    exact ⟨fun e => absurd e hne, _, by rw [List.append_assoc], fun e => absurd e hne⟩
  · refine (record_follows hname fun _ _ => Quiet.allowed).mono ?_
    rintro r s' h' ⟨b, -, ⟨reply, rfl, hreply⟩, -⟩
    obtain ⟨g, rfl, -, hsaves⟩ := a.segment
    refine ⟨fun e => a.errors (b.errors e), _, by rw [List.append_assoc], fun e => ?_⟩
    obtain ⟨v, hv, hverified⟩ := hok rfl
    obtain rfl := List.append_cancel_left hv
    rw [hreply rfl e]
    exact ⟨g, rfl, hverified, hsaves rfl (b.errors e)⟩

/-- Both restorations were tried. -/
def BothTried (H : ProtocolHarness) (h : History Sandbox) : Prop :=
  ∃ runId context h₁ u₁ m u₂ h₂ tried₁ tried₂, h = h₁ ++ u₁ ++ m ++ u₂ ++ h₂ ∧
    AtCleanup H runId h₁ context ∧ Runs (ProtocolHarness.undo context "payments-api") u₁ tried₁ ∧
      Runs (ProtocolHarness.undo context "risk-sim") u₂ tried₂

theorem BothTried.later {h : History Sandbox} (hh : BothTried H h) (g : History Sandbox) :
    BothTried H (h ++ g) := by
  obtain ⟨runId, context, h₁, u₁, m, u₂, h₂, tried₁, tried₂, rfl, hat, hfirst, hsecond⟩ := hh
  exact ⟨runId, context, h₁, u₁, m, u₂, h₂ ++ g, tried₁, tried₂, by simp, hat, hfirst, hsecond⟩

/-- **What the cleanup leaves behind**: both restorations were tried, and where no error was collected
everything is cleaned up. -/
theorem cleanup_follows {runId : String} {context : ProtocolRun} {h : History Sandbox}
    (hat : AtCleanup H runId h context) :
    (H.cleanup runId context).Follows (Allowed H) ⟨context, []⟩ h fun _ s' h' =>
      BothTried H h' ∧ (s'.errors = [] → ∃ g, h' = h ++ g ∧ CleanedUp H runId context g) := by
  have hpayments : Quiet (.save ("cleanup-" ++ "payments-api")) := by
    show "cleanup-payments-api" ≠ "protocol-journal"
    decide
  have hrisk : Quiet (.save ("cleanup-" ++ "risk-sim")) := by
    show "cleanup-risk-sim" ≠ "protocol-journal"
    decide
  have hfirst := restoreTarget_follows (g := []) (s := ⟨context, []⟩) hpayments hat
  rw [List.append_nil] at hfirst
  refine Mutable.follows_bind (hfirst.mono ?_)
  rintro r s₁ h₁ ⟨rfl, hcontext₁, -, u₁, m₁, tried₁, rfl, hruns₁, hok₁⟩
  have hsecond := restoreTarget_follows (g := u₁ ++ m₁) (s := s₁) hrisk hat
  rw [← List.append_assoc] at hsecond
  refine Mutable.follows_bind (hsecond.mono ?_)
  rintro r s₂ h₂ ⟨rfl, hcontext₂, herrors₂, u₂, m₂, tried₂, rfl, hruns₂, hok₂⟩
  refine (verifyFinal_follows s₂ _).mono ?_
  rintro r s₃ h₃ ⟨herrors₃, g, rfl, hok₃⟩
  refine ⟨⟨runId, context, h, u₁, m₁, u₂, m₂ ++ g, tried₁, tried₂, by simp, hat, hruns₁, hruns₂⟩, fun e => ?_⟩
  obtain ⟨v, rfl, hverified, hsaves⟩ := hok₃ e
  obtain ⟨rfl, hundone₂⟩ := hok₂ (herrors₃ e)
  obtain ⟨rfl, hundone₁⟩ := hok₁ (herrors₂ (herrors₃ e))
  rw [hcontext₂, hcontext₁] at hverified
  exact ⟨_, by simp only [List.append_assoc]; rfl, u₁, u₂, v, by simp, hundone₁, hundone₂, hverified, hsaves⟩

theorem saveReceipt_follows {errors : List String} {h : History Sandbox} :
    Process.Follows (Allowed H) (ProtocolHarness.saveReceipt errors) h fun r h' => ∃ es g, r = .ok es ∧
      h' = h ++ g ∧ (es = [] → errors = [] ∧ g = [⟨.saveReceipt, .ok ()⟩]) := by
  refine follows_bind.mpr (follows_attempt.mpr (follows_perform.mpr fun r => ⟨trivial, ?_⟩))
  cases r with
  | ok u => exact ⟨errors, _, rfl, rfl, fun e => ⟨e, rfl⟩⟩
  | error x => exact ⟨_, _, rfl, rfl, by simp⟩

theorem release_follows {errors : List String} {h : History Sandbox} (hrelease : errors = [] → Releasable H h) :
    Process.Follows (Allowed H) (ProtocolHarness.release errors) h fun r _ => ∃ es, r = .ok es := by
  unfold ProtocolHarness.release
  split
  · rename_i hnone
    refine follows_bind.mpr (follows_attempt.mpr (follows_perform.mpr fun r => ⟨hrelease hnone, ?_⟩))
    cases r with
    | ok u => exact ⟨[], rfl⟩
    | error x => exact ⟨_, rfl⟩
  · exact ⟨errors, rfl⟩

/-- The receipt comes before the latch goes. -/
theorem finalReceipt_follows {errors : List String} {h : History Sandbox}
    (hrelease : errors = [] → Releasable H (h ++ [⟨.saveReceipt, .ok ()⟩])) :
    Process.Follows (Allowed H) (ProtocolHarness.finalReceipt errors) h fun _ _ => True := by
  refine follows_bind.mpr (saveReceipt_follows.mono ?_)
  rintro r h₁ ⟨es, g₁, rfl, rfl, hes⟩
  refine follows_bind.mpr ((release_follows fun e => ?_).mono ?_)
  · obtain ⟨hnone, rfl⟩ := hes e
    exact hrelease hnone
  rintro r h₂ ⟨es', rfl⟩
  simp only
  split
  · trivial
  · refine follows_bind.mpr (follows_attempt.mpr (follows_perform.mpr fun r => ⟨trivial, ?_⟩))
    cases r <;> trivial

/-! ### The run -/

/-- Only the requests of the stages were made. -/
def Calm (h : History Sandbox) : Prop := ∀ ev ∈ h, Quiet ev.effect

/-- No Deployment was read alone yet. -/
def Unread (h : History Sandbox) : Prop := ∀ ev ∈ h, ∀ target, ev.effect ≠ .deployment target

/-- There is no journal, and no Deployment was written. -/
def Unchanged (h : History Sandbox) : Prop :=
  (⟨.save "protocol-journal", .ok ()⟩ : Event Sandbox) ∉ h ∧
    ∀ ev ∈ h, ∀ name expected spec, ev.effect ≠ .replaceSpec name expected spec

section Calm

omit [ProtocolChecks] [Numerals]

theorem Calm.append {h g : History Sandbox} (hh : Calm h) (hg : Calm g) : Calm (h ++ g) := by
  intro ev hev
  rcases List.mem_append.mp hev with hfirst | hsecond
  · exact hh ev hfirst
  · exact hg ev hsecond

theorem Calm.snoc {h : History Sandbox} {e : SandboxEffect} {r : Except Raised e.Reply} (hh : Calm h)
    (he : Quiet e) : Calm (h ++ [⟨e, r⟩]) := hh.append (by simpa [Calm] using he)

theorem Calm.unread {h : History Sandbox} (hh : Calm h) : Unread h := by
  intro ev hev target heq
  have := hh ev hev
  rw [heq] at this
  exact this

theorem Calm.unchanged {h : History Sandbox} (hh : Calm h) : Unchanged h := by
  refine ⟨fun hmem => hh _ hmem rfl, fun ev hev name expected spec heq => ?_⟩
  have := hh ev hev
  rw [heq] at this
  exact this

theorem Unread.append {h g : History Sandbox} (hh : Unread h) (hg : Unread g) : Unread (h ++ g) := by
  intro ev hev
  rcases List.mem_append.mp hev with hfirst | hsecond
  · exact hh ev hfirst
  · exact hg ev hsecond

theorem Unread.snoc {h : History Sandbox} {e : SandboxEffect} {r : Except Raised e.Reply} (hh : Unread h)
    (he : ∀ target, e ≠ .deployment target) : Unread (h ++ [⟨e, r⟩]) :=
  hh.append (by simpa [Unread] using he)

theorem Unchanged.snoc {h : History Sandbox} {ev : Event Sandbox} (hh : Unchanged h)
    (hev : ev ≠ ⟨.save "protocol-journal", .ok ()⟩)
    (hwrite : ∀ name expected spec, ev.effect ≠ .replaceSpec name expected spec) : Unchanged (h ++ [ev]) := by
  refine ⟨fun hmem => ?_, fun ev' hev' => ?_⟩
  · rcases List.mem_append.mp hmem with hfirst | hsecond
    · exact hh.1 hfirst
    · exact hev (List.mem_singleton.mp hsecond).symm
  · rcases List.mem_append.mp hev' with hfirst | hsecond
    · exact hh.2 ev' hfirst
    · rw [List.mem_singleton.mp hsecond]
      exact hwrite

theorem Advance.calm {keep : Bool} {s s' : Progress} {h h' : History Sandbox} (a : Advance keep s h s' h') :
    ∃ g, h' = h ++ g ∧ Calm g := by
  obtain ⟨g, rfl, hquiet, -⟩ := a.segment
  exact ⟨g, rfl, hquiet⟩

end Calm

/-- A transition keeps the journal, and comes before any restoration. -/
theorem transition_follows {target : String} (s : Progress) {h : History Sandbox} (hh : Unread h) :
    (ProtocolHarness.transition target).Follows (Allowed H) s h fun _ s' h' => Unread h' ∧
      s'.context.original = s.context.original ∧ s'.context.variants = s.context.variants := by
  refine Mutable.follows_get_bind (Mutable.follows_ofResult_bind (fun _ _ => ⟨hh, rfl, rfl⟩) fun documents _ => ?_)
  refine Mutable.follows_ofResult_bind (fun _ _ => ⟨hh, rfl, rfl⟩) fun current _ => ?_
  refine Mutable.follows_perform_bind (fun _ => trivial) (fun _ => ⟨hh.snoc nofun, rfl, rfl⟩) fun requestedAt => ?_
  have h₁ := hh.snoc (e := .clock) (r := .ok requestedAt) nofun
  refine Mutable.follows_modify_bind (Mutable.follows_ofResult_bind (fun _ _ => ⟨h₁, rfl, rfl⟩) fun variant _ => ?_)
  refine Mutable.follows_perform_bind (fun _ => trivial) (fun _ => ⟨h₁.snoc nofun, rfl, rfl⟩) fun _ => ?_
  have h₂ := h₁.snoc (e := .save ("transition-" ++ target)) (r := .ok ()) nofun
  refine Mutable.follows_lift (follows_perform.mpr fun r => ⟨?_, h₂.snoc nofun, rfl, rfl⟩)
  rintro ⟨read, hread, target', heq⟩
  exact absurd heq (h₂ read hread target')

/-- What a run has done of its way forward: it keeps the journal, and restores nothing. -/
theorem forward_follows {runId : String} (s : Progress) {h : History Sandbox} (hh : Unread h) :
    (H.forward runId).Follows (Allowed H) s h fun _ s' _ =>
      s'.context.original = s.context.original ∧ s'.context.variants = s.context.variants := by
  refine Mutable.follows_bind ((transition_follows s hh).mono ?_)
  rintro (x | ⟨⟨⟩⟩) s₁ h₁ ⟨hunread₁, horiginal₁, hvariants₁⟩
  · exact ⟨horiginal₁, hvariants₁⟩
  refine Mutable.follows_bind ((stage_follows (fun _ _ => Quiet.allowed) s₁ h₁).mono ?_)
  rintro r s₂ h₂ ⟨a₂, -⟩
  obtain ⟨g, rfl, hg⟩ := a₂.calm
  have hjournal₂ : s₂.context.original = s.context.original ∧ s₂.context.variants = s.context.variants :=
    ⟨a₂.original.trans horiginal₁, a₂.variants.trans hvariants₁⟩
  have hunread₂ := hunread₁.append hg.unread
  cases r with
  | error x => exact hjournal₂
  | ok u =>
    have hinvestigate : Process.Follows (Allowed H) (investigate H.callback) (h₁ ++ g) fun _ h' => Unread h' := by
      unfold investigate
      split
      · exact follows_perform.mpr fun r => ⟨trivial, hunread₂.snoc nofun⟩
      · exact hunread₂
    refine Mutable.follows_bind (Mutable.follows_lift (hinvestigate.mono ?_))
    rintro (x | ⟨⟨⟩⟩) h₃ hunread₃
    · exact hjournal₂
    refine Mutable.follows_bind ((transition_follows s₂ hunread₃).mono ?_)
    rintro (x | ⟨⟨⟩⟩) s₄ h₄ ⟨-, horiginal₄, hvariants₄⟩
    · exact ⟨horiginal₄.trans hjournal₂.1, hvariants₄.trans hjournal₂.2⟩
    refine (stage_follows (fun _ _ => Quiet.allowed) s₄ h₄).mono ?_
    rintro r s₅ h₅ ⟨a₅, -⟩
    exact ⟨a₅.original.trans (horiginal₄.trans hjournal₂.1), a₅.variants.trans (hvariants₄.trans hjournal₂.2)⟩

/-- The preparation changes nothing; where it returns, the journal is there. -/
theorem prepare_follows {runId : String} {h : History Sandbox} (hh : Calm h) :
    Process.Follows (Allowed H) (H.prepare runId) h fun r h' => Unread h' ∧ ∀ x, r = .error x → Unchanged h' := by
  have hraise : ∀ {h : History Sandbox}, Calm h → ∀ {P : Raised → Prop},
      Unread h ∧ ∀ x, P x → Unchanged h := fun hcalm => ⟨hcalm.unread, fun _ _ => hcalm.unchanged⟩
  have hscope : Quiet (.save "scope") := by
    show "scope" ≠ "protocol-journal"
    decide
  have horiginal : Quiet (.save "original") := stage_quiet .original
  refine follows_perform_bind.mpr fun r => ⟨trivial, fun _ _ => hraise (hh.snoc (by exact trivial)), fun _ _ => ?_⟩
  have h₁ := hh.snoc (e := .mkdir "artifacts") (r := r) trivial
  refine follows_perform_bind.mpr fun r => ⟨trivial, fun _ _ => hraise (h₁.snoc (by exact trivial)), fun _ _ => ?_⟩
  have h₂ := h₁.snoc (e := .verifyScope) (r := r) trivial
  refine follows_perform_bind.mpr fun r => ⟨trivial, fun _ _ => hraise (h₂.snoc hscope), fun _ _ => ?_⟩
  have h₃ := h₂.snoc (e := .save "scope") (r := r) hscope
  refine follows_perform_bind.mpr fun r =>
    ⟨trivial, fun _ _ => hraise (h₃.snoc (by exact trivial)), fun original _ => ?_⟩
  have h₄ := h₃.snoc (e := .state) (r := r) trivial
  refine follows_perform_bind.mpr fun r => ⟨trivial, fun _ _ => hraise (h₄.snoc horiginal), fun _ _ => ?_⟩
  have h₅ := h₄.snoc (e := .save "original") (r := r) horiginal
  -- The checks of the captured state ask for nothing.
  refine follows_ofResult_bind.mpr ⟨fun _ _ => hraise h₅, fun _ _ => ?_⟩
  refine follows_ofResult_bind.mpr ⟨fun _ _ => hraise h₅, fun documents _ => ?_⟩
  refine follows_ofResult_bind.mpr ⟨fun _ _ => hraise h₅, fun payments _ => ?_⟩
  refine follows_ofResult_bind.mpr ⟨fun _ _ => hraise h₅, fun paymentsVariant _ => ?_⟩
  refine follows_ofResult_bind.mpr ⟨fun _ _ => hraise h₅, fun risk _ => ?_⟩
  refine follows_ofResult_bind.mpr ⟨fun _ _ => hraise h₅, fun riskVariant _ => ?_⟩
  refine follows_ofResult_bind.mpr ⟨fun _ _ => hraise h₅, fun paymentsSpec _ => ?_⟩
  refine follows_ofResult_bind.mpr ⟨fun _ _ => hraise h₅, fun riskSpec _ => ?_⟩
  refine follows_ofResult_bind.mpr ⟨fun _ _ => hraise h₅, fun identities _ => ?_⟩
  have hstage : ∀ s h, (H.stage runId .original [] false).Follows (Allowed H) s h fun _ s' h' =>
      Advance false s h s' h' :=
    fun s h => (stage_follows (fun _ _ => Quiet.allowed) s h).mono fun _ _ _ hadvance => hadvance.1
  refine follows_bind.mpr (Process.Follows.mono (hstage _ _) ?_)
  rintro out h₆ ⟨r, s', rfl, a⟩
  obtain ⟨g, rfl, hg⟩ := a.calm
  have h₇ := h₅.append hg
  refine follows_ofResult_bind.mpr ⟨fun _ _ => hraise h₇, fun _ _ => ?_⟩
  refine follows_perform_bind.mpr fun r => ⟨trivial, fun x hx => ⟨h₇.unread.snoc nofun, fun _ _ => ?_⟩,
    fun _ _ => ⟨h₇.unread.snoc nofun, nofun⟩⟩
  refine h₇.unchanged.snoc ?_ nofun
  rw [hx]
  nofun

/-- **The run is safe**, and with a journal both restorations were tried. -/
theorem runFrom_follows {runId : String} {h : History Sandbox} (hh : Calm h) (hstart : Runs start h (.ok runId)) :
    Process.Follows (Allowed H) (H.runFrom runId) h fun _ h' =>
      (⟨.save "protocol-journal", .ok ()⟩ : Event Sandbox) ∈ h' → BothTried H h' := by
  -- What the receipt asks for is no journal.
  have hfinal : ∀ errors, Within (fun e : SandboxEffect => e ≠ .save "protocol-journal") (ProtocolHarness.finalReceipt errors) := by
    intro errors
    refine Within.bind ?_ fun es => Within.bind ?_ fun es' => ?_
    · exact Within.bind (within_attempt.mpr (within_perform.mpr nofun)) fun r => by cases r <;> trivial
    · unfold ProtocolHarness.release
      split
      · exact Within.bind (within_attempt.mpr (within_perform.mpr nofun)) fun r => by cases r <;> trivial
      · trivial
    · split
      · trivial
      · exact Within.bind (within_attempt.mpr (within_perform.mpr nofun)) fun r => by cases r <;> trivial
  have hreraise : ∀ (outcome : Except Raised Unit) (h : History Sandbox) (P : History Sandbox → Prop), P h →
      Process.Follows (Allowed H) (reraise outcome) h fun _ h' => P h' := by
    intro outcome h P hP
    unfold reraise
    split
    · exact hP
    · split
      · exact hP
      · exact hP
  refine follows_bind.mpr (follows_attempt.mpr ((prepare_follows hh).and_runs.mono ?_))
  rintro (x | context) h₁ ⟨⟨hunread, hunchanged⟩, p, rfl, hprepare⟩
  · have hnone := hunchanged x rfl
    refine follows_bind.mpr ((finalReceipt_follows (H := H) fun _ => .inl ?_).and_runs.mono ?_)
    · exact hnone.snoc nofun nofun
    rintro r h₂ ⟨-, g, rfl, hruns⟩
    have hno : (⟨.save "protocol-journal", .ok ()⟩ : Event Sandbox) ∉ h ++ p ++ g := by
      intro hmem
      rcases List.mem_append.mp hmem with hfirst | hsecond
      · exact hnone.1 hfirst
      · exact ((hfinal []).path hruns).1 _ hsecond rfl
    cases r with
    | error y => exact fun hmem => absurd hmem hno
    | ok u => exact hreraise _ _ _ fun hmem => absurd hmem hno
  · refine follows_bind.mpr ((Follows.and_runs (forward_follows ⟨context, []⟩ hunread)).mono ?_)
    rintro out h₂ ⟨⟨outcome, s', rfl, horiginal, hvariants⟩, f, rfl, hforward⟩
    have hat : AtCleanup H runId (h ++ p ++ f) s'.context :=
      ⟨h, p, f, context, outcome, s'.errors, rfl, hstart, hprepare, hforward, horiginal, hvariants⟩
    refine follows_bind.mpr (Process.Follows.mono (cleanup_follows hat) ?_)
    rintro out h₃ ⟨r, s₃, rfl, hboth, hcleaned⟩
    refine follows_bind.mpr ((finalReceipt_follows (H := H) fun e => .inr ?_).and_runs.mono ?_)
    · obtain ⟨g, rfl, hclean⟩ := hcleaned e
      exact ⟨runId, s'.context, h ++ p ++ f, g, hat, hclean, rfl⟩
    rintro r h₄ ⟨-, g, rfl, -⟩
    cases r with
    | error y => exact fun _ => hboth.later g
    | ok u => exact hreraise _ _ _ fun _ => hboth.later g

/-- A run of the harness does what it may. -/
theorem run_follows (caseId : String) : Process.Follows (Allowed H) (H.run caseId) [] fun _ h' =>
    (⟨.save "protocol-journal", .ok ()⟩ : Event Sandbox) ∈ h' → BothTried H h' := by
  have hstart : Within Quiet start := by
    refine Within.bind (within_perform.mpr trivial) fun exists_ => ?_
    split
    · trivial
    · refine Within.bind (within_perform.mpr trivial) fun runId => Within.bind ?_ fun _ =>
        Within.bind (within_perform.mpr trivial) fun _ => trivial
      refine Within.bind (within_attempt.mpr (within_perform.mpr trivial)) fun r => ?_
      cases r <;> trivial
  unfold ProtocolHarness.run
  split
  · exact nofun
  · refine follows_bind.mpr ((Follows.within (G := Allowed H) (R := Calm) hstart (h := []) (by simp [Calm])
      fun h ev hh hev => ⟨Quiet.allowed hev, hh.snoc hev⟩).and_runs.mono ?_)
    rintro r h' ⟨hcalm, g, rfl, hruns⟩
    cases r with
    | error x => exact fun hmem => absurd rfl (hcalm _ hmem)
    | ok runId => exact runFrom_follows hcalm hruns

/-- **The recovery of a protocol rollout.** In every run, whatever raises and wherever: with a journal both
Deployments were tried to be restored; a restoration writes over nothing but the captured Deployment with its
journaled specification, as it was just read; and the latch goes only where nothing could have been changed,
or where everything was cleaned up and the receipt saved. -/
theorem protocol_recovery (H : ProtocolHarness) (caseId : String) :
    (∀ h r, Runs (H.run caseId) h r → (⟨.save "protocol-journal", .ok ()⟩ : Event Sandbox) ∈ h →
      BothTried H h) ∧
    (∀ h name expected spec r q, Path (H.run caseId) (h ++ [⟨.replaceSpec name expected spec, r⟩]) q →
      (∃ read ∈ h, ∃ target, read.effect = .deployment target) →
        ∃ runId context h₁ g, h = h₁ ++ g ++ [⟨.deployment name, .ok expected⟩] ∧
          AtCleanup H runId h₁ context ∧ Restores context name expected spec) ∧
    ∀ h r q, Path (H.run caseId) (h ++ [⟨.unlinkLatch, r⟩]) q → Releasable H h := by
  refine ⟨fun h r hruns => ?_, fun h name expected spec r q hpath => ?_, fun h r q hpath => ?_⟩
  · simpa using (run_follows caseId).runs hruns
  · simpa [Allowed] using (run_follows caseId).event hpath
  · simpa [Allowed] using (run_follows caseId).event hpath

end PayOps.Scenarios
