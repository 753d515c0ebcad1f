import PayOps.Orchestrator.Steps
import PayOps.Orchestrator.LoopOnce

/-!
# Every investigation ends in a report

The last node builds the report from what the earlier nodes left. It can: the evidence is the
incident's own and the causes cite it, in every state that was ever saved, if no collection held two
items of one name.

## What is proved

* `drive_keeps`, `call_keeps` — every state that is saved is sound, if the collections were distinct.
* `finish_reports` — **main result**: in such a history the last node never raises.
* `duplicate_collection_stuck` — a collection that repeats an item is accepted, and the last node raises.
-/

namespace PayOps.Orchestrator

open Process Program Evidence

variable [Platform] [Retention] [SourceChecks] [Rendering] [BaselineTexts]

/-- No two items of the collection have one name. -/
def Collection.Distinct (c : Collection) : Prop := (c.evidence.map EvidenceItem.evidenceId).Nodup

instance (c : Collection) : Decidable c.Distinct := inferInstanceAs (Decidable (List.Nodup _))

/-- A node of the graph before which there are no causes. -/
def Node.early : Node → Bool
  | triage => true
  | reserve => true
  | collect => true
  | _ => false

/-- What is saved may be reported, and has no causes before the ranking. -/
structure Checkpoint.Sound (cp : Checkpoint) : Prop where
  /-- It may be reported. -/
  reportable : Reportable cp.state
  /-- Causes come with the ranking. -/
  unranked : ∀ node ∈ cp.next, node.early = true → cp.state.hypotheses = []

/-- What may be written: sound checkpoints, and distinct collections. -/
def Effect.Sound : Effect → Prop
  | saveCheckpoint _ cp => cp.Sound
  | writeResult _ c => c.Distinct
  | _ => True

/-- What is assumed of the answers. -/
def Assumed : Event Host → Prop
  | ⟨.collect _, .ok c⟩ => c.Distinct
  | ⟨.readResult _, .ok c⟩ => c.Distinct
  | ⟨.loadCheckpoint _, .ok (some cp)⟩ => cp.Sound
  | _ => True

omit [Retention] [SourceChecks] [Rendering] [BaselineTexts] in
theorem sound_of_reasons (e : Effect) (h : e.reasons = true) : e.Sound := by
  cases e <;> trivial

/-! ### The nodes -/

omit [Retention] [SourceChecks] [Rendering] [BaselineTexts] in
theorem reserveAttempt_sound (root : String) (s : InvestigationState) (node : Node) :
    Within Effect.Sound (reserveAttempt root s node) := by
  refine (within_perform.mpr trivial).bind fun _ => (within_perform.mpr trivial).bind fun files => Within.bind ?_ fun allowed => ?_
  · unfold mayStart
    split_ifs
    · trivial
    · exact (within_perform.mpr trivial).bind fun _ => trivial
  · split_ifs
    · exact (within_perform.mpr trivial).bind fun _ => (within_perform.mpr trivial).bind fun _ => (within_perform.mpr trivial).bind fun _ =>
        (within_ofResult _).bind fun _ => trivial
    · exact (within_ofResult _).bind fun _ => trivial

omit [Retention] [SourceChecks] [Rendering] [BaselineTexts] in
/-- A node keeps what its operation keeps. -/
theorem step_keeps {root : String} {s : InvestigationState} {node : Node}
    {operation : InvestigationState → Program Host InvestigationState}
    {R : InvestigationState → Prop} (hattempt : ∀ r, Kept s r → R r)
    (hop : ∀ r, Kept s r → Keeps Assumed Effect.Sound R (operation r))
    (hsteps : ∀ r steps, R r → R { r with steps := steps }) :
    Keeps Assumed Effect.Sound R (step root s node operation) := by
  refine ((reserveAttempt_sound root s node).keeps (reserveAttempt_returns root s node)).bind
    fun reserved hreserved => Keeps.bind (Q := R) ?_ fun result hresult => ?_
  · unfold operate
    split_ifs
    · exact hattempt reserved hreserved
    · exact hop reserved hreserved
  · refine (keeps_perform (Q := fun _ => True) trivial fun _ _ => trivial).bind fun _ _ => ?_
    exact (keeps_perform (Q := fun _ => True) trivial fun _ _ => trivial).bind fun _ _ =>
      hsteps result _ hresult

/-- Before the ranking: what is found may be reported, and there are no causes. -/
structure Early (s : InvestigationState) : Prop where
  /-- The evidence is the incident's own. -/
  own : Own s.incident.incidentId s.evidence
  /-- There are no causes. -/
  unranked : s.hypotheses = []

omit [Retention] [SourceChecks] [Rendering] [BaselineTexts] in
theorem Early.reportable {s : InvestigationState} (h : Early s) : Reportable s :=
  ⟨h.own, h.unranked ▸ .nil _⟩

omit [Retention] [SourceChecks] [Rendering] [BaselineTexts] in
theorem Early.kept {s s' : InvestigationState} (h : Early s) (hk : Kept s s') : Early s' := by
  refine ⟨?_, hk.hypotheses.trans h.unranked⟩
  rw [hk.advances.incident, hk.evidence]
  exact h.own

omit [Rendering] [BaselineTexts] in
theorem verifyCollected_returns (incidentId : Identifier) (items : List EvidenceItem) :
    (verifyCollected incidentId items).Returns fun _ => ∀ item ∈ items, item.incidentId = incidentId := by
  induction items with
  | nil => exact fun _ h => (List.not_mem_nil h).elim
  | cons item items ih =>
    unfold verifyCollected
    split_ifs with hother
    · trivial
    · refine (Reading.returns_true _).bind fun _ _ => ?_
      refine Reading.Returns.mono ih fun _ hitems => ?_
      exact List.forall_mem_cons.mpr ⟨not_not.mp hother, hitems⟩

omit [Rendering] [BaselineTexts] in
theorem collected_keeps {root : String} {s : InvestigationState} {result : Collection} (h : Early s)
    (hresult : result.Distinct) : Keeps Assumed Effect.Sound Early (collected root s result) := by
  refine keeps_raiseIf_bind fun _ => ?_
  have hreading := (reading_quiet (artifactsRoot root s.incident.incidentId)
    (verifyCollected s.incident.incidentId result.evidence)).mono sound_of_reasons
  exact (hreading.keeps ((verifyCollected_returns _ _).program _)).bind fun _ hown =>
    ⟨⟨hresult, hown⟩, h.unranked⟩

omit [Rendering] [BaselineTexts] in
theorem collection_keeps {root : String} {s : InvestigationState} (h : Early s) :
    Keeps Assumed Effect.Sound Early (collection root s) := by
  refine (keeps_perform (Q := fun _ => True) trivial fun _ _ => trivial).bind fun retained _ => ?_
  cases retained with
  | true =>
    exact (keeps_perform (Q := Collection.Distinct) trivial fun _ => id).bind fun result hresult =>
      collected_keeps h hresult
  | false =>
    refine (keeps_perform (Q := fun _ => True) trivial fun _ _ => trivial).bind fun _ _ => ?_
    refine (keeps_perform (Q := Collection.Distinct) trivial fun _ => id).bind fun result hresult => ?_
    refine (keeps_perform (Q := fun _ => True) trivial fun _ _ => trivial).bind fun _ _ => ?_
    exact (keeps_perform (Q := fun _ => True) hresult fun _ _ => trivial).bind fun _ _ =>
      collected_keeps h hresult

omit [Rendering] [BaselineTexts] in
theorem collect_keeps {root : String} {s : InvestigationState} (h : Early s) :
    Keeps Assumed Effect.Sound Early (collect root s) := by
  unfold collect
  split_ifs
  · exact ⟨h.own, h.unranked⟩
  · refine (keeps_perform (Q := fun _ => True) trivial fun _ _ => trivial).bind fun _ _ => ?_
    exact (collection_keeps h).tryCatch fun x => keeps_ofResult fun s' hs' =>
      h.kept (collectionFailed_kept hs')

/-- **What a node keeps**: what may be reported, and that causes come with the ranking. -/
theorem run_keeps (N : InvestigationNodes) {node : Node} {s : InvestigationState} (h : Reportable s)
    (hearly : node.early = true → s.hypotheses = []) :
    Keeps Assumed Effect.Sound (fun s' => Reportable s' ∧ (node.early = true → s'.hypotheses = []))
      (N.run node s) := by
  have early (hnode : node.early = true) : Early s := ⟨h.own, hearly hnode⟩
  have both : ∀ s', Early s' → Reportable s' ∧ (node.early = true → s'.hypotheses = []) :=
    fun s' h' => ⟨h'.reportable, fun _ => h'.unranked⟩
  cases node with
  | triage =>
    refine Keeps.mono ?_ both
    exact step_keeps (fun r => (early rfl).kept)
      (fun r hr => ((early rfl).kept hr).kept (triage_kept r)) fun r steps hr => ⟨hr.own, hr.unranked⟩
  | reserve =>
    refine Keeps.mono ?_ both
    exact step_keeps (fun r => (early rfl).kept)
      (fun r hr => keeps_ofResult fun s' hs' => ((early rfl).kept hr).kept (reserve_kept hs'))
      fun r steps hr => ⟨hr.own, hr.unranked⟩
  | collect =>
    refine Keeps.mono ?_ both
    exact step_keeps (fun r => (early rfl).kept) (fun r hr => collect_keeps ((early rfl).kept hr))
      fun r steps hr => ⟨hr.own, hr.unranked⟩
  | rank =>
    refine Keeps.mono (Q := Reportable) ?_ fun s' h' => ⟨h', fun hrank => by cases hrank⟩
    refine step_keeps (fun r hr => hr.moves.reportable h) (fun r hr => ?_) fun r steps hr =>
      ⟨hr.own, hr.causes⟩
    exact ((rank_reasons N r).mono sound_of_reasons).keeps
      ((rank_moves N r).mono fun s' hs' => hs'.reportable (hr.moves.reportable h))
  | finish =>
    refine Keeps.mono (Q := Reportable) ?_ fun s' h' => ⟨h', fun hfinish => by cases hfinish⟩
    have hsound : Within Effect.Sound (finish s) :=
      (within_perform.mpr trivial).bind fun _ => (within_ofResult _).bind fun _ => trivial
    exact hsound.keeps ((finish_kept s).mono fun s' hs' => hs'.moves.reportable h)

/-! ### The calls -/

omit [Platform] [Retention] [SourceChecks] [Rendering] [BaselineTexts] in
theorem edge_early [Platform] {node n : Node} {s : InvestigationState} {next : Option Node}
    (h : edge node s = .ok next) (hn : n ∈ next) (hearly : n.early = true) : node.early = true := by
  cases node with
  | triage | reserve | collect => rfl
  | rank => cases h; cases hn; cases hearly
  | finish => cases h; cases hn

/-- **The graph saves sound checkpoints.** -/
theorem drive_keeps (W : InvestigationWorker) (thread : String) (limit : ℕ) (entered : Bool) (node : Node)
    (s : InvestigationState) (h : Checkpoint.Sound ⟨s, some node⟩) :
    Keeps Assumed Effect.Sound (fun _ => True) (W.drive thread limit entered node s) := by
  induction limit generalizing entered node s with
  | zero => trivial
  | succ limit ih =>
    unfold InvestigationWorker.drive
    split_ifs
    · trivial
    refine (run_keeps W.nodes h.reportable (h.unranked node rfl)).bind fun s' hs' => ?_
    obtain ⟨hreportable, hearly⟩ := hs'
    cases hedge : edge node s' with
    | error x => trivial
    | ok next =>
      have hsound : Checkpoint.Sound ⟨s', next⟩ :=
        ⟨hreportable, fun n hn hne => hearly (edge_early hedge hn hne)⟩
      refine (keeps_perform (Q := fun _ => True) hsound fun _ _ => trivial).bind fun _ _ => ?_
      cases next with
      | none => trivial
      | some n => exact ih true n s' hsound

theorem invoke_keeps (W : InvestigationWorker) (incidentId : Identifier)
    (initial : Option InvestigationState) (h : ∀ s ∈ initial, Early s) :
    Keeps Assumed Effect.Sound (fun _ => True) (W.invoke incidentId initial) := by
  refine (keeps_perform (Q := fun _ => True) trivial fun _ _ => trivial).bind fun _ _ => ?_
  refine (keeps_perform (Q := fun found : Option Checkpoint => ∀ cp ∈ found, cp.Sound) trivial ?_).bind
    fun found hfound => ?_
  · intro found hfound cp hcp
    rw [Option.mem_def.mp hcp] at hfound
    exact hfound
  cases found with
  | some snapshot =>
    refine (keeps_ofResult (Q := fun _ => True) fun _ _ => trivial).bind fun _ _ => ?_
    cases initial with
    | some s => exact keeps_raiseIf_bind fun _ => trivial
    | none =>
      dsimp only
      split_ifs
      · trivial
      cases hnext : snapshot.next with
      | none => trivial
      | some node =>
        refine drive_keeps W _ _ _ node snapshot.state ?_
        rw [← hnext]
        exact hfound snapshot rfl
  | none =>
    cases initial with
    | none => trivial
    | some s =>
      have hs : Checkpoint.Sound ⟨s, some .triage⟩ :=
        ⟨(h s rfl).reportable, fun _ _ _ => (h s rfl).unranked⟩
      exact (keeps_perform (Q := fun _ => True) hs fun _ _ => trivial).bind fun _ _ =>
        drive_keeps W _ _ _ _ s hs

theorem call_keeps {root : String} {incidentId : Identifier} {p : Program Host InvestigationState}
    (h : GraphCall root incidentId p) : Keeps Assumed Effect.Sound (fun _ => True) p := by
  have fresh : ∀ (W : InvestigationWorker) (incident : Incident) (budget : InvestigationBudget),
      ∀ s ∈ some (W.initial incident budget), Early s := by
    rintro W incident budget s ⟨⟩
    exact ⟨⟨List.nodup_nil, fun _ hitem => (List.not_mem_nil hitem).elim⟩, rfl⟩
  cases h with
  | start W incident budget _ _ =>
    cases budget with
    | some budget => exact invoke_keeps W _ _ (fresh W incident budget)
    | none =>
      exact (keeps_perform (Q := fun _ => True) trivial fun _ _ => trivial).bind fun now _ =>
        invoke_keeps W _ _ (fresh W incident _)
  | resume W _ => exact invoke_keeps W _ _ (by simp)

/-! ### Histories -/

/-- What holds of the durable state. -/
structure Durable.Sound (s : Durable) : Prop where
  /-- What is saved is sound. -/
  checkpoints : ∀ thread cp, s.checkpoints thread = some cp → cp.Sound
  /-- What was collected is distinct. -/
  results : ∀ directory c, s.result directory = some (some c) → c.Distinct

omit [SourceChecks] [Rendering] [BaselineTexts] in
/-- The durable state gives the assumptions, -/
theorem Durable.Sound.assumed {s s' : Durable} {e : Effect} {r : Except Fault e.Reply} (h : s.Sound)
    (hcollect : ∀ incident c, (⟨e, r⟩ : Event Host) = ⟨.collect incident, .ok c⟩ → c.Distinct)
    (ha : s.Answer e r s') : Assumed ⟨e, r⟩ := by
  cases r with
  | error x => cases e <;> trivial
  | ok a =>
    obtain ⟨t, hgrown, hreply⟩ := ha.reply
    cases e with
    | collect incident => exact hcollect incident a rfl
    | readResult directory =>
      refine h.results directory a ?_
      rw [← hgrown.result]
      simp only [Durable.exec] at hreply
      split at hreply <;> simp_all
    | loadCheckpoint thread =>
      simp only [Durable.exec, reduceCtorEq, false_or, Option.some.injEq, Prod.mk.injEq,
        Except.ok.injEq] at hreply
      cases a with
      | none => trivial
      | some cp => exact h.checkpoints thread cp (hgrown.checkpoints ▸ hreply.1)
    | _ => trivial

omit [SourceChecks] [Rendering] [BaselineTexts] in
/-- and is kept by what may be written. -/
theorem Durable.Sound.keeps {s s' : Durable} {e : Effect} {r : Except Fault e.Reply} (h : s.Sound)
    (he : e.Sound) (ha : s.Answer e r s') : s'.Sound := by
  obtain ⟨hcheckpoints, -, -, hresult⟩ := ha.filed
  refine ⟨fun thread cp hcp => ?_, fun directory c hc => ?_⟩
  · rcases hcheckpoints with hsame | ⟨saved, new, rfl, hsaved⟩
    · exact h.checkpoints thread cp (hsame ▸ hcp)
    · rw [hsaved] at hcp
      by_cases hthread : thread = saved
      · subst hthread
        rw [Function.update_self] at hcp
        cases hcp
        exact he
      · rw [Function.update_of_ne hthread] at hcp
        exact h.checkpoints thread cp hcp
  · rcases hresult with hsame | ⟨created, rfl, hnew⟩ | ⟨written, new, rfl, hnew⟩
    · exact h.results directory c (hsame ▸ hc)
    · rw [hnew] at hc
      by_cases hdirectory : directory = created
      · subst hdirectory
        rw [Function.update_self] at hc
        cases hc
      · rw [Function.update_of_ne hdirectory] at hc
        exact h.results directory c hc
    · rw [hnew] at hc
      by_cases hdirectory : directory = written
      · subst hdirectory
        rw [Function.update_self] at hc
        cases hc
        exact he
      · rw [Function.update_of_ne hdirectory] at hc
        exact h.results directory c hc

/-- A call on any incident. -/
def AnyGraphCall (p : Program Host InvestigationState) : Prop :=
  ∃ root incidentId, GraphCall root incidentId p

/-- A collection that the collector returned is distinct. -/
def collectsDistinct : Event Host → Bool
  | ⟨.collect _, .ok c⟩ => decide c.Distinct
  | _ => true

/-- **The durable state is sound in every history with distinct collections.** -/
theorem history_sound {c : Sessions Host Durable InvestigationState}
    (h : Serial Environment AnyGraphCall .empty c) (hC : ∀ ev ∈ c.events, collectsDistinct ev = true) :
    c.shared.Sound := by
  have hstart : Durable.empty.Sound := by
    constructor <;> intro _ _ hnone <;> cases hnone
  refine (Serial.guarded (h.only hC) hstart (G := fun _ _ _ s' => s'.Sound) (fun _ _ _ _ _ hs' => hs') ?_).1
  rintro p s ⟨root, incidentId, hp⟩ hs
  refine ((call_keeps hp).assures hs ?_ ?_).mono fun _ _ _ _ => trivial
  · intro s e r s' hs ha
    refine hs.assumed (fun incident c hev => ?_) ha.1
    have hdistinct := ha.2
    rw [hev] at hdistinct
    exact of_decide_eq_true hdistinct
  · exact fun s e r s' hs he ha => hs.keeps he ha.1

/-- **Every investigation ends in a report**: in every history of starts, resumptions and crashes whose
collections repeat no evidence, each state that was saved can be reported, and the last node moves it to
`FINISHED` with a report. It can only fail to get the name of a trace. -/
theorem finish_reports {c : Sessions Host Durable InvestigationState}
    (h : Serial Environment AnyGraphCall .empty c) (hC : ∀ ev ∈ c.events, collectsDistinct ev = true)
    {thread : String} {cp : Checkpoint} (hcp : c.shared.checkpoints thread = some cp) :
    (∀ traceId, ∃ report, reportOf cp.state traceId = .ok report) ∧
      ∀ g r, Runs (finish cp.state) g r → (∃ x, g = [⟨.newId, .error x⟩] ∧ r = .error x) ∨
        ∃ s', r = .ok s' ∧ s'.phase = .finished ∧ s'.report.isSome := by
  have hreportable := ((history_sound h hC).checkpoints thread cp hcp).reportable
  refine ⟨fun traceId => reportOf_eq_ok.mpr hreportable, fun g r hruns => ?_⟩
  rcases runs_perform_bind.mp hruns with ⟨x, hg, hr⟩ | ⟨traceId, g', hg, hrest⟩
  · exact .inl ⟨x, hg, hr⟩
  · have hreport : ∃ report, reportOf cp.state traceId = .ok report := reportOf_eq_ok.mpr hreportable
    obtain ⟨report, hreport⟩ := hreport
    rw [hreport] at hrest
    obtain ⟨-, rfl⟩ := runs_done.mp hrest
    exact .inr ⟨_, rfl, rfl, rfl⟩

end PayOps.Orchestrator

namespace PayOps.Orchestrator

open Process Program Evidence

/-! ### Two investigations -/

attribute [local instance] plainPlatform plainRetention plainRendering plainChecks

/-- Texts in which nothing is recognized. -/
@[reducible] def plainTexts : BaselineTexts where
  timestamp _ := none
  str _ := ""
  paymentPodName _ := false
  configHeader _ := false
  configDetail _ := false
  accessFailure _ := false

attribute [local instance] plainTexts

/-- An incident of the sandbox. -/
def sandboxIncident : Incident := { sampleIncident with nameSpace := ⟨"payops-sandbox", by decide⟩ }

/-- A worker that ranks by rules. -/
def sampleWorker : InvestigationWorker where
  nodes := ⟨"incidents", none⟩
  pause := false
  mode := .localKind
  collectionProfile := .instantV1
  rankingProfile := ⟨"deterministic-v1", by decide⟩
  rankingMethod := .deterministic
  profiled := by decide
  methodical := by decide
  local_or_replayed := .inl rfl

/-- The default allowances. -/
def sampleBudget : InvestigationBudget := InvestigationWorker.defaultBudget 0

theorem sample_summary : strippedOk 4000 "pods are ready" = true := by decide

theorem sample_query : strippedOk 4000 "get pods" = true := by decide

/-- An item about a pod. -/
def sampleItem : EvidenceItem where
  evidenceId := ⟨"pods", by decide⟩
  incidentId := sampleId
  source := .kubernetes
  observedAt := 0
  collectedAt := 0
  query := ⟨"get pods", sample_query⟩
  resource := sampleIncident.service
  artifactUri := ⟨"sha256://eeeeeeeeeeeeeeeeeeeeeeeeeeeeeeeeeeeeeeeeeeeeeeeeeeeeeeeeeeeeeeee", by decide⟩
  artifactSha256 := plainDigest 'e'
  summary := ⟨"pods are ready", sample_summary⟩

/-- The artifact of the item. -/
def sampleArtifact : Artifact := .envelope sampleItem.metadata [("payload", .obj [])]

/-- The state after a collector has retained the artifact. -/
def collecting (s : Durable) : Durable :=
  let found (digest : Digest) := if digest = plainDigest 'e' then some sampleArtifact else none
  { s with artifacts := fun root digest => (s.artifacts root digest).or (found digest) }

theorem collecting_grown (s : Durable) : s.Grown (collecting s) := by
  refine ⟨fun root digest content hheld => ?_, rfl, rfl, rfl, rfl, rfl⟩
  simp [collecting, hheld]

/-- A host outside the durable state that grants everything. -/
def grantingOutside : (e : Effect) → Except Fault e.Reply
  | .lock _ => .ok ()
  | .mkdir _ => .ok ()
  | .utcNow => .ok 0
  | .elapsed => .ok .zero
  | .newId => .ok "trace"
  | .writeAttempt _ _ _ => .ok ()
  | _ => .error (.other "")

/-- A host whose collector finds these items. -/
def collectorHost (evidence : List EvidenceItem) : Handler Host Durable
  | .collect _, s => (.ok ⟨"inc-1", evidence, []⟩, collecting s)
  | e, s => Durable.handler grantingOutside e s

theorem collectorHost_answer (evidence : List EvidenceItem) (e : Effect) (s : Durable) :
    Environment.answer s e (collectorHost evidence e s).1 (collectorHost evidence e s).2 := by
  cases e with
  | collect incident => exact .outside (collecting_grown s) rfl
  | _ => exact Durable.handler_answer grantingOutside _ s

/-- The history of the first start of an investigation. -/
def collectorRun (evidence : List EvidenceItem) : Sessions Host Durable InvestigationState :=
  Sessions.ran (collectorHost evidence) ⟨.empty, []⟩
    (sampleWorker.start sandboxIncident (some sampleBudget))

theorem collectorRun_serial (evidence : List EvidenceItem) :
    Serial Environment AnyGraphCall .empty (collectorRun evidence) :=
  Serial.call .refl (collectorHost_answer evidence)
    ⟨"incidents", sandboxIncident.incidentId, .start sampleWorker sandboxIncident _ rfl rfl⟩

/-- **A collection that repeats an item is accepted, and the last node raises**: the history ends with a
checkpoint before the last node, whose state has the item twice. -/
theorem duplicate_collection_stuck : ∃ c : Sessions Host Durable InvestigationState,
    Serial Environment AnyGraphCall .empty c ∧ ∃ cp, c.shared.checkpoints "inc-1" = some cp ∧
      cp.next = some .finish ∧ cp.state.evidence = [sampleItem, sampleItem] ∧
      ∀ traceId, reportOf cp.state traceId = .error (.value "duplicate evidence IDs") := by
  refine ⟨collectorRun [sampleItem, sampleItem], collectorRun_serial _, ?_⟩
  have hstuck : ((collectorRun [sampleItem, sampleItem]).shared.checkpoints "inc-1").any (fun cp =>
      cp.next == some .finish && cp.state.evidence == [sampleItem, sampleItem] &&
        citationFailure cp.state.incident.incidentId cp.state.evidence cp.state.hypotheses ==
          some "duplicate evidence IDs") = true := by decide +kernel
  cases hcp : (collectorRun [sampleItem, sampleItem]).shared.checkpoints "inc-1" with
  | none => rw [hcp] at hstuck; cases hstuck
  | some cp =>
  rw [hcp] at hstuck
  simp only [Option.any_some, Bool.and_eq_true, beq_iff_eq] at hstuck
  obtain ⟨⟨hnext, hevidence⟩, hfailure⟩ := hstuck
  refine ⟨cp, rfl, hnext, hevidence, fun traceId => ?_⟩
  unfold reportOf
  split
  · rename_i message heq
    rw [hfailure] at heq
    cases heq
    rfl
  · rename_i heq
    rw [hfailure] at heq
    cases heq

/-- Without the repetition the investigation ends in a report. -/
theorem finish_reports_sample : ∃ cp, (collectorRun [sampleItem]).shared.checkpoints "inc-1" = some cp ∧
    ∃ report, reportOf cp.state "trace" = .ok report := by
  have hsaved : ((collectorRun [sampleItem]).shared.checkpoints "inc-1").isSome = true := by
    decide +kernel
  obtain ⟨cp, hcp⟩ := Option.isSome_iff_exists.mp hsaved
  have hdistinct : ∀ ev ∈ (collectorRun [sampleItem]).events, collectsDistinct ev = true := by
    decide +kernel
  exact ⟨cp, hcp, (finish_reports (collectorRun_serial [sampleItem]) hdistinct hcp).1 "trace"⟩

end PayOps.Orchestrator
