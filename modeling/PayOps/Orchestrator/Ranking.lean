import PayOps.Orchestrator.LogRecords

/-!
# What a ranking stands on

`rank_evidence` of `payops.orchestrator.baseline`, in terms of the evidence it is given.

## What is proved

* `verified_eval`, `rankEvidence_eval` — a ranking is made of the signals of the evidence that are current.
* `rules_perm` — the order of the signals is in no rule but in the order of its parts.
* `rank_sound` — **main result**: what a ranking cites is verified and recent, every cause is corroborated by
  each of its predicates, the causes are distinct and in the order of their scores, and the order of the
  evidence matters to none of this.

## Honest scope

The uid of an event is compared as `str` writes it, as in the source: an event without one is that of a pod
whose uid is the text `None`.
-/

namespace PayOps.Orchestrator.Baseline

open Evidence

section Signals

variable [Platform] [Retention] {held : Digest → Option Artifact}

/-! ### Signals -/

/-- The signal of an item that verifies, and whose payload is a mapping. -/
def signalOf (held : Digest → Option Artifact) (item : EvidenceItem) : Option Signal :=
  match (ArtifactStore.verify item).eval held with
  | .error _ => none
  | .ok fields => match Json.field fields "payload" with
    | some (.obj payload) => some ⟨item, payload⟩
    | _ => none

/-- The signal is not after its own collection, and at most two minutes older than the latest one. -/
def current (latest : Time) (signal : Signal) : Bool :=
  let age := latest - signal.item.observedAt
  0 ≤ age ∧ age ≤ MAX_AGE_SECONDS ∧ signal.item.observedAt ≤ signal.item.collectedAt

theorem signalOf_item {item : EvidenceItem} {signal : Signal} (h : signalOf held item = some signal) :
    signal.item = item := by
  unfold signalOf at h
  split at h
  · cases h
  · split at h
    · cases h
      rfl
    · cases h

/-- The item of a signal verifies. -/
theorem signalOf_verified {item : EvidenceItem} {signal : Signal} (h : signalOf held item = some signal) :
    ∃ fields, (ArtifactStore.verify item).eval held = .ok fields := by
  unfold signalOf at h
  split at h
  · cases h
  · exact ⟨_, ‹_›⟩

theorem verifiedItems_eval {latest : Time} {items : List EvidenceItem} {signals : List Signal} :
    (verifiedItems latest items).eval held = .ok signals ↔
      (∀ item ∈ items, (signalOf held item).isSome) ∧
        signals = (items.filterMap (signalOf held)).filter (current latest) := by
  induction items generalizing signals with
  | nil =>
    simp only [verifiedItems, Reading.eval, Except.ok.injEq, List.not_mem_nil, false_imp_iff, implies_true,
      true_and, List.filterMap_nil, List.filter_nil]
    exact eq_comm
  | cons item items ih =>
    simp only [verifiedItems, Reading.bind_eq, Reading.eval_bind]
    cases hverified : (ArtifactStore.verify item).eval held with
    | error x =>
      have hnone : signalOf held item = none := by
        simp only [signalOf, hverified]
      simp [Except.bind, hnone]
    | ok fields =>
      have hsignal : signalOf held item = match Json.field fields "payload" with
          | some (.obj payload) => some ⟨item, payload⟩
          | _ => none := by
        simp only [signalOf, hverified]
      simp only [Except.bind]
      split
      · rename_i payload hpayload
        simp only [hpayload] at hsignal
        rw [Reading.eval_bind, List.forall_mem_cons, hsignal, List.filterMap_cons_some hsignal]
        cases hrest : (verifiedItems latest items).eval held with
        | error x =>
          simp only [Except.bind, reduceCtorEq, Option.isSome_some, true_and, false_iff, not_and]
          intro hall
          have hok := ih.mpr ⟨hall, rfl⟩
          rw [hrest] at hok
          cases hok
        | ok rest =>
          obtain ⟨hall, rfl⟩ := ih.mp hrest
          simp only [Except.bind, Reading.pure_eq, Reading.eval, Except.ok.injEq, Option.isSome_some, true_and]
          rw [and_iff_right hall, List.filter_cons, eq_comm]
          simp [current]
      · rename_i hother
        have hnone : signalOf held item = none := by
          rw [hsignal]
          split
          · exact absurd ‹_› (hother _)
          · rfl
        simp [Reading.eval, hnone]

/-- **What is read of the evidence**: every item has to verify, and those that are current are kept. -/
theorem verified_eval {evidence : List EvidenceItem} {signals : List Signal} :
    (verified evidence).eval held = .ok signals ↔
      (evidence.map EvidenceItem.incidentId).dedup.length ≤ 1 ∧ (evidence.map EvidenceItem.evidenceId).Nodup ∧
        (∀ item ∈ evidence, (signalOf held item).isSome) ∧
          signals = (evidence.filterMap (signalOf held)).filter (current (latest evidence)) := by
  unfold verified
  split_ifs with hcross hids
  · simp only [Reading.eval, reduceCtorEq, false_iff]
    omega
  · rw [verifiedItems_eval, and_iff_right (not_lt.mp hcross), and_iff_right hids]
  · simp [Reading.eval, hids]

omit [Retention] in
theorem le_latest {evidence : List EvidenceItem} {item : EvidenceItem} (h : item ∈ evidence) :
    item.collectedAt ≤ latest evidence := by
  have hmem : item.collectedAt ∈ evidence.map EvidenceItem.collectedAt := List.mem_map_of_mem h
  unfold latest
  cases hmax : (evidence.map EvidenceItem.collectedAt).max? with
  | none =>
    rw [List.max?_eq_none_iff.mp hmax] at hmem
    cases hmem
  | some m => exact (List.max?_eq_some_iff.mp hmax).2 _ hmem

omit [Retention] in
/-- The latest collection depends on no order. -/
theorem latest_perm {evidence evidence' : List EvidenceItem} (h : evidence'.Perm evidence) :
    latest evidence' = latest evidence := by
  have hmap := h.map EvidenceItem.collectedAt
  have hsame : (evidence'.map EvidenceItem.collectedAt).max? = (evidence.map EvidenceItem.collectedAt).max? := by
    cases hmax : (evidence.map EvidenceItem.collectedAt).max? with
    | none =>
      rw [List.max?_eq_none_iff] at hmax ⊢
      exact List.perm_nil.mp (hmax ▸ hmap)
    | some m =>
      obtain ⟨hmem, hle⟩ := List.max?_eq_some_iff.mp hmax
      exact List.max?_eq_some_iff.mpr ⟨hmap.mem_iff.mpr hmem, fun b hb => hle b (hmap.mem_iff.mp hb)⟩
  unfold latest
  rw [hsame]

/-- The signals of evidence in another order are the same, in another order. -/
theorem verified_perm {evidence evidence' : List EvidenceItem} {signals : List Signal}
    (h : evidence'.Perm evidence) (hv : (verified evidence).eval held = .ok signals) :
    ∃ signals', (verified evidence').eval held = .ok signals' ∧ signals'.Perm signals := by
  obtain ⟨hown, hids, hall, rfl⟩ := verified_eval.mp hv
  refine ⟨_, verified_eval.mpr ⟨?_, ?_, fun item hi => hall item (h.mem_iff.mp hi), rfl⟩, ?_⟩
  · rwa [((h.map _).dedup).length_eq]
  · exact (h.map _).nodup_iff.mpr hids
  · rw [latest_perm h]
    exact (h.filterMap _).filter _

end Signals

/-! ### Rules -/

section Rules

variable [Platform] [BaselineTexts]

/-- The same cause and score, from the same parts in some order. -/
structure Rule.Same (rule rule' : Rule) : Prop where
  /-- The cause, -/
  code : rule.code = rule'.code
  /-- its score, -/
  score : rule.score = rule'.score
  /-- and its parts. -/
  parts : List.Forall₂ List.Perm rule.parts rule'.parts

/-- The same cause and score, with the same support. -/
structure Agree (h h' : RootCauseHypothesis) : Prop where
  /-- The cause, -/
  code : h.causeCode = h'.causeCode
  /-- its score, -/
  score : h.confidence = h'.confidence
  /-- and what supports it. -/
  support : ∀ i, i ∈ h.supportingEvidenceIds ↔ i ∈ h'.supportingEvidenceIds

omit [BaselineTexts] in
theorem mem_supporting {code : Identifier} {score : { q : ℚ // 0 ≤ q ∧ q ≤ 1 }} {signals : List Signal}
    {i : Identifier} : i ∈ (Baseline.hypothesis code score signals).supportingEvidenceIds ↔
      ∃ signal ∈ signals, signal.item.evidenceId = i := by
  simp [Baseline.hypothesis]

omit [BaselineTexts] in
theorem isEmpty_perm {parts parts' : List (List Signal)} (h : List.Forall₂ List.Perm parts parts') :
    parts.any List.isEmpty = parts'.any List.isEmpty := by
  induction h with
  | nil => rfl
  | cons hpart _ ih => rw [List.any_cons, List.any_cons, ih, hpart.isEmpty_eq]

omit [BaselineTexts] in
theorem Rule.Same.hypothesis {rule rule' : Rule} (h : rule.Same rule') :
    Option.Rel Agree rule.hypothesis rule'.hypothesis := by
  unfold Rule.hypothesis
  rw [isEmpty_perm h.parts]
  split_ifs
  · exact .none
  · refine .some ⟨h.code, congrArg Subtype.val h.score, fun i => ?_⟩
    have hflat : rule.parts.flatten.Perm rule'.parts.flatten := List.Perm.flatten_congr h.parts
    simp only [mem_supporting, hflat.mem_iff]

omit [BaselineTexts] in
/-- Rules that are the same, one by one, give hypotheses that agree. -/
theorem agree_of_same {list list' : List Rule} (h : List.Forall₂ Rule.Same list list') :
    List.Forall₂ Agree (list.filterMap Rule.hypothesis) (list'.filterMap Rule.hypothesis) := by
  induction h with
  | nil => exact .nil
  | @cons rule rule' list list' hrule _ ih =>
    have hrel := hrule.hypothesis
    rw [List.filterMap_cons, List.filterMap_cons]
    generalize rule.hypothesis = h, rule'.hypothesis = h' at hrel ⊢
    cases hrel with
    | none => exact ih
    | some hagree => exact .cons hagree ih

theorem readinessEvent_congr {uids uids' : List String} (h : ∀ u, u ∈ uids ↔ u ∈ uids') (signal : Signal) :
    readinessEvent uids signal = readinessEvent uids' signal := by
  unfold readinessEvent
  simp only [h]

/-- **Rules do not depend on the order of the signals.** -/
theorem rules_perm {signals signals' : List Signal} (h : signals.Perm signals') :
    List.Forall₂ Rule.Same (rules signals) (rules signals') := by
  have hpart (p : Signal → Bool) : (signals.filter p).Perm (signals'.filter p) := h.filter p
  have huids := (hpart runningUnready).filterMap fun signal =>
    (Json.field signal.payload "resource_uid").bind Json.asStr
  have hevent := funext (readinessEvent_congr fun u => huids.mem_iff)
  have hprobes : (signals.filter (readinessEvent ((signals.filter runningUnready).filterMap fun signal =>
      (Json.field signal.payload "resource_uid").bind Json.asStr))).Perm
      (signals'.filter (readinessEvent ((signals'.filter runningUnready).filterMap fun signal =>
        (Json.field signal.payload "resource_uid").bind Json.asStr))) := by
    rw [← hevent]
    exact hpart _
  exact .cons ⟨rfl, rfl, .cons (hpart _) (.cons (hpart _) (.cons (hpart _) .nil))⟩
    (.cons ⟨rfl, rfl, .cons (hpart _) (.cons (hpart _) (.cons hprobes .nil))⟩
    (.cons ⟨rfl, rfl, .cons (hpart _) (.cons (hpart _) (.cons (hpart _) .nil))⟩
    (.cons ⟨rfl, rfl, .cons (hpart _) (.cons (hpart _) .nil)⟩ .nil)))

end Rules

/-! ### Rankings -/

section Ranking

variable [Platform] [BaselineTexts] [Retention] {held : Digest → Option Artifact} {evidence : List EvidenceItem}
  {ranked : List RootCauseHypothesis}

theorem rankEvidence_eval : (rankEvidence evidence).eval held = .ok ranked ↔
    ∃ signals, (verified evidence).eval held = .ok signals ∧ ranked = (rules signals).filterMap Rule.hypothesis := by
  simp only [rankEvidence, Reading.bind_eq, Reading.eval_bind]
  cases (verified evidence).eval held with
  | error x => simp [Except.bind]
  | ok signals => simp [Except.bind, Reading.eval, eq_comm]

/-- A signal that a hypothesis cites: its item is given, verifies, and is recent. -/
structure Cited (held : Digest → Option Artifact) (evidence : List EvidenceItem) (h : RootCauseHypothesis)
    (signal : Signal) : Prop where
  /-- It is the signal of an item of the evidence. -/
  given : signal.item ∈ evidence
  /-- The item verifies, with this payload. -/
  verified : signalOf held signal.item = some signal
  /-- The item was seen before it was collected. -/
  seen : signal.item.observedAt ≤ signal.item.collectedAt
  /-- It is at most two minutes older than any collection. -/
  recent : ∀ item ∈ evidence, item.collectedAt - signal.item.observedAt ≤ seconds 120
  /-- The hypothesis names it. -/
  cited : signal.item.evidenceId ∈ h.supportingEvidenceIds

/-- A hypothesis with a cited signal for each predicate of its cause. -/
inductive Corroborated (held : Digest → Option Artifact) (evidence : List EvidenceItem) (h : RootCauseHypothesis) :
    Prop where
  /-- A degraded deployment, a pod that crashed, and the exception in a log. -/
  | invalidConfiguration (code : h.causeCode.val = "INVALID_CONFIGURATION") (score : h.confidence = 95 / 100)
      (deployment pod log : Signal) (hdeployment : Cited held evidence h deployment) (hpod : Cited held evidence h pod)
      (hlog : Cited held evidence h log) (degraded : Baseline.degraded deployment = true)
      (crashed : Baseline.crashed pod = true) (reported : invalidConfiguration log = true)
  /-- A degraded deployment, a pod that runs unready, and a readiness event of that pod. -/
  | readinessProbeFailure (code : h.causeCode.val = "READINESS_PROBE_FAILURE") (score : h.confidence = 90 / 100)
      (deployment pod event : Signal) (uid : String) (hdeployment : Cited held evidence h deployment)
      (hpod : Cited held evidence h pod) (hevent : Cited held evidence h event)
      (degraded : Baseline.degraded deployment = true) (unready : runningUnready pod = true)
      (named : Json.field pod.payload "resource_uid" = some (.str uid)) (probed : readinessEvent [uid] event = true)
  /-- A processor without replicas, a query that finds no pods of it, and a failed access. -/
  | processorUnavailable (code : h.causeCode.val = "PROCESSOR_UNAVAILABLE") (score : h.confidence = 85 / 100)
      (deployment query log : Signal) (hdeployment : Cited held evidence h deployment)
      (hquery : Cited held evidence h query) (hlog : Cited held evidence h log)
      (absent : processorAbsent deployment = true) (empty : noProcessorPods query = true)
      (failed : accessFailed log = true)
  /-- A degraded deployment, and a pod that crashed. -/
  | startupFailure (code : h.causeCode.val = "STARTUP_FAILURE") (score : h.confidence = 75 / 100)
      (deployment pod : Signal) (hdeployment : Cited held evidence h deployment) (hpod : Cited held evidence h pod)
      (degraded : Baseline.degraded deployment = true) (crashed : Baseline.crashed pod = true)

omit [BaselineTexts] in
theorem cited_of_mem {signals : List Signal} (hv : (verified evidence).eval held = .ok signals)
    {h : RootCauseHypothesis} {signal : Signal} (hs : signal ∈ signals)
    (hc : signal.item.evidenceId ∈ h.supportingEvidenceIds) : Cited held evidence h signal := by
  obtain ⟨-, -, -, rfl⟩ := verified_eval.mp hv
  obtain ⟨hmem, hcurrent⟩ := List.mem_filter.mp hs
  obtain ⟨item, hitem, hsignal⟩ := List.mem_filterMap.mp hmem
  obtain rfl := signalOf_item hsignal
  obtain ⟨hpast, hage, hseen⟩ : 0 ≤ latest evidence - signal.item.observedAt ∧
      latest evidence - signal.item.observedAt ≤ MAX_AGE_SECONDS ∧
        signal.item.observedAt ≤ signal.item.collectedAt := by
    simpa [current] using hcurrent
  refine ⟨hitem, hsignal, hseen, fun other hother => ?_, hc⟩
  exact (sub_le_sub_right (le_latest hother) _).trans hage

omit [BaselineTexts] [Retention] in
theorem Rule.hypothesis_parts {rule : Rule} {h : RootCauseHypothesis} (hh : rule.hypothesis = some h) :
    h.causeCode = rule.code ∧ h.confidence = rule.score.val ∧ (∀ part ∈ rule.parts, part ≠ []) ∧
      ∀ part ∈ rule.parts, ∀ signal ∈ part, signal.item.evidenceId ∈ h.supportingEvidenceIds := by
  unfold Rule.hypothesis at hh
  split_ifs at hh with hempty
  cases hh
  refine ⟨rfl, rfl, fun part hpart hnil => hempty ?_, fun part hpart signal hsignal => ?_⟩
  · exact List.any_eq_true.mpr ⟨part, hpart, by rw [hnil]; rfl⟩
  · exact mem_supporting.mpr ⟨signal, List.mem_flatten.mpr ⟨part, hpart, hsignal⟩, rfl⟩

omit [BaselineTexts] [Retention] in
/-- A part of a hypothesis that a filter has made has a signal that passes the filter. -/
theorem part_signal {signals : List Signal} {rule : Rule} {h : RootCauseHypothesis} (hh : rule.hypothesis = some h)
    {p : Signal → Bool} (hpart : signals.filter p ∈ rule.parts) :
    ∃ signal ∈ signals, p signal = true ∧ signal.item.evidenceId ∈ h.supportingEvidenceIds := by
  obtain ⟨-, -, hfull, hcited⟩ := Rule.hypothesis_parts hh
  obtain ⟨signal, hsignal⟩ := List.exists_mem_of_ne_nil _ (hfull _ hpart)
  obtain ⟨hmem, hp⟩ := List.mem_filter.mp hsignal
  exact ⟨signal, hmem, hp, hcited _ hpart signal hsignal⟩

omit [Retention] in
/-- An event that is joined to one of several pods is joined to that pod. -/
theorem readinessEvent_uid {uids : List String} {signal : Signal} (h : readinessEvent uids signal = true) :
    ∃ uid ∈ uids, readinessEvent [uid] signal = true := by
  refine ⟨BaselineTexts.str ((Json.field (object (Json.field signal.payload "involvedObject")) "uid").getD .null),
    ?_, ?_⟩
  · simp only [readinessEvent, Bool.and_eq_true, decide_eq_true_eq] at h
    exact h.1.1.1.1.1.2
  · simp only [readinessEvent, Bool.and_eq_true, decide_eq_true_eq, List.mem_singleton] at h ⊢
    obtain ⟨⟨⟨⟨⟨⟨hsource, -⟩, hspace⟩, hreason⟩, htype⟩, hmessage⟩, htime⟩ := h
    exact ⟨⟨⟨⟨⟨⟨hsource, trivial⟩, hspace⟩, hreason⟩, htype⟩, hmessage⟩, htime⟩

/-- **Every cause is corroborated by each of its predicates.** -/
theorem corroborated {signals : List Signal} (hv : (verified evidence).eval held = .ok signals) {rule : Rule}
    (hrule : rule ∈ rules signals) {h : RootCauseHypothesis} (hh : rule.hypothesis = some h) :
    Corroborated held evidence h := by
  obtain ⟨hcode, hscore, -, hcited⟩ := Rule.hypothesis_parts hh
  simp only [rules, List.mem_cons, List.not_mem_nil, or_false] at hrule
  rcases hrule with rfl | rfl | rfl | rfl
  · obtain ⟨deployment, hd, hdegraded, hdc⟩ := part_signal hh (.head _)
    obtain ⟨pod, hp, hcrashed, hpc⟩ := part_signal hh (.tail _ (.head _))
    obtain ⟨log, hl, hconfig, hlc⟩ := part_signal hh (.tail _ (.tail _ (.head _)))
    exact .invalidConfiguration (congrArg Subtype.val hcode) hscore deployment pod log (cited_of_mem hv hd hdc)
      (cited_of_mem hv hp hpc) (cited_of_mem hv hl hlc) hdegraded hcrashed hconfig
  · obtain ⟨deployment, hd, hdegraded, hdc⟩ := part_signal hh (.head _)
    obtain ⟨event, he, hprobed, hec⟩ := part_signal hh (.tail _ (.tail _ (.head _)))
    obtain ⟨uid, huid, hjoined⟩ := readinessEvent_uid hprobed
    obtain ⟨pod, hpod, hnamed⟩ := List.mem_filterMap.mp huid
    obtain ⟨hp, hunready⟩ := List.mem_filter.mp hpod
    obtain ⟨value, hvalue, hstr⟩ := Option.bind_eq_some_iff.mp hnamed
    obtain rfl : value = .str uid := by
      cases value with
      | str s => exact congrArg Json.str (Option.some.inj hstr)
      | _ => cases hstr
    exact .readinessProbeFailure (congrArg Subtype.val hcode) hscore deployment pod event uid
      (cited_of_mem hv hd hdc) (cited_of_mem hv hp (hcited _ (.tail _ (.head _)) pod hpod))
      (cited_of_mem hv he hec) hdegraded hunready hvalue hjoined
  · obtain ⟨deployment, hd, habsent, hdc⟩ := part_signal hh (.head _)
    obtain ⟨query, hq, hempty, hqc⟩ := part_signal hh (.tail _ (.head _))
    obtain ⟨log, hl, hfailed, hlc⟩ := part_signal hh (.tail _ (.tail _ (.head _)))
    exact .processorUnavailable (congrArg Subtype.val hcode) hscore deployment query log (cited_of_mem hv hd hdc)
      (cited_of_mem hv hq hqc) (cited_of_mem hv hl hlc) habsent hempty hfailed
  · obtain ⟨deployment, hd, hdegraded, hdc⟩ := part_signal hh (.head _)
    obtain ⟨pod, hp, hcrashed, hpc⟩ := part_signal hh (.tail _ (.head _))
    exact .startupFailure (congrArg Subtype.val hcode) hscore deployment pod (cited_of_mem hv hd hdc)
      (cited_of_mem hv hp hpc) hdegraded hcrashed

omit [Retention] in
theorem rules_scores (signals : List Signal) :
    (rules signals).Pairwise fun rule rule' => rule'.score.val < rule.score.val := by
  simp only [rules, List.pairwise_cons, List.mem_cons, List.not_mem_nil, or_false, forall_eq_or_imp, forall_eq,
    false_imp_iff, implies_true, List.Pairwise.nil, and_true]
  norm_num

/-- **A ranking is sound, and does not depend on the order of the evidence**: what it cites is verified, seen before
it was collected, and at most two minutes older than the latest collection; every cause is corroborated; the causes
are distinct and in decreasing order of their scores; and evidence in another order gives the same causes, scores and
sets of supporting evidence. -/
theorem rank_sound (held : Digest → Option Artifact) (evidence : List EvidenceItem)
    (ranked : List RootCauseHypothesis) (hranked : (rankEvidence evidence).eval held = .ok ranked) :
    (∀ h ∈ ranked, ∀ i ∈ h.supportingEvidenceIds, ∃ signal, Cited held evidence h signal ∧
        signal.item.evidenceId = i ∧ ∃ fields, (ArtifactStore.verify signal.item).eval held = .ok fields) ∧
      (∀ h ∈ ranked, Corroborated held evidence h) ∧ (ranked.map RootCauseHypothesis.causeCode).Nodup ∧
      ranked.Pairwise (fun h h' => h'.confidence < h.confidence) ∧
      ∀ evidence' : List EvidenceItem, evidence'.Perm evidence →
        ∃ ranked', (rankEvidence evidence').eval held = .ok ranked' ∧ List.Forall₂ Agree ranked ranked' := by
  obtain ⟨signals, hv, rfl⟩ := rankEvidence_eval.mp hranked
  refine ⟨fun h hh i hi => ?_, fun h hh => ?_, (rules_valid signals).distinct, ?_, fun evidence' hperm => ?_⟩
  · obtain ⟨rule, hrule, heq⟩ := List.mem_filterMap.mp hh
    obtain ⟨part, hpart, signal, hsignal, rfl⟩ := (Rule.hypothesis_eq_some heq).2.2 i hi
    have hcited := cited_of_mem hv (rules_parts signals rule hrule part hpart hsignal) hi
    exact ⟨signal, hcited, rfl, signalOf_verified hcited.verified⟩
  · obtain ⟨rule, hrule, heq⟩ := List.mem_filterMap.mp hh
    exact corroborated hv hrule heq
  · rw [List.pairwise_filterMap]
    refine (rules_scores signals).imp fun {rule rule'} hlt h hh h' hh' => ?_
    rw [(Rule.hypothesis_parts hh).2.1, (Rule.hypothesis_parts hh').2.1]
    exact hlt
  · obtain ⟨signals', hv', hsignals⟩ := verified_perm hperm hv
    exact ⟨_, rankEvidence_eval.mpr ⟨signals', hv', rfl⟩, agree_of_same (rules_perm hsignals.symm)⟩

end Ranking

/-! ### A startup failure -/

section Sample

attribute [local instance] asciiPlatform

/-- A retention that names an artifact by its source. -/
@[reducible] def startupRetention : Retention where
  digest
    | .envelope metadata _ =>
      if metadata.source = .deployment then
        ⟨"00000000000000000000000000000000000000000000000000000000000000e1", by decide⟩
      else ⟨"00000000000000000000000000000000000000000000000000000000000000e2", by decide⟩
    | _ => ⟨"00000000000000000000000000000000000000000000000000000000000000e3", by decide⟩
  bytes _ := 1

/-- Texts in which one pod of the payments is known. -/
@[reducible] def startupTexts : BaselineTexts where
  timestamp _ := none
  str _ := ""
  paymentPodName name := name == "payments-api-7d9-x2k"
  configHeader _ := false
  configDetail _ := false
  accessFailure _ := false

attribute [local instance] startupRetention startupTexts

theorem degraded_uri :
    strippedOk 4000 "sha256://00000000000000000000000000000000000000000000000000000000000000e1" = true := by decide

theorem degraded_query : strippedOk 4000 "get deployment" = true := by decide

theorem degraded_resource : identifierOk "payments-api" = true := by decide

theorem degraded_summary : strippedOk 4000 "0 of 1 replicas" = true := by decide

/-- A deployment none of whose replicas is available. -/
def degradedItem : EvidenceItem where
  evidenceId := ⟨"rollout", by decide⟩
  incidentId := ⟨"inc-50", by decide⟩
  source := .deployment
  observedAt := seconds 20
  collectedAt := seconds 21
  query := ⟨"get deployment", degraded_query⟩
  resource := ⟨"payments-api", degraded_resource⟩
  artifactUri := ⟨"sha256://00000000000000000000000000000000000000000000000000000000000000e1", degraded_uri⟩
  artifactSha256 := ⟨"00000000000000000000000000000000000000000000000000000000000000e1", by decide⟩
  summary := ⟨"0 of 1 replicas", degraded_summary⟩

/-- Its pod, which exits at its start. -/
def crashedItem : EvidenceItem where
  evidenceId := ⟨"pod", by decide⟩
  incidentId := degradedItem.incidentId
  source := .kubernetes
  observedAt := seconds 22
  collectedAt := seconds 23
  query := ⟨"get pods", by decide⟩
  resource := ⟨"payments-api-7d9-x2k", by decide⟩
  artifactUri := ⟨"sha256://00000000000000000000000000000000000000000000000000000000000000e2", by decide⟩
  artifactSha256 := ⟨"00000000000000000000000000000000000000000000000000000000000000e2", by decide⟩
  summary := ⟨"restarting", by decide⟩

/-- What is retained of them. -/
def startupHeld (digest : Digest) : Option Artifact :=
  if digest = degradedItem.artifactSha256 then
    some (.envelope degradedItem.metadata [("payload", .obj [("kind", .str "Deployment"), ("replicas", .int 1),
      ("status", .obj [("availableReplicas", .int 0)])])])
  else if digest = crashedItem.artifactSha256 then
    some (.envelope crashedItem.metadata [("payload", .obj [("kind", .str "Pod"),
      ("status", .obj [("containerStatuses", .arr [.obj [("restartCount", .int 3),
        ("lastState", .obj [("terminated", .obj [("exitCode", .int 1)])])]])])])])
  else none

/-- One cause is found, in either order of the two items. -/
theorem rank_sound_startup : ∃ ranked,
    (rankEvidence [degradedItem, crashedItem]).eval startupHeld = .ok ranked ∧
      ranked.map (fun h => h.causeCode.val) = ["STARTUP_FAILURE"] ∧
      (∀ h ∈ ranked, Corroborated startupHeld [degradedItem, crashedItem] h) ∧
      ∃ ranked', (rankEvidence [crashedItem, degradedItem]).eval startupHeld = .ok ranked' ∧
        List.Forall₂ Agree ranked ranked' := by
  have hfound : (match (rankEvidence [degradedItem, crashedItem]).eval startupHeld with
    | .ok ranked => ranked.map (fun h => h.causeCode.val) == ["STARTUP_FAILURE"]
    | .error _ => false) = true := by decide +kernel
  split at hfound
  · rename_i ranked hranked
    obtain ⟨-, hcauses, -, -, horder⟩ := rank_sound _ _ ranked hranked
    exact ⟨ranked, hranked, beq_iff_eq.mp hfound, hcauses, horder _ (.swap _ _ _)⟩
  · cases hfound

end Sample

end PayOps.Orchestrator.Baseline
