import PayOps.Evidence.LogContext
import PayOps.Evidence.Artifacts

/-!
# The deterministic baseline

`payops.orchestrator.baseline`: hypotheses from verified evidence, by a few runtime predicates.

## The model

The patterns of the log lines and of the pod names, the parsing of a timestamp and `str` of a value
are functions of `BaselineTexts`, whichever they are.

## What is proved

* `rankEvidence_valid` — **what the baseline reports is a valid list of root causes**: distinct
  causes, which cite the evidence they were given.
-/

namespace PayOps.Orchestrator

open Process Program Evidence

/-- What the baseline reads from texts. -/
class BaselineTexts where
  /-- `_timestamp`: an aware datetime. -/
  timestamp : String → Option Time
  /-- `str(value)`. -/
  str : Json → String
  /-- `re.fullmatch(r"payments-api-[a-z0-9]+-[a-z0-9]+", …)`. -/
  paymentPodName : String → Bool
  /-- `CONFIG_HEADER.fullmatch`. -/
  configHeader : String → Bool
  /-- `CONFIG_DETAIL.match`. -/
  configDetail : String → Bool
  /-- `ACCESS_FAILURE.fullmatch`. -/
  accessFailure : String → Bool

variable [Platform] [BaselineTexts]

/-- `MAX_AGE_SECONDS`. -/
def MAX_AGE_SECONDS : Time := seconds 120

/-- A verified item with its payload. -/
structure Signal where
  /-- The item. -/
  item : EvidenceItem
  /-- The payload of its artifact. -/
  payload : JsonObject

namespace Baseline

/-- `_object`. -/
def object : Option Json → JsonObject
  | some (.obj fields) => fields
  | _ => []

/-- `_objects`. -/
def objects : Option Json → List JsonObject
  | some (.arr items) => items.filterMap fun
    | .obj fields => some fields
    | _ => none
  | _ => []

/-- A field that is an `int` and no boolean. -/
def intField (fields : JsonObject) (key : String) : Option ℤ :=
  (Json.field fields key).bind Json.asInt

/-- The field is this string. -/
def isText (fields : JsonObject) (key value : String) : Bool := Json.field fields key == some (.str value)

/-- `_payment_pod`. -/
def paymentPod (signal : Signal) : Bool :=
  signal.item.source == .kubernetes && isText signal.payload "kind" "Pod" &&
    BaselineTexts.paymentPodName signal.item.resource.val

/-- `status.containerStatuses`. -/
def containerStatuses (signal : Signal) : List JsonObject :=
  objects (Json.field (object (Json.field signal.payload "status")) "containerStatuses")

/-- One container that was terminated repeatedly, but not for its memory. -/
def crashedContainer (status : JsonObject) : Bool :=
  let terminated := object (Json.field (object (Json.field status "lastState")) "terminated")
  (match intField terminated "exitCode", intField status "restartCount" with
    | some code, some restarts => code != 0 && 0 < restarts
    | _, _ => false) &&
    !isText terminated "reason" "OOMKilled" && Json.field status "ready" != some (.bool true)

/-- `_crashed`. -/
def crashed (signal : Signal) : Bool := paymentPod signal && (containerStatuses signal).any crashedContainer

/-- `_running_unready`. -/
def runningUnready (signal : Signal) : Bool :=
  paymentPod signal && (containerStatuses signal).any fun status =>
    (Json.field (object (Json.field status "state")) "running").isSome &&
      Json.field status "ready" == some (.bool false)

/-- `_degraded`. -/
def degraded (signal : Signal) : Bool :=
  let status := object (Json.field signal.payload "status")
  let unavailable := (objects (Json.field status "conditions")).any fun item =>
    isText item "type" "Available" && isText item "status" "False"
  signal.item.source == .deployment && signal.item.resource.val == "payments-api" &&
    isText signal.payload "kind" "Deployment" &&
    match intField signal.payload "replicas" with
    | none => false
    | some desired => 0 < desired &&
      (((intField status "availableReplicas").any fun available => available < desired) || unavailable)

/-- `_log_lines`. -/
def logLines (signal : Signal) : List String :=
  if signal.item.source ≠ .log ∨ signal.item.resource.val ≠ "payments-api" then []
  else match (Json.field signal.payload "lines").bind Json.asStr with
    | none => []
    | some raw => (splitLines [] raw.toList).filterMap fun line =>
      if ' ' ∈ line then
        let (stamp, content) := partitionBlank line
        (BaselineTexts.timestamp (String.ofList stamp)).bind fun observed =>
          let age := signal.item.collectedAt - observed
          if 0 ≤ age ∧ age ≤ MAX_AGE_SECONDS then some (String.ofList content) else none
      else none

/-- A header, with a detail in one of the next three lines. -/
def invalidLines : List String → Bool
  | [] => false
  | line :: lines =>
    (BaselineTexts.configHeader line && (lines.take 3).any BaselineTexts.configDetail) ||
      invalidLines lines

/-- `_invalid_configuration`. -/
def invalidConfiguration (signal : Signal) : Bool := invalidLines (logLines signal)

/-- `a or b`, of values of fields. -/
def orField : Option Json → Option Json → Option Json
  | some .null, b | some (.bool false), b | some (.int 0), b | some (.str ""), b | some (.arr []), b
  | some (.obj []), b | none, b => b
  | some (.float repr), b => if repr = "0.0" ∨ repr = "-0.0" then b else some (.float repr)
  | a, _ => a

/-- `_readiness_event`. -/
def readinessEvent (podUids : List String) (signal : Signal) : Bool :=
  let involved := object (Json.field signal.payload "involvedObject")
  let series := object (Json.field signal.payload "series")
  let eventTime := orField (orField (Json.field series "lastObservedTime")
    (Json.field signal.payload "lastTimestamp")) (Json.field signal.payload "eventTime")
  signal.item.source == .kubernetes && signal.item.resource.val == "payments-api" &&
    decide (BaselineTexts.str ((Json.field involved "uid").getD .null) ∈ podUids) &&
    isText involved "namespace" "payops-sandbox" && isText signal.payload "reason" "Unhealthy" &&
    isText signal.payload "type" "Warning" &&
    isText signal.payload "message"
      "Readiness probe failed: HTTP probe failed with statuscode: 404" &&
    match (eventTime.bind Json.asStr).bind BaselineTexts.timestamp with
    | none => false
    | some stamp => |signal.item.observedAt - stamp| ≤ seconds 1

/-- `_processor_absent`. -/
def processorAbsent (signal : Signal) : Bool :=
  signal.item.source == .deployment && signal.item.resource.val == "processor-adapter" &&
    isText signal.payload "kind" "Deployment" && intField signal.payload "replicas" == some 0

/-- `_no_processor_pods`. -/
def noProcessorPods (signal : Signal) : Bool :=
  signal.item.source == .kubernetes && signal.item.resource.val == "processor-adapter" &&
    signal.item.query.val == "pods.count" && intField signal.payload "pod_count" == some 0

/-- A log line of a failed access. -/
def accessFailed (signal : Signal) : Bool := (logLines signal).any BaselineTexts.accessFailure

variable [Retention]

/-- `_verified`, from the items on: every item is verified, also one that is too old. -/
def verifiedItems (latest : Time) : List EvidenceItem → Reading (List Signal)
  | [] => .done []
  | item :: items => do
    let fields ← ArtifactStore.verify item
    match Json.field fields "payload" with
    | some (.obj payload) =>
      let rest ← verifiedItems latest items
      let age := latest - item.observedAt
      return if 0 ≤ age ∧ age ≤ MAX_AGE_SECONDS ∧ item.observedAt ≤ item.collectedAt then
        ⟨item, payload⟩ :: rest else rest
    | _ => .fail (.integrity "baseline artifact payload is not an object")

/-- `max(item.collected_at for item in evidence)`. -/
def latest (evidence : List EvidenceItem) : Time :=
  ((evidence.map EvidenceItem.collectedAt).max?).getD 0

/-- `_verified`. -/
def verified (evidence : List EvidenceItem) : Reading (List Signal) :=
  if 1 < (evidence.map EvidenceItem.incidentId).dedup.length then
    .fail (.integrity "baseline evidence crosses incidents")
  else if ¬(evidence.map EvidenceItem.evidenceId).Nodup then
    .fail (.integrity "baseline evidence IDs are duplicated")
  else verifiedItems (latest evidence) evidence

/-- `_hypothesis`. -/
def hypothesis (code : Identifier) (score : { q : ℚ // 0 ≤ q ∧ q ≤ 1 }) (signals : List Signal) :
    RootCauseHypothesis where
  causeCode := code
  confidence := score.val
  supportingEvidenceIds := (signals.map fun signal => signal.item.evidenceId).reverse.dedup.reverse
  refutingEvidenceIds := []
  missingEvidence := []
  bounded := score.property

/-- A cause of the baseline: its code, its score, and the parts of its evidence. -/
structure Rule where
  /-- The cause. -/
  code : Identifier
  /-- The score. -/
  score : { q : ℚ // 0 ≤ q ∧ q ≤ 1 }
  /-- The parts of its evidence. -/
  parts : List (List Signal)

/-- A hypothesis, if every part of its evidence is there. -/
def Rule.hypothesis (rule : Rule) : Option RootCauseHypothesis :=
  if rule.parts.any List.isEmpty then none
  else some (Baseline.hypothesis rule.code rule.score rule.parts.flatten)

/-- The rules, in the order of their report. -/
def rules (signals : List Signal) : List Rule :=
  let degraded := signals.filter degraded
  let crashes := signals.filter crashed
  let config := signals.filter invalidConfiguration
  let unready := signals.filter runningUnready
  let podUids := unready.filterMap fun signal => (Json.field signal.payload "resource_uid").bind Json.asStr
  let probes := signals.filter (readinessEvent podUids)
  let absent := signals.filter processorAbsent
  let empty := signals.filter noProcessorPods
  let errors := signals.filter accessFailed
  [⟨⟨"INVALID_CONFIGURATION", by rfl⟩, ⟨95 / 100, by norm_num⟩, [degraded, crashes, config]⟩,
    ⟨⟨"READINESS_PROBE_FAILURE", by rfl⟩, ⟨90 / 100, by norm_num⟩, [degraded, unready, probes]⟩,
    ⟨⟨"PROCESSOR_UNAVAILABLE", by rfl⟩, ⟨85 / 100, by norm_num⟩, [absent, empty, errors]⟩,
    ⟨⟨"STARTUP_FAILURE", by rfl⟩, ⟨75 / 100, by norm_num⟩, [degraded, crashes]⟩]

/-- `rank_evidence`. -/
def rankEvidence (evidence : List EvidenceItem) : Reading (List RootCauseHypothesis) := do
  let signals ← verified evidence
  return (rules signals).filterMap Rule.hypothesis

/-! ### What it reports -/

omit [BaselineTexts] in
theorem verifiedItems_returns (latest : Time) (items : List EvidenceItem) :
    (verifiedItems latest items).Returns fun signals => ∀ signal ∈ signals, signal.item ∈ items := by
  induction items with
  | nil => simp [verifiedItems, Reading.Returns]
  | cons item items ih =>
    refine (Reading.returns_true _).bind fun fields _ => ?_
    split
    · refine ih.bind fun rest hrest => ?_
      show ∀ signal ∈ _, _
      have later : ∀ signal ∈ rest, signal.item ∈ item :: items :=
        fun signal hs => List.mem_cons_of_mem _ (hrest signal hs)
      split_ifs
      · exact List.forall_mem_cons.mpr ⟨List.mem_cons_self, later⟩
      · exact later
    · trivial

omit [BaselineTexts] in
theorem verified_returns (evidence : List EvidenceItem) :
    (verified evidence).Returns fun signals => ∀ signal ∈ signals, signal.item ∈ evidence := by
  unfold verified
  split
  · trivial
  split
  · trivial
  exact verifiedItems_returns _ _

omit [BaselineTexts] [Retention] in
theorem Rule.hypothesis_eq_some {rule : Rule} {h : RootCauseHypothesis} (hh : rule.hypothesis = some h) :
    h.causeCode = rule.code ∧ h.refutingEvidenceIds = [] ∧
      ∀ i ∈ h.supportingEvidenceIds, ∃ part ∈ rule.parts, ∃ signal ∈ part, signal.item.evidenceId = i := by
  unfold Rule.hypothesis at hh
  split_ifs at hh
  cases hh
  refine ⟨rfl, rfl, fun i hi => ?_⟩
  obtain ⟨signal, hsignal, rfl⟩ := List.mem_map.mp
    (List.mem_reverse.mp (List.mem_dedup.mp (List.mem_reverse.mp hi)))
  obtain ⟨part, hpart, hmem⟩ := List.mem_flatten.mp hsignal
  exact ⟨part, hpart, signal, hmem, rfl⟩

omit [BaselineTexts] [Retention] in
/-- The causes of some rules are among the rules' own, in their order. -/
theorem causes_sublist (list : List Rule) :
    ((list.filterMap Rule.hypothesis).map RootCauseHypothesis.causeCode).Sublist (list.map Rule.code) := by
  induction list with
  | nil => exact .slnil
  | cons rule list ih =>
    cases hrule : rule.hypothesis with
    | none => simpa [hrule] using ih.cons rule.code
    | some h => simpa [hrule, (Rule.hypothesis_eq_some hrule).1] using ih.cons_cons rule.code

omit [Retention] in
theorem rules_codes (signals : List Signal) : ((rules signals).map Rule.code).Nodup := by
  refine List.Nodup.of_map Subtype.val ?_
  show (["INVALID_CONFIGURATION", "READINESS_PROBE_FAILURE", "PROCESSOR_UNAVAILABLE",
    "STARTUP_FAILURE"] : List String).Nodup
  decide

omit [Retention] in
theorem rules_parts (signals : List Signal) : ∀ rule ∈ rules signals, ∀ part ∈ rule.parts, part ⊆ signals := by
  simp [rules]

omit [Retention] in
/-- The causes of what the signals support are distinct, and cite the signals. -/
theorem rules_valid (signals : List Signal) :
    ValidCauses (signals.map fun signal => signal.item.evidenceId)
      ((rules signals).filterMap Rule.hypothesis) := by
  refine ⟨(rules_codes signals).sublist (causes_sublist _), fun h hh i hi => ?_, fun h hh i hi hi' => ?_⟩
  · obtain ⟨rule, hrule, heq⟩ := List.mem_filterMap.mp hh
    obtain ⟨-, hrefuting, hsupporting⟩ := Rule.hypothesis_eq_some heq
    rw [hrefuting, List.append_nil] at hi
    obtain ⟨part, hpart, signal, hsignal, rfl⟩ := hsupporting i hi
    exact List.mem_map_of_mem (rules_parts signals rule hrule part hpart hsignal)
  · obtain ⟨rule, -, heq⟩ := List.mem_filterMap.mp hh
    rw [(Rule.hypothesis_eq_some heq).2.1] at hi'
    cases hi'

/-- **What the baseline reports is valid.** -/
theorem rankEvidence_valid (evidence : List EvidenceItem) :
    (rankEvidence evidence).Returns (ValidCauses (evidence.map EvidenceItem.evidenceId)) := by
  refine (verified_returns evidence).bind fun signals hsignals => ?_
  refine (rules_valid signals).mono (List.Sublist.refl _) fun i hi => ?_
  obtain ⟨signal, hsignal, rfl⟩ := List.mem_map.mp hi
  exact List.mem_map_of_mem (hsignals signal hsignal)

end Baseline

end PayOps.Orchestrator
