import PayOps.Evidence.Normalize

/-!
# Collected events

`KubernetesRead.events` of `payops.tools.kubernetes`, and the loops over what a reader returns of
`payops.tools.window_collect` and `payops.tools.collect`.

## The model

A reader gives all its observations, or raises. A collector normalizes them one after another: `Draw` is what
`new_id` and `utc_now` give for one of them. The collectors store what they retain in `Artifacts`.

## What is proved

* `retain_eval` — what becomes of one observation does not depend on those before it.
* `keepAll_retains`, `collectAll_retains` — what a collector retains of the observations it reads.
* `events_isolated` — **main result**: no record hides another in `WindowBatch.capture` if and only if no record of
  a current pod has a blank text, and in `collect_local` if besides none follows one that cannot be normalized.

## Honest scope

What is shown of `collect_local` is the body of its loop over the sources; each source has its own `try` statement
there. The two responses are those that `_get` accepted.
-/

namespace PayOps.Tools

open Evidence Json

/-! ### Values -/

/-- What the code reads of values and texts with Python's own functions. -/
class Readers where
  /-- `str(value)`, of a value that is no string. -/
  text : Json → String
  /-- `datetime.fromisoformat(text)`, if that is an aware datetime. -/
  fromisoformat : String → Option Time

section Values

/-- `str(value)`. -/
def pyStr [Readers] : Json → String
  | .str s => s
  | value => Readers.text value

/-- `bool(value)`. -/
def truthy : Json → Bool
  | .null => false
  | .bool b => b
  | .int n => n != 0
  | .float repr => repr != "0.0" && repr != "-0.0"
  | .str s => s != ""
  | .arr items => !items.isEmpty
  | .obj fields => !fields.isEmpty

/-- `x or y`. -/
def pyOr (x y : Json) : Json := if truthy x then x else y

/-- `fields.get(key, default)`. -/
def getOr (fields : JsonObject) (key : String) (default : Json) : Json := (field fields key).getD default

/-- `object_value`. -/
def objectValue : Json → Except Fault JsonObject
  | .obj fields => .ok fields
  | _ => .error (.value "expected Kubernetes object")

/-- `items`. -/
def items (value : Json) (maximum : ℕ) : Except Fault (List JsonObject) :=
  match value with
  | .arr values =>
    if maximum < values.length then .error (.value "invalid or oversized Kubernetes collection")
    else values.mapM objectValue
  | _ => .error (.value "invalid or oversized Kubernetes collection")

/-- `selected`, of an object. -/
def selected (fields : JsonObject) (names : List String) : JsonObject :=
  names.filterMap fun key => (field fields key).map fun value => (key, value)

end Values

/-! ### Events -/

section Events

variable [Platform] [Readers]

/-- The namespace of the sandbox. -/
def NAMESPACE : Json := .str "payops-sandbox"

/-- The uid of a pod that the service owns. -/
def podUid (service : String) (pod : JsonObject) : Except Fault String := do
  let metadata ← objectValue (getOr pod "metadata" (.obj []))
  let labels ← objectValue (getOr metadata "labels" (.obj []))
  match field metadata "uid" with
  | some (.str uid) =>
    if field labels "app.kubernetes.io/name" = some (.str service) ∧ field metadata "namespace" = some NAMESPACE then
      return uid
    else throw (.value "event pod ownership is invalid")
  | _ => throw (.value "event pod ownership is invalid")

/-- The uids of the current pods. -/
def podUids (service : String) (response : JsonObject) : Except Fault (List String) := do
  let pods ← items (getOr response "items" (.arr [])) 32
  pods.mapM (podUid service)

/-- What is taken of a record of a current pod. -/
structure PodEvent where
  /-- `str(event.get("message", "event"))`. -/
  message : String
  /-- The first of its times. -/
  timestamp : String
  /-- The selected fields. -/
  payload : JsonObject
  deriving DecidableEq

/-- The fields that are selected. -/
def eventFields : List String :=
  ["reason", "message", "count", "type", "firstTimestamp", "lastTimestamp", "eventTime", "series", "involvedObject"]

/-- The checks of a record. One of another pod is passed over, and so is one without a time. -/
def checkEvent (uids : List String) (event : JsonObject) : Except Fault (Option PodEvent) := do
  let involved ← objectValue (getOr event "involvedObject" (.obj []))
  if pyStr (getOr involved "uid" .null) ∉ uids then return none
  if field involved "namespace" ≠ some NAMESPACE then throw (.value "event response crosses namespace")
  let metadata ← objectValue (getOr event "metadata" (.obj []))
  if field metadata "namespace" ≠ some NAMESPACE then throw (.value "event metadata crosses namespace")
  let series ← objectValue (pyOr (getOr event "series" .null) (.obj []))
  match pyOr (pyOr (getOr series "lastObservedTime" .null) (getOr event "lastTimestamp" .null))
      (getOr event "eventTime" .null) with
  | .str timestamp =>
    return some ⟨pyStr (getOr event "message" (.str "event")), timestamp, selected event eventFields⟩
  | _ => return none

/-- `timestamp.replace("Z", "+00:00")`. -/
def withOffset (timestamp : String) : String :=
  String.ofList (timestamp.toList.flatMap fun c => if c = 'Z' then "+00:00".toList else [c])

/-- `text[:3500]`. -/
def truncated (text : String) : String := String.ofList (text.toList.take 3500)

/-- The query of the observations. -/
def eventsQuery : Summary := ⟨"events.current-pod-uid", by decide⟩

/-- The observation of a record. -/
def observeEvent (service : String) (event : PodEvent) : Except Fault Observation :=
  match Identifier.validate service, Readers.fromisoformat (withOffset event.timestamp),
      Summary.validate (truncated event.message) with
  | some resource, some observedAt, some summary =>
    .ok ⟨.kubernetes, resource, observedAt, eventsQuery, summary, event.payload⟩
  | _, _, _ => .error (.value "ValidationError")

/-- The observations of the records. -/
def readEvents (service : String) (uids : List String) : List JsonObject → Except Fault (List Observation)
  | [] => return []
  | event :: rest => do
    match ← checkEvent uids event with
    | none => readEvents service uids rest
    | some checked =>
      let observation ← observeEvent service checked
      let observations ← readEvents service uids rest
      return observation :: observations

/-- `KubernetesRead.events`, of the responses about pods and about events. -/
def events (service : String) (pods raw : JsonObject) : Except Fault (List Observation) := do
  if service ∉ SERVICES then throw (.value "service outside read allowlist")
  let uids ← podUids service pods
  let records ← items (getOr raw "items" (.arr [])) 256
  readEvents service uids records

end Events

/-! ### Collectors -/

/-- What a collector works for: the incident, and the start of its window. -/
structure Window where
  /-- `incident_id`. -/
  incidentId : String
  /-- `utc_now() - timedelta(minutes=5)`, when it began. -/
  start : Time

/-- What is drawn for one observation. -/
structure Draw [Platform] where
  /-- `new_id()`. -/
  evidenceId : Identifier
  /-- `utc_now()`, before the call of `normalize`. -/
  now : Time
  /-- `utc_now()`, in `normalize`. -/
  collectedAt : Time

/-- Why an observation, or all of a source, is missing. -/
inductive Failure where
  /-- `OutsideQueryWindow`. -/
  | outsideQueryWindow
  /-- The name of the exception. -/
  | raised (x : Fault)

/-- `except (ValueError, OSError, …)`. -/
def handled (x : Fault) : Bool := x.isValue || x.isOs

/-- A `try` statement: what it raises is a value. -/
def attempt {α : Type} (x : Storing α) : Storing (Except Fault α) :=
  fun held => (.ok (x.eval held).1, (x.eval held).2)

section Collectors

variable [Platform] [FileStore.Hashing] [Isoformat] [Numerals]

/-- `normalize`, and `store.verify`. -/
def retain (w : Window) (d : Draw) (observation : Observation) : Storing EvidenceItem := do
  let item ← normalize d.evidenceId d.collectedAt observation w.incidentId (some w.start) (some (d.now + seconds 1))
  verifyArtifact item
  return item

/-- The loop of `WindowBatch.capture`, with `WindowBatch.keep`: a failure is of one observation. -/
def keepAll (w : Window) : List (Draw × Observation) → Storing (List EvidenceItem × List Failure)
  | [] => return ([], [])
  | (d, observation) :: rest => do
    match ← attempt (retain w d observation) with
    | .ok item =>
      let (kept, failures) ← keepAll w rest
      return (item :: kept, failures)
    | .error x =>
      if handled x then
        let (kept, failures) ← keepAll w rest
        return (kept, .raised x :: failures)
      else throw x

/-- The loop of `collect_local` over the observations of a source: a failure is of the source. -/
def collectAll (w : Window) : List (Draw × Observation) → Storing (List EvidenceItem × List Failure)
  | [] => return ([], [])
  | (d, observation) :: rest =>
    if observation.observedAt < w.start then do
      let (kept, failures) ← collectAll w rest
      return (kept, .outsideQueryWindow :: failures)
    else do
      match ← attempt (retain w d observation) with
      | .ok item =>
        let (kept, failures) ← collectAll w rest
        return (item :: kept, failures)
      | .error x => if handled x then return ([], [.raised x]) else throw x

/-- A collector calls a reader: a fault of the call is a failure. -/
def collected (loop : List (Draw × Observation) → Storing (List EvidenceItem × List Failure)) (draws : List Draw)
    (call : Except Fault (List Observation)) : Storing (List EvidenceItem × List Failure) :=
  match call with
  | .ok observations => loop (draws.zip observations)
  | .error x => if handled x then return ([], [.raised x]) else throw x

/-- `WindowBatch.capture`. -/
def capture (w : Window) (draws : List Draw) (call : Except Fault (List Observation)) :
    Storing (List EvidenceItem × List Failure) := collected (keepAll w) draws call

/-- `collect_local`, for one source. -/
def collectLocal (w : Window) (draws : List Draw) (call : Except Fault (List Observation)) :
    Storing (List EvidenceItem × List Failure) := collected (collectAll w) draws call

/-! ### One observation -/

/-- The content that one observation puts into the store. -/
def Written (w : Window) (p : Draw × Observation) (content : FileStore.Bytes) : Prop :=
  ∃ m payload, prepare p.1.evidenceId p.1.collectedAt p.2 w.incidentId (some w.start) (some (p.1.now + seconds 1)) =
    .ok (m, payload) ∧ FileStore.encode (envelope m payload) = .ok content

/-- An observation normalizes on its own: it is in the window when it is normalized, it is valid when it is
redacted, and its artifact is within the budget. -/
def Normalizes (w : Window) (p : Draw × Observation) : Prop :=
  ∃ content, Written w p content ∧ content.length ≤ FileStore.MAX_ARTIFACT_BYTES

/-- The evidence of an observation. -/
def ItemOf (w : Window) (p : Draw × Observation) (item : EvidenceItem) : Prop :=
  ∃ m payload content, ∃ h : digestOk (FileStore.Hashing.hexdigest content) = true,
    prepare p.1.evidenceId p.1.collectedAt p.2 w.incidentId (some w.start) (some (p.1.now + seconds 1)) =
      .ok (m, payload) ∧ FileStore.encode (envelope m payload) = .ok content ∧ item = retained m ⟨_, h⟩

/-- What is relied on for the artifacts of a source: digests name them and tell them apart, nothing else is held
under them, and a JSON text is read back. -/
structure Trusted (w : Window) (reads : List (Draw × Observation)) (held : Artifacts) : Prop where
  /-- A digest has its form. -/
  named : ∀ p ∈ reads, ∀ content, Written w p content → digestOk (FileStore.Hashing.hexdigest content) = true
  /-- Two contents of one digest are the same. -/
  apart : ∀ p ∈ reads, ∀ q ∈ reads, ∀ c c', Written w p c → Written w q c' →
    FileStore.Hashing.hexdigest c = FileStore.Hashing.hexdigest c' → c = c'
  /-- The same of what the store holds. -/
  free : ∀ p ∈ reads, ∀ content, Written w p content →
    ∀ found, held (FileStore.Hashing.hexdigest content) = some found → found = content
  /-- The text of an envelope is read back. -/
  readBack : ∀ p ∈ reads, ∀ m payload content,
    prepare p.1.evidenceId p.1.collectedAt p.2 w.incidentId (some w.start) (some (p.1.now + seconds 1)) =
      .ok (m, payload) → FileStore.encode (envelope m payload) = .ok content → ReadBack (envelope m payload) content

variable {w : Window} {p : Draw × Observation} {reads : List (Draw × Observation)} {held : Artifacts}

theorem Trusted.tail (h : Trusted w (p :: reads) held) : Trusted w reads held where
  named q hq := h.named q (List.mem_cons_of_mem p hq)
  apart q hq q' hq' := h.apart q (List.mem_cons_of_mem p hq) q' (List.mem_cons_of_mem p hq')
  free q hq := h.free q (List.mem_cons_of_mem p hq)
  readBack q hq := h.readBack q (List.mem_cons_of_mem p hq)

/-- What one observation leaves in the store is in no other's way. -/
theorem Trusted.published (h : Trusted w (p :: reads) held) {content : FileStore.Bytes}
    (hwritten : Written w p content) : Trusted w reads (published held content) where
  named := h.tail.named
  apart := h.tail.apart
  free q hq content' hwritten' found hfound := by
    by_cases hsame : FileStore.Hashing.hexdigest content' = FileStore.Hashing.hexdigest content
    · rw [Evidence.published, hsame, Function.update_self] at hfound
      obtain rfl := h.apart q (List.mem_cons_of_mem p hq) p List.mem_cons_self _ _ hwritten' hwritten hsame
      exact (Option.some.inj hfound).symm
    · rw [Evidence.published, Function.update_of_ne hsame] at hfound
      exact h.tail.free q hq content' hwritten' found hfound
  readBack := h.tail.readBack

/-- **What becomes of one observation** depends on that observation only. -/
theorem retain_eval (h : Trusted w (p :: reads) held) :
    (Normalizes w p ∧ ∃ item content, ItemOf w p item ∧ Written w p content ∧
      (retain w p.1 p.2).eval held = (.ok item, published held content)) ∨
    ¬Normalizes w p ∧ ∃ x, x.isValue = true ∧ (retain w p.1 p.2).eval held = (.error x, held) := by
  rcases normalize_eval held p.1.evidenceId p.1.collectedAt p.2 w.incidentId (some w.start)
      (some (p.1.now + seconds 1)) with ⟨m, payload, content, haccepted, hrun⟩ | ⟨hnone, x, hvalue, hrun⟩
  · left
    have hwritten : Written w p content := ⟨m, payload, haccepted.prepared, haccepted.stored.encoded⟩
    refine ⟨⟨content, hwritten, haccepted.stored.small⟩, _, content,
      ⟨m, payload, content, haccepted.stored.named, haccepted.prepared, haccepted.stored.encoded, rfl⟩, hwritten, ?_⟩
    have hread := h.readBack p List.mem_cons_self m payload content haccepted.prepared haccepted.stored.encoded
    rw [retain, Storing.eval_bind, hrun]
    simp only
    rw [Storing.eval_bind, verify_published haccepted.stored hread]
    rfl
  · right
    constructor
    · rintro ⟨content, ⟨m, payload, hprepared, hencoded⟩, hsmall⟩
      have hwritten : Written w p content := ⟨m, payload, hprepared, hencoded⟩
      exact hnone ⟨m, payload, content, hprepared, hencoded, hsmall,
        h.named p List.mem_cons_self content hwritten, h.free p List.mem_cons_self content hwritten⟩
    · refine ⟨x, hvalue, ?_⟩
      rw [retain, Storing.eval_bind, hrun]

/-! ### The loops -/

omit [Platform] [FileStore.Hashing] [Isoformat] [Numerals] in
theorem eval_attempt {α : Type} (x : Storing α) (held : Artifacts) :
    (attempt x).eval held = (.ok (x.eval held).1, (x.eval held).2) := rfl

/-- **What `WindowBatch.capture` retains**: every observation that normalizes on its own. -/
theorem keepAll_retains (h : Trusted w reads held) :
    ∃ kept failures held', (keepAll w reads).eval held = (.ok (kept, failures), held') ∧
      ∀ q ∈ reads, Normalizes w q → ∃ item ∈ kept, ItemOf w q item := by
  induction reads generalizing held with
  | nil => exact ⟨[], [], held, rfl, by simp⟩
  | cons p reads ih =>
    obtain ⟨d, observation⟩ := p
    rcases retain_eval h with ⟨-, item, content, hitem, hwritten, hrun⟩ | ⟨hnot, x, hvalue, hrun⟩
    · obtain ⟨kept, failures, held', hrest, hkept⟩ := ih (h.published hwritten)
      refine ⟨item :: kept, failures, held', ?_, fun q hq hnormal => ?_⟩
      · rw [keepAll, Storing.eval_bind, eval_attempt, hrun]
        simp only
        rw [Storing.eval_bind, hrest]
        rfl
      · rcases List.mem_cons.mp hq with rfl | hq
        · exact ⟨item, List.mem_cons_self, hitem⟩
        · obtain ⟨other, hother, hof⟩ := hkept q hq hnormal
          exact ⟨other, List.mem_cons_of_mem item hother, hof⟩
    · obtain ⟨kept, failures, held', hrest, hkept⟩ := ih h.tail
      refine ⟨kept, .raised x :: failures, held', ?_, fun q hq hnormal => ?_⟩
      · rw [keepAll, Storing.eval_bind, eval_attempt, hrun]
        simp only
        rw [if_pos (by rw [handled, hvalue]; rfl), Storing.eval_bind, hrest]
        rfl
      · rcases List.mem_cons.mp hq with rfl | hq
        · exact absurd hnormal hnot
        · exact hkept q hq hnormal

/-- An observation ends the loop of `collect_local`: it is not stale, and does not normalize. -/
def Aborts (w : Window) (p : Draw × Observation) : Prop := ¬p.2.observedAt < w.start ∧ ¬Normalizes w p

/-- No observation before this one ends the loop. -/
def Comes (w : Window) (q : Draw × Observation) : List (Draw × Observation) → Prop
  | [] => False
  | p :: reads => q = p ∨ ¬Aborts w p ∧ Comes w q reads

omit [FileStore.Hashing] [Numerals] in
/-- A stale observation does not normalize. -/
theorem Normalizes.current (h : Normalizes w p) : ¬p.2.observedAt < w.start := by
  obtain ⟨content, ⟨m, payload, hprepared, -⟩, -⟩ := h
  obtain ⟨hwindow, -, -⟩ := prepare_ok.mp hprepared
  simp only [inWindow, Option.any_some, Bool.and_eq_true, decide_eq_true_eq] at hwindow
  exact not_lt.mpr hwindow.1

/-- **What `collect_local` retains of a source**: what normalizes and comes, and nothing else. -/
theorem collectAll_retains (h : Trusted w reads held) :
    ∃ kept failures held', (collectAll w reads).eval held = (.ok (kept, failures), held') ∧
      (∀ q ∈ reads, Normalizes w q → Comes w q reads → ∃ item ∈ kept, ItemOf w q item) ∧
      ∀ item ∈ kept, ∃ q ∈ reads, Comes w q reads ∧ ItemOf w q item := by
  induction reads generalizing held with
  | nil => exact ⟨[], [], held, rfl, by simp, by simp⟩
  | cons p reads ih =>
    obtain ⟨d, observation⟩ := p
    by_cases hstale : observation.observedAt < w.start
    · obtain ⟨kept, failures, held', hrest, hkept, honly⟩ := ih h.tail
      refine ⟨kept, .outsideQueryWindow :: failures, held', ?_, fun q hq hnormal hcomes => ?_, fun item hitem => ?_⟩
      · rw [collectAll, if_pos hstale, Storing.eval_bind, hrest]
        rfl
      · rcases List.mem_cons.mp hq with rfl | hmem
        · exact absurd hstale hnormal.current
        · rcases hcomes with rfl | ⟨-, hcomes⟩
          · exact absurd hstale hnormal.current
          · exact hkept q hmem hnormal hcomes
      · obtain ⟨q, hq, hcomes, hof⟩ := honly item hitem
        exact ⟨q, List.mem_cons_of_mem _ hq, .inr ⟨fun ha => ha.1 hstale, hcomes⟩, hof⟩
    rcases retain_eval h with ⟨hnormal, item, content, hitem, hwritten, hrun⟩ | ⟨hnot, x, hvalue, hrun⟩
    · obtain ⟨kept, failures, held', hrest, hkept, honly⟩ := ih (h.published hwritten)
      refine ⟨item :: kept, failures, held', ?_, fun q hq hq' hcomes => ?_, fun other hother => ?_⟩
      · rw [collectAll, if_neg hstale, Storing.eval_bind, eval_attempt, hrun]
        simp only
        rw [Storing.eval_bind, hrest]
        rfl
      · rcases hcomes with rfl | ⟨-, hcomes⟩
        · exact ⟨item, List.mem_cons_self, hitem⟩
        · rcases List.mem_cons.mp hq with rfl | hmem
          · exact ⟨item, List.mem_cons_self, hitem⟩
          · obtain ⟨other, hother, hof⟩ := hkept q hmem hq' hcomes
            exact ⟨other, List.mem_cons_of_mem item hother, hof⟩
      · rcases List.mem_cons.mp hother with rfl | hother
        · exact ⟨(d, observation), List.mem_cons_self, .inl rfl, hitem⟩
        · obtain ⟨q, hq, hcomes, hof⟩ := honly other hother
          exact ⟨q, List.mem_cons_of_mem _ hq, .inr ⟨fun ha => ha.2 hnormal, hcomes⟩, hof⟩
    · refine ⟨[], [.raised x], held, ?_, fun q hq hnormal hcomes => ?_, by simp⟩
      · rw [collectAll, if_neg hstale, Storing.eval_bind, eval_attempt, hrun]
        simp only
        rw [if_pos (by rw [handled, hvalue]; rfl)]
        rfl
      · rcases hcomes with rfl | ⟨hgoes, -⟩
        · exact absurd hnormal hnot
        · exact absurd ⟨hstale, hnot⟩ hgoes

/-- No observation that normalizes follows one that ends the loop. -/
def InOrder (w : Window) (reads : List (Draw × Observation)) : Prop :=
  reads.Pairwise fun p q => Aborts w p → ¬Normalizes w q

omit [FileStore.Hashing] [Numerals] in
/-- **When all that normalizes comes.** -/
theorem comes_iff_inOrder (h : reads.Nodup) :
    (∀ q ∈ reads, Normalizes w q → Comes w q reads) ↔ InOrder w reads := by
  induction reads with
  | nil => simp [InOrder]
  | cons p reads ih =>
    obtain ⟨hnew, hrest⟩ := List.nodup_cons.mp h
    rw [InOrder, List.pairwise_cons, ← InOrder, ← ih hrest]
    constructor
    · intro hcomes
      constructor
      · intro q hq haborts hnormal
        rcases hcomes q (List.mem_cons_of_mem p hq) hnormal with rfl | ⟨hgoes, -⟩
        · exact hnew hq
        · exact hgoes haborts
      · intro q hq hnormal
        rcases hcomes q (List.mem_cons_of_mem p hq) hnormal with rfl | ⟨-, hlater⟩
        · exact absurd hq hnew
        · exact hlater
    · rintro ⟨hfirst, hlater⟩ q hq hnormal
      rcases List.mem_cons.mp hq with rfl | hq
      · exact .inl rfl
      · exact .inr ⟨fun haborts => hfirst q hq haborts hnormal, hlater q hq hnormal⟩

omit [Numerals] in
/-- The evidence of an observation has the name that was drawn for it. -/
theorem ItemOf.evidenceId {item : EvidenceItem} (h : ItemOf w p item) : item.evidenceId = p.1.evidenceId := by
  obtain ⟨m, payload, content, hnamed, hprepared, -, rfl⟩ := h
  obtain ⟨-, hm, -⟩ := prepare_ok.mp hprepared
  unfold validateMetadata at hm
  split at hm
  · cases hm
    rfl
  · cases hm

end Collectors

/-! ### The reader -/

section Reader

variable [Platform] [Readers] {service : String} {uids : List String}

/-- The text of a record is not blank. -/
def Shown (event : PodEvent) : Prop := strip (truncated event.message).toList ≠ []

/-- No record of a current pod has a blank text. -/
def AllShown (uids : List String) (records : List JsonObject) : Prop :=
  ∀ record ∈ records, ∀ event, checkEvent uids record = .ok (some event) → Shown event

/-- The observation of a record of a current pod. -/
def observed (service : String) (uids : List String) (record : JsonObject) : Option Observation :=
  match checkEvent uids record with
  | .ok (some event) => (observeEvent service event).toOption
  | _ => none

/-- A record passes the checks of its owner, and has a time with an offset, if it has a time. -/
def Checked (uids : List String) (record : JsonObject) : Prop :=
  ∃ read, checkEvent uids record = .ok read ∧
    ∀ event ∈ read, (Readers.fromisoformat (withOffset event.timestamp)).isSome = true

omit [Readers] in
theorem service_valid (h : service ∈ SERVICES) : ∃ i, Identifier.validate service = some i := by
  simp only [SERVICES, List.mem_cons, List.not_mem_nil, or_false] at h
  rcases h with rfl | rfl | rfl | rfl | rfl
  · exact ⟨⟨"payments-api", rfl⟩, Identifier.validate_val ⟨"payments-api", rfl⟩⟩
  · exact ⟨⟨"risk-sim", rfl⟩, Identifier.validate_val ⟨"risk-sim", rfl⟩⟩
  · exact ⟨⟨"processor-adapter", rfl⟩, Identifier.validate_val ⟨"processor-adapter", rfl⟩⟩
  · exact ⟨⟨"ledger-sim", rfl⟩, Identifier.validate_val ⟨"ledger-sim", rfl⟩⟩
  · exact ⟨⟨"webhook-sim", rfl⟩, Identifier.validate_val ⟨"webhook-sim", rfl⟩⟩

omit [Platform] [Readers] in
/-- What is truncated fits in a summary. -/
theorem truncated_fits (text : String) : FitsSummary (truncated text) := by
  have hstrip : (strip (truncated text).toList).length ≤ (truncated text).toList.length := by
    unfold strip
    rw [List.length_reverse]
    refine (List.length_dropWhile_le _ _).trans ?_
    rw [List.length_reverse]
    exact List.length_dropWhile_le _ _
  have hlength : (truncated text).toList.length ≤ 3500 := by
    rw [truncated, String.toList_ofList]
    exact List.length_take_le _ _
  unfold FitsSummary
  omega

/-- **When a record is observed**: its text is not blank. -/
theorem observeEvent_ok (hservice : service ∈ SERVICES) {event : PodEvent}
    (htime : (Readers.fromisoformat (withOffset event.timestamp)).isSome = true) :
    (Shown event ∧ ∃ observation, observeEvent service event = .ok observation) ∨
      ¬Shown event ∧ observeEvent service event = .error (.value "ValidationError") := by
  obtain ⟨resource, hresource⟩ := service_valid hservice
  obtain ⟨t, ht⟩ := Option.isSome_iff_exists.mp htime
  unfold observeEvent
  rw [hresource, ht]
  cases hsummary : Summary.validate (truncated event.message) with
  | some summary =>
    exact .inl ⟨(validate_summary.mp ⟨summary, hsummary⟩).1, _, rfl⟩
  | none =>
    refine .inr ⟨fun hshown => ?_, rfl⟩
    obtain ⟨summary, hsome⟩ := validate_summary.mpr ⟨hshown, truncated_fits event.message⟩
    rw [hsummary] at hsome
    cases hsome

/-- **What the reader gives**: all the observations, or a fault if a text is blank. -/
theorem readEvents_eval (hservice : service ∈ SERVICES) {records : List JsonObject}
    (hchecks : ∀ record ∈ records, Checked uids record) :
    (AllShown uids records ∧ readEvents service uids records = .ok (records.filterMap (observed service uids))) ∨
      ¬AllShown uids records ∧ ∃ x, x.isValue = true ∧ readEvents service uids records = .error x := by
  induction records with
  | nil => exact .inl ⟨by simp [AllShown], rfl⟩
  | cons record records ih =>
    obtain ⟨read, hread, htimes⟩ := hchecks record List.mem_cons_self
    have hsplit : AllShown uids (record :: records) ↔ (∀ event, read = some event → Shown event) ∧
        AllShown uids records := by
      simp [AllShown, hread]
    have hrest := ih fun other hother => hchecks other (List.mem_cons_of_mem record hother)
    rw [hsplit]
    cases read with
    | none =>
      have hnone : observed service uids record = none := by rw [observed, hread]
      have hskip : readEvents service uids (record :: records) = readEvents service uids records := by
        rw [readEvents, hread]
        rfl
      rw [List.filterMap_cons_none hnone, hskip]
      simpa using hrest
    | some event =>
      rw [readEvents, hread]
      rcases observeEvent_ok hservice (htimes event rfl) with ⟨hshown, observation, hok⟩ | ⟨hblank, herror⟩
      · have hsome : observed service uids record = some observation := by
          rw [observed, hread]
          simp only [hok, Except.toOption]
        rw [List.filterMap_cons_some hsome]
        rcases hrest with ⟨hall, hrun⟩ | ⟨hnot, x, hvalue, hrun⟩
        · left
          refine ⟨⟨fun e he => Option.some.inj he ▸ hshown, hall⟩, ?_⟩
          exact except_bind_ok.mpr ⟨_, rfl, except_bind_ok.mpr ⟨observation, hok,
            except_bind_ok.mpr ⟨_, hrun, rfl⟩⟩⟩
        · right
          refine ⟨fun h => hnot h.2, x, hvalue, ?_⟩
          show (observeEvent service event).bind _ = _
          rw [hok]
          show (readEvents service uids records).bind _ = _
          rw [hrun]
          rfl
      · right
        refine ⟨fun h => hblank (h.1 event rfl), .value "ValidationError", rfl, ?_⟩
        show (observeEvent service event).bind _ = _
        rw [herror]
        rfl

end Reader

/-! ### The siblings of a record -/

section Siblings

variable [Platform] [Readers] [FileStore.Hashing] [Isoformat] [Numerals]

/-- What is retained by a collector: every observation that normalizes on its own. -/
def Retains (w : Window) (reads : List (Draw × Observation))
    (result : Except Fault (List EvidenceItem × List Failure) × Artifacts) : Prop :=
  ∀ q ∈ reads, Normalizes w q →
    ∃ kept failures held', result = (.ok (kept, failures), held') ∧ ∃ item ∈ kept, ItemOf w q item

omit [Readers] [Numerals] in
/-- Where the call of the reader fails, everything that would normalize is lost. -/
theorem retains_failed {w : Window} {reads : List (Draw × Observation)} {draws : List Draw} {held : Artifacts}
    {loop : List (Draw × Observation) → Storing (List EvidenceItem × List Failure)} {x : Fault}
    (hvalue : x.isValue = true) : Retains w reads ((collected loop draws (.error x)).eval held) ↔
      ∀ q ∈ reads, ¬Normalizes w q := by
  have hrun : (collected loop draws (.error x)).eval held = (.ok ([], [.raised x]), held) := by
    rw [collected, if_pos (by rw [handled, hvalue]; rfl)]
    rfl
  rw [hrun]
  constructor
  · intro h q hq hnormal
    obtain ⟨kept, failures, held', hsame, item, hitem, -⟩ := h q hq hnormal
    cases hsame
    cases hitem
  · intro h q hq hnormal
    exact absurd hnormal (h q hq)

/-- **When no record hides its siblings.** Of a response that passes the checks, `WindowBatch.capture` retains every
record of a current pod that normalizes on its own if and only if no such record has a blank text, or none
normalizes; `collect_local` does if and only if besides none that normalizes follows one that does not and is not
stale. -/
theorem events_isolated {service : String} {pods raw : JsonObject} {uids : List String} {records : List JsonObject}
    (hservice : service ∈ SERVICES) (hpods : podUids service pods = .ok uids)
    (hrecords : items (getOr raw "items" (.arr [])) 256 = .ok records)
    (hchecks : ∀ record ∈ records, Checked uids record) (w : Window) (draws : List Draw) (held : Artifacts)
    (hdrawn : draws.length = (records.filterMap (observed service uids)).length)
    (hnew : (draws.map Draw.evidenceId).Nodup)
    (htrusted : Trusted w (draws.zip (records.filterMap (observed service uids))) held) :
    (Retains w (draws.zip (records.filterMap (observed service uids)))
        ((capture w draws (events service pods raw)).eval held) ↔
      AllShown uids records ∨ ∀ q ∈ draws.zip (records.filterMap (observed service uids)), ¬Normalizes w q) ∧
    (Retains w (draws.zip (records.filterMap (observed service uids)))
        ((collectLocal w draws (events service pods raw)).eval held) ↔
      (AllShown uids records ∨ ∀ q ∈ draws.zip (records.filterMap (observed service uids)), ¬Normalizes w q) ∧
        InOrder w (draws.zip (records.filterMap (observed service uids)))) := by
  have hevents : events service pods raw = readEvents service uids records := by
    rw [events, if_neg (not_not.mpr hservice)]
    show (podUids service pods).bind _ = _
    rw [hpods]
    show (items (getOr raw "items" (.arr [])) 256).bind _ = _
    rw [hrecords]
    rfl
  set reads := draws.zip (records.filterMap (observed service uids)) with hreads
  rw [hevents]
  rcases readEvents_eval hservice hchecks with ⟨hall, hrun⟩ | ⟨hnot, x, hvalue, hrun⟩
  · have hids : (reads.map fun q => q.1.evidenceId).Nodup := by
      have hfst : reads.map Prod.fst = draws := List.map_fst_zip (le_of_eq hdrawn)
      rw [show (reads.map fun q => q.1.evidenceId) = (reads.map Prod.fst).map Draw.evidenceId by simp, hfst]
      exact hnew
    constructor
    · refine iff_of_true ?_ (.inl hall)
      obtain ⟨kept, failures, held', hkept, hof⟩ := keepAll_retains htrusted
      rw [hrun]
      exact fun q hq hnormal => ⟨kept, failures, held', hkept, hof q hq hnormal⟩
    · obtain ⟨kept, failures, held', hkept, hof, honly⟩ := collectAll_retains htrusted
      rw [hrun, and_iff_right (.inl hall), ← comes_iff_inOrder hids.of_map]
      constructor
      · intro h q hq hnormal
        obtain ⟨kept', failures', held'', hsame, item, hitem, hitemOf⟩ := h q hq hnormal
        have hsame' := hkept.symm.trans hsame
        obtain ⟨rfl, rfl⟩ := Prod.mk.inj (Except.ok.inj (Prod.mk.inj hsame').1)
        obtain ⟨q', hq', hcomes, hitemOf'⟩ := honly item hitem
        have heq : q' = q := List.inj_on_of_nodup_map hids hq' hq
          (hitemOf'.evidenceId.symm.trans hitemOf.evidenceId)
        exact heq ▸ hcomes
      · intro h q hq hnormal
        exact ⟨kept, failures, held', hkept, hof q hq hnormal (h q hq hnormal)⟩
  · rw [hrun]
    have hcondition : (AllShown uids records ∨ ∀ q ∈ reads, ¬Normalizes w q) ↔ ∀ q ∈ reads, ¬Normalizes w q :=
      or_iff_right hnot
    rw [hcondition]
    refine ⟨retains_failed hvalue, (retains_failed hvalue).trans ?_⟩
    rw [iff_self_and]
    intro hnone
    exact List.pairwise_of_forall_mem_list fun p _ q hq _ => hnone q hq

end Siblings

/-! ### A blank record -/

section Sample

attribute [local instance] textPlatform sampleIsoformat FileStore.noNumerals

/-- All times are read as the origin. -/
@[reducible] def sampleReaders : Readers := ⟨fun _ => "None", fun _ => some 0⟩

attribute [local instance] sampleReaders

/-- The pods of the service. -/
def samplePods : JsonObject :=
  [("items", .arr [.obj [("metadata", .obj [("uid", .str "pod-uid"), ("namespace", NAMESPACE),
    ("labels", .obj [("app.kubernetes.io/name", .str "payments-api")])])]])]

/-- A record about a pod. -/
def sampleRecord (uid message : String) : JsonObject :=
  [("involvedObject", .obj [("uid", .str uid), ("namespace", NAMESPACE)]),
    ("metadata", .obj [("namespace", NAMESPACE)]), ("message", .str message),
    ("lastTimestamp", .str "2026-01-01T00:00:00Z")]

/-- A response with two records. -/
def sampleEvents (first second : JsonObject) : JsonObject := [("items", .arr [.obj first, .obj second])]

/-- A collector. -/
def sampleWindow : Window := ⟨"incident-1", 0⟩

/-- What it draws. -/
def sampleDraw : Draw := ⟨sampleIdentifier, 0, 0⟩

/-- The observation of a record. -/
def startedObservation : Observation :=
  ⟨.kubernetes, ⟨"payments-api", by decide⟩, 0, eventsQuery, ⟨"Started", by decide⟩,
    selected (sampleRecord "pod-uid" "Started") eventFields⟩

/-- Its metadata. -/
def startedMetadata : EvidenceMetadata :=
  ⟨sampleIdentifier, sampleIdentifier, .kubernetes, 0, 0, eventsQuery, ⟨"payments-api", by decide⟩,
    ⟨"Started", by decide⟩⟩

theorem started_prepared :
    prepare sampleDraw.evidenceId sampleDraw.collectedAt startedObservation sampleWindow.incidentId
      (some sampleWindow.start) (some (sampleDraw.now + seconds 1)) =
      .ok (startedMetadata, .obj startedObservation.payload) := by
  decide +kernel

/-- Its envelope. -/
def startedEnvelope : JsonObject := envelope startedMetadata (.obj startedObservation.payload)

/-- The digest of the artifact. -/
def startedDigest : String := "7fccd9c2b25bf154e152f8e9ae3ae3892ce084b5dd6b6b5bfac4530952f80b4f"

/-- The digest function and the parser, at that artifact. -/
@[reducible] def startedHashing : FileStore.Hashing := ⟨fun _ => startedDigest, fun _ => .ok startedEnvelope⟩

attribute [local instance] startedHashing

/-- What a call relies on, of an observation alone. -/
theorem started_trusted :
    Trusted sampleWindow [(sampleDraw, startedObservation)] fun _ => none := by
  have hsame : ∀ {p c}, p ∈ [(sampleDraw, startedObservation)] → Written sampleWindow p c →
      FileStore.encode startedEnvelope = .ok c := by
    rintro p c hp ⟨m, payload, hprepared, hencoded⟩
    rw [List.mem_singleton.mp hp] at hprepared
    obtain ⟨rfl, rfl⟩ := Prod.mk.inj (Except.ok.inj (started_prepared.symm.trans hprepared))
    exact hencoded
  refine ⟨fun p hp content _ => ?_, fun p hp q hq c c' hc hc' _ => ?_, fun p hp content _ found hfound => ?_,
    fun p hp m payload content hprepared hencoded => ?_⟩
  · show digestOk startedDigest = true
    decide
  · exact Except.ok.inj ((hsame hp hc).symm.trans (hsame hq hc'))
  · cases hfound
  · rw [List.mem_singleton.mp hp] at hprepared
    obtain ⟨rfl, rfl⟩ := Prod.mk.inj (Except.ok.inj (started_prepared.symm.trans hprepared))
    exact ⟨startedEnvelope, rfl, by decide +kernel⟩

theorem started_small :
    ((FileStore.encode startedEnvelope).toOption.any
      fun content => decide (content.length ≤ FileStore.MAX_ARTIFACT_BYTES)) = true := by
  obtain ⟨content, hcontent, hlength⟩ :=
    encode_small (show FileStore.finiteFields startedEnvelope = true by decide +kernel) (by decide +kernel)
  rw [hcontent]
  exact decide_eq_true hlength

theorem started_normalizes : Normalizes sampleWindow (sampleDraw, startedObservation) := by
  have hsmall := started_small
  rw [Option.any_eq_true] at hsmall
  obtain ⟨content, hcontent, hlength⟩ := hsmall
  have hencoded : FileStore.encode startedEnvelope = .ok content := by
    cases h : FileStore.encode startedEnvelope with
    | error x =>
      rw [h] at hcontent
      cases hcontent
    | ok c =>
      rw [h] at hcontent
      exact congrArg _ (Option.some.inj hcontent)
  exact ⟨content, ⟨startedMetadata, _, started_prepared, hencoded⟩, of_decide_eq_true hlength⟩

theorem sample_uids : podUids "payments-api" samplePods = .ok ["pod-uid"] := by decide +kernel

theorem sample_checked {record : JsonObject} (h : (checkEvent ["pod-uid"] record).toOption.isSome = true) :
    Checked ["pod-uid"] record := by
  cases hread : checkEvent ["pod-uid"] record with
  | error x =>
    rw [hread] at h
    cases h
  | ok read => exact ⟨read, hread, fun _ _ => rfl⟩

/-- **A record without a text hides its sibling**: the call fails as a whole. -/
theorem blank_event_hides :
    ¬∀ (service : String) (pods raw : JsonObject) (uids : List String) (records : List JsonObject)
      (w : Window) (draws : List Draw) (held : Artifacts), service ∈ SERVICES → podUids service pods = .ok uids →
      items (getOr raw "items" (.arr [])) 256 = .ok records → (∀ record ∈ records, Checked uids record) →
      draws.length = (records.filterMap (observed service uids)).length → (draws.map Draw.evidenceId).Nodup →
      Trusted w (draws.zip (records.filterMap (observed service uids))) held →
      Retains w (draws.zip (records.filterMap (observed service uids)))
          ((capture w draws (events service pods raw)).eval held) ∧
        Retains w (draws.zip (records.filterMap (observed service uids)))
          ((collectLocal w draws (events service pods raw)).eval held) := by
  intro h
  have hreads : [sampleRecord "pod-uid" "", sampleRecord "pod-uid" "Started"].filterMap
      (observed "payments-api" ["pod-uid"]) = [startedObservation] := by decide +kernel
  have hevents : (events "payments-api" samplePods
      (sampleEvents (sampleRecord "pod-uid" "") (sampleRecord "pod-uid" "Started"))) =
        .error (.value "ValidationError") := by decide +kernel
  have hchecks : ∀ record ∈ [sampleRecord "pod-uid" "", sampleRecord "pod-uid" "Started"],
      Checked ["pod-uid"] record := by
    intro record hrecord
    simp only [List.mem_cons, List.not_mem_nil, or_false] at hrecord
    rcases hrecord with rfl | rfl
    · exact sample_checked (by decide +kernel)
    · exact sample_checked (by decide +kernel)
  obtain ⟨hcapture, -⟩ := h "payments-api" samplePods
    (sampleEvents (sampleRecord "pod-uid" "") (sampleRecord "pod-uid" "Started")) ["pod-uid"]
    [sampleRecord "pod-uid" "", sampleRecord "pod-uid" "Started"] sampleWindow [sampleDraw] (fun _ => none)
    (by decide) sample_uids (by decide +kernel) hchecks (by rw [hreads]; rfl) (List.nodup_singleton _)
    (by rw [hreads]; exact started_trusted)
  rw [hreads, hevents] at hcapture
  have hvalue : (Fault.value "ValidationError").isValue = true := rfl
  exact (retains_failed hvalue).mp hcapture _ List.mem_cons_self started_normalizes

/-- A record of another pod, and one of the service: the second is retained by both. -/
theorem events_isolated_sample :
    Retains sampleWindow [(sampleDraw, startedObservation)]
        ((capture sampleWindow [sampleDraw] (events "payments-api" samplePods
          (sampleEvents (sampleRecord "other" "") (sampleRecord "pod-uid" "Started")))).eval fun _ => none) ∧
      Retains sampleWindow [(sampleDraw, startedObservation)]
        ((collectLocal sampleWindow [sampleDraw] (events "payments-api" samplePods
          (sampleEvents (sampleRecord "other" "") (sampleRecord "pod-uid" "Started")))).eval fun _ => none) := by
  have hreads : [sampleRecord "other" "", sampleRecord "pod-uid" "Started"].filterMap
      (observed "payments-api" ["pod-uid"]) = [startedObservation] := by decide +kernel
  have hchecks : ∀ record ∈ [sampleRecord "other" "", sampleRecord "pod-uid" "Started"],
      Checked ["pod-uid"] record := by
    intro record hrecord
    simp only [List.mem_cons, List.not_mem_nil, or_false] at hrecord
    rcases hrecord with rfl | rfl
    · exact sample_checked (by decide +kernel)
    · exact sample_checked (by decide +kernel)
  have hshown : AllShown ["pod-uid"] [sampleRecord "other" "", sampleRecord "pod-uid" "Started"] := by
    have hother : checkEvent ["pod-uid"] (sampleRecord "other" "") = .ok none := by decide +kernel
    have hstarted : checkEvent ["pod-uid"] (sampleRecord "pod-uid" "Started") =
        .ok (some ⟨"Started", "2026-01-01T00:00:00Z", startedObservation.payload⟩) := by decide +kernel
    intro record hrecord event hevent
    simp only [List.mem_cons, List.not_mem_nil, or_false] at hrecord
    rcases hrecord with rfl | rfl
    · cases hother.symm.trans hevent
    · obtain rfl := Option.some.inj (Except.ok.inj (hstarted.symm.trans hevent))
      show strip (truncated "Started").toList ≠ []
      decide +kernel
  have hsibling := events_isolated (by decide) sample_uids (by decide +kernel :
      items (getOr (sampleEvents (sampleRecord "other" "") (sampleRecord "pod-uid" "Started")) "items" (.arr [])) 256 =
        .ok [sampleRecord "other" "", sampleRecord "pod-uid" "Started"]) hchecks sampleWindow [sampleDraw]
    (fun _ => none) (by rw [hreads]; rfl) (List.nodup_singleton _) (by rw [hreads]; exact started_trusted)
  rw [hreads] at hsibling
  exact ⟨hsibling.1.mpr (.inl hshown), hsibling.2.mpr ⟨.inl hshown, List.pairwise_singleton _ _⟩⟩

end Sample

end PayOps.Tools
