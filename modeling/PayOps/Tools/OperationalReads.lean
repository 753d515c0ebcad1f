import PayOps.Orchestrator.Reasoning
import PayOps.Tools.Collect

/-!
# Operational reads

`OperationalReads._read`, `_project` and `_verify` of `payops.tools.operational_reads`, for the reads of the
Kubernetes and payment clients.

## The model

`read` takes what the client returns, the time at which the host checks it, and for each observation what is drawn
while it is normalized and verified (`ReadDraw`). All that is checked before the first write is `checkedRead`.
`Snapshots` is the parser of payment snapshots, whichever it is.

## What is proved

* `redactText_plain` — a text without white space, equality sign and colon is redacted to itself.
* `normalizeAll_eval` — normalization stops at the first observation that does not normalize, behind the artifacts
  of those before it.
* `verifyRead_eval` — what is retained of a projected observation passes the verification while it is fresh.
* `read_all_or_nothing` — **main result**: a read returns all its observations or leaves the store as it was, if
  and only if behind the checks either all observations normalize and are verified, or the first does not
  normalize.

## Honest scope

Searches are not modelled. No file operation fails. Derived evidence (payment windows, spans, trace logs, passages)
is of no source that a client of these reads may give; its verification is left out.
-/

namespace PayOps.Tools

open Evidence Json
open Orchestrator (ToolName Service ReadRequest)

/-- `snapshot_observation`: the query and the time of a snapshot. -/
class Snapshots where
  /-- The query and `observed_at`, of a payload and the name of a service. -/
  parse : JsonObject → String → Except Fault (String × Time)

/-- `ReadBinding`; its namespace is that of the sandbox. -/
structure ReadBinding [Platform] where
  /-- `incident_id`. -/
  incidentId : Identifier

/-- What is drawn for one observation of a read. -/
structure ReadDraw [Platform] where
  /-- `new_id()`. -/
  evidenceId : Identifier
  /-- `utc_now()`, in `normalize`. -/
  collectedAt : Time
  /-- `self._clock()`, in `_verify`. -/
  verifiedAt : Time

section Model

variable [Platform]

/-- The name of a service, as an identifier. -/
def serviceIdentifier : Service → Identifier
  | .paymentsApi => ⟨"payments-api", rfl⟩
  | .processorAdapter => ⟨"processor-adapter", rfl⟩
  | .riskSim => ⟨"risk-sim", rfl⟩
  | .ledgerSim => ⟨"ledger-sim", rfl⟩
  | .webhookSim => ⟨"webhook-sim", rfl⟩

omit [Platform] in
/-- `snapshot_queries(service)[0]`. -/
def snapshotQuery (service : Service) : String :=
  "\x7b__name__=~\"payment_requests_total|payment_authorization_latency_seconds_count|" ++
    "payment_authorization_latency_seconds_sum|payment_idempotency_conflicts_total|" ++
    "sandbox_process_start_time_seconds|up\",job=\"payops-sandbox\",service=\"" ++ service.name ++ "\"\x7d"

/-- The sources and queries that a tool may give. -/
def expected (request : ReadRequest) : List (Source × String) :=
  match request.tool with
  | .podEvents => [(.kubernetes, "events.current-pod-uid")]
  | .recentLogs => [(.log, "logs.5m.100")]
  | .paymentSnapshot => [(.prometheus, snapshotQuery request.service)]
  | .workloadStatus =>
    [(.deployment, "kubernetes.status-snapshot"), (.kubernetes, "kubernetes.status-snapshot"),
      (.kubernetes, "pods.count")]
  | _ => []

/-- `now - timedelta(minutes=5) <= observed <= now`. -/
def fresh (now observed : Time) : Bool := now - seconds 300 ≤ observed && observed ≤ now

/-- A status of a pod, which may be named after the service. -/
def podStatus (request : ReadRequest) (item : Observation) : Bool :=
  request.tool == .workloadStatus && item.source == .kubernetes &&
    item.query.val == "kubernetes.status-snapshot" && field item.payload "kind" == some (.str "Pod") &&
    (request.service.name ++ "-").toList.isPrefixOf item.resource.val.toList

/-- A field of the payload that names another scope. -/
def otherScope (payload : JsonObject) (key : String) (value : Json) : Bool :=
  (field payload key).any (· != value)

/-- The payload with the assignments of the host. -/
def assigned (request : ReadRequest) (item : Observation) : JsonObject :=
  setField (setField (setField item.payload "original_resource" (.str item.resource.val)) "namespace" NAMESPACE)
    "service" (.str request.service.name)

variable [Snapshots]

/-- `_project`. -/
def project (request : ReadRequest) (now : Time) (item : Observation) : Except Fault Observation :=
  if (item.source, item.query.val) ∉ expected request then .error (.value "read source or query mismatch")
  else if item.resource.val ≠ request.service.name ∧ podStatus request item = false then
    .error (.value "read resource mismatch")
  else if fresh now item.observedAt = false then .error (.value "raw observation outside freshness window")
  else if item.source = .prometheus then do
    let parsed ← Snapshots.parse item.payload request.service.name
    if item.observedAt ≠ parsed.2 then throw (.value "payment snapshot observation time mismatch")
    return item
  else if otherScope item.payload "namespace" NAMESPACE || otherScope item.payload "service"
      (.str request.service.name) then .error (.value "raw payload scope mismatch")
  else .ok { item with resource := serviceIdentifier request.service, payload := assigned request item }

/-- The projection of all observations. -/
def projectAll (request : ReadRequest) (now : Time) : List Observation → Except Fault (List Observation)
  | [] => return []
  | item :: rest => do
    let projected ← project request now item
    let others ← projectAll request now rest
    return projected :: others

/-- What `_read` checks before the first write; `call` is what the client returns. -/
def checkedRead (request : ReadRequest) (call : Except Fault (List Observation)) (now : Time) :
    Except Fault (List Observation) := do
  let observations ← call
  if 64 < observations.length then throw (.value "read evidence count exceeded")
  projectAll request now observations

variable [FileStore.Hashing] [Isoformat] [Numerals]

/-- `ArtifactStore.verify`, with the envelope that it returns. -/
def readArtifact (item : EvidenceItem) : Storing JsonObject := do
  verifyArtifact item
  let held ← Storing.current
  match held item.artifactSha256.val with
  | some content => Storing.lift ((FileStore.Hashing.validateJson content).mapError FileStore.Raised.fault)
  | none => throw (.integrity "artifact unavailable")

/-- What `_verify` checks of the payload of an item. -/
def verifyPayload (item : EvidenceItem) (envelope : JsonObject) : Except Fault Unit :=
  match field envelope "payload" with
  | some (.obj payload) =>
    if item.source = .prometheus then do
      let parsed ← Snapshots.parse payload item.resource.val
      if (item.query.val, item.observedAt) ≠ parsed then
        throw (.integrity "payment snapshot metadata mismatch")
    else if field payload "namespace" = some NAMESPACE ∧ field payload "service" = some (.str item.resource.val) then
      .ok ()
    else .error (.integrity "foreign raw scope")
  | _ =>
    .error (.integrity (if item.source = .prometheus then "invalid payment snapshot payload"
      else "foreign raw scope"))

/-- `verify_evidence`, of evidence that is not derived. -/
def verifySource (item : EvidenceItem) : Storing Unit := do
  match ← attempt (verifyArtifact item) with
  | .ok () => return ()
  | .error x => throw (if x.isValue then .integrity "evidence source verification failed" else x)

/-- `_verify`, of evidence that is not derived. -/
def verifyRead (b : ReadBinding) (now : Time) (item : EvidenceItem) : Storing Unit := do
  verifySource item
  if item.incidentId ≠ b.incidentId then throw (.integrity "foreign read incident")
  else do
    let envelope ← readArtifact item
    Storing.lift (verifyPayload item envelope)
    if fresh now item.observedAt = false then throw (.integrity "read evidence outside freshness window")

/-- The normalization of all observations. -/
def normalizeAll (b : ReadBinding) (now : Time) : List (ReadDraw × Observation) → Storing (List EvidenceItem)
  | [] => return []
  | (d, item) :: rest => do
    let evidence ← normalize d.evidenceId d.collectedAt item b.incidentId.val (some (now - seconds 300)) (some now)
    let others ← normalizeAll b now rest
    return evidence :: others

/-- The verification of all items. -/
def verifyAll (b : ReadBinding) : List (ReadDraw × EvidenceItem) → Storing Unit
  | [] => return ()
  | (d, item) :: rest => do
    verifyRead b d.verifiedAt item
    verifyAll b rest

/-- `_read`. -/
def read (b : ReadBinding) (request : ReadRequest) (call : Except Fault (List Observation)) (now : Time)
    (draws : List ReadDraw) : Storing (List EvidenceItem) := do
  let projected ← Storing.lift (checkedRead request call now)
  let evidence ← normalizeAll b now (draws.zip projected)
  verifyAll b (draws.zip evidence)
  return evidence

end Model

/-! ### Names -/

section Names

variable [Platform]

omit [Platform] in
/-- Where no part of a text matches, the text is tame. -/
theorem tame_of_none {find : Text.Scanner Char} {prev : Option Char} {xs : List Char}
    (h : ∀ prev ys, ys <:+ xs → find prev ys = none) : Text.Tame find prev xs := by
  induction xs generalizing prev with
  | nil => trivial
  | cons x xs ih =>
    refine ⟨fun rest text hfind => ?_, ih fun prev ys hys => h prev ys (hys.trans (List.suffix_cons x xs))⟩
    rw [h prev (x :: xs) List.suffix_rfl] at hfind
    cases hfind

/-- **A text without white space, equality sign and colon** is redacted to itself. -/
theorem redactText_plain {text : String} (h : ∀ c ∈ text.toList, reSpace c = false ∧ c ≠ '=' ∧ c ≠ ':') :
    redactText text = text := by
  have hbearer : ∀ prev ys, ys <:+ text.toList → bearer prev ys = none := by
    intro prev ys hys
    cases hfind : bearer prev ys with
    | none => rfl
    | some m =>
      obtain ⟨rest, out⟩ := m
      obtain ⟨-, -, hspaces, -, -, -⟩ := bearer_eq_some hfind
      have hkept : (ys.drop 6).dropWhile reSpace = ys.drop 6 := by
        apply dropWhile_of_head
        intro c hc
        exact (h c (hys.subset (List.mem_of_mem_drop (List.mem_of_mem_head? hc)))).1
      rw [hkept] at hspaces
      exact absurd hspaces (lt_irrefl _)
  have hassignment : ∀ prev ys, ys <:+ text.toList → assignment prev ys = none := by
    intro prev ys hys
    cases hfind : assignment prev ys with
    | none => rfl
    | some m =>
      obtain ⟨rest, out⟩ := m
      obtain ⟨-, k, value, -, hseparator, -, -⟩ := assignment_eq_some hfind
      have hkept : ∀ c ∈ (ys.drop k.length).dropWhile reSpace, c ≠ '=' ∧ c ≠ ':' := by
        intro c hc
        have hmem := (List.dropWhile_suffix reSpace).subset hc
        exact (h c (hys.subset (List.mem_of_mem_drop hmem))).2
      unfold separator at hseparator
      split at hseparator
      · rename_i hcs
        exact absurd rfl (hkept '=' (by rw [hcs]; exact List.mem_cons_self)).1
      · rename_i hcs
        exact absurd rfl (hkept ':' (by rw [hcs]; exact List.mem_cons_self)).2
      · cases hseparator
  have hfirst : redactBearer text.toList = text.toList :=
    Text.sub_of_tame cuts_bearer none _ (tame_of_none hbearer)
  rw [redactText, hfirst, Text.sub_of_tame cuts_assignment none _ (tame_of_none hassignment), String.ofList_toList]

/-- No word character beyond ASCII is white space. -/
def WordsShown : Prop := ∀ c, Platform.patternWord c = true → reSpace c = false

omit [Platform] in
/-- An ASCII character of an identifier, by its code. -/
theorem ascii_code {c : Char} (h : (asciiWord c || c == '.' || c == '-') = true) :
    c.val.toNat = 45 ∨ c.val.toNat = 46 ∨ 48 ≤ c.val.toNat ∧ c.val.toNat ≤ 57 ∨
      65 ≤ c.val.toNat ∧ c.val.toNat ≤ 122 := by
  simp only [asciiWord, Char.isAlphanum, Char.isAlpha, Char.isUpper, Char.isLower, Char.isDigit, Bool.or_eq_true,
    Bool.and_eq_true, decide_eq_true_eq, beq_iff_eq, UInt32.le_iff_toNat_le, ge_iff_le] at h
  rcases h with ((((hupper | hlower) | hdigit) | rfl) | rfl) | rfl
  · have h₁ : 65 ≤ c.val.toNat := hupper.1
    have h₂ : c.val.toNat ≤ 90 := hupper.2
    omega
  · have h₁ : 97 ≤ c.val.toNat := hlower.1
    have h₂ : c.val.toNat ≤ 122 := hlower.2
    omega
  · have h₁ : 48 ≤ c.val.toNat := hdigit.1
    have h₂ : c.val.toNat ≤ 57 := hdigit.2
    omega
  · decide
  · decide
  · decide

omit [Platform] in
/-- White space of ASCII, by its code. -/
theorem space_code {c : Char} (hascii : c.val.toNat < 128) (h : reSpace c = true) : c.val.toNat ≤ 32 := by
  simp only [reSpace, whiteSpace, Bool.or_eq_true, decide_eq_true_eq, List.mem_cons, List.not_mem_nil, or_false,
    Bool.and_eq_true, UInt32.le_iff_toNat_le, ← UInt32.toNat_inj, UInt32.reduceToNat] at h
  omega

/-- An identifier is redacted to itself. -/
theorem redact_identifier (hwords : WordsShown) (i : Identifier) : redactText i.val = i.val := by
  apply redactText_plain
  intro c hc
  have hi := i.property
  rw [identifierOk, Bool.and_eq_true, List.all_eq_true] at hi
  have hchar := hi.2 c hc
  unfold identifierChar at hchar
  split_ifs at hchar with hascii
  · have hcode := ascii_code hchar
    have hsmall : c.val.toNat < 128 := UInt32.lt_iff_toNat_lt.mp hascii
    refine ⟨?_, ?_, ?_⟩
    · by_contra hspace
      have hle := space_code hsmall (by simpa using hspace)
      omega
    · rintro rfl
      revert hcode
      decide
    · rintro rfl
      revert hcode
      decide
  · refine ⟨hwords c hchar, ?_, ?_⟩
    · rintro rfl
      exact hascii (by decide)
    · rintro rfl
      exact hascii (by decide)

/-- A field whose key is shown is redacted by itself. -/
theorem redactFields_field {depth : ℕ} {name : Bool} {fields fields' : JsonObject} {key : String} {v : Json}
    (h : redactFields depth name fields = .ok fields') (hv : field fields key = some v)
    (hshown : hides name key = false) : ∃ v', redact (depth + 1) v = .ok v' ∧ field fields' key = some v' := by
  induction fields generalizing fields' with
  | nil => cases hv
  | cons f fields ih =>
    obtain ⟨k, x⟩ := f
    obtain ⟨x', rest, hx, hrest, rfl⟩ := redactFields_cons.mp h
    rw [field_cons] at hv ⊢
    split_ifs at hv with hk
    · subst hk
      obtain rfl := Option.some.inj hv
      exact ⟨x', hx.2 hshown, if_pos rfl⟩
    · rw [if_neg hk]
      exact ih hrest hv

/-- A text that is redacted to itself stays in its field. -/
theorem redact_keeps {payload : JsonObject} {redacted : Json} (key : String) {text : String}
    (h : redact 0 (.obj payload) = .ok redacted) (hv : field payload key = some (.str text))
    (hshown : ∀ name, hides name key = false) (htext : redactText text = text) :
    ∃ fields, redacted = .obj fields ∧ field fields key = some (.str text) := by
  obtain ⟨-, fields, hfields, rfl⟩ := redact_obj.mp h
  obtain ⟨v', hv', hfield⟩ := redactFields_field hfields hv (hshown _)
  obtain ⟨-, rfl⟩ := redact_str.mp hv'
  rw [htext] at hfield
  exact ⟨fields, rfl, hfield⟩

end Names

/-! ### The passes -/

section Passes

variable [Platform] [FileStore.Hashing] [Isoformat] [Numerals]

/-- A read, as a collector whose window ends now. -/
def readWindow (b : ReadBinding) (now : Time) : Window := ⟨b.incidentId.val, now - seconds 300⟩

/-- What is drawn for an observation, for such a collector. -/
def asked (now : Time) (p : ReadDraw × Observation) : Draw × Observation :=
  (⟨p.1.evidenceId, now - seconds 1, p.1.collectedAt⟩, p.2)

/-- What the store held it holds. -/
def Keeps (held held' : Artifacts) : Prop := ∀ digest content, held digest = some content → held' digest = some content

omit [Platform] [FileStore.Hashing] [Isoformat] [Numerals] in
theorem Keeps.refl (held : Artifacts) : Keeps held held := fun _ _ h => h

omit [Platform] [FileStore.Hashing] [Isoformat] [Numerals] in
theorem Keeps.trans {held between held' : Artifacts} (h : Keeps held between) (h' : Keeps between held') :
    Keeps held held' := fun digest content hd => h' digest content (h digest content hd)

omit [Platform] [Isoformat] [Numerals] in
/-- A publication replaces nothing. -/
theorem storable_keeps {held : Artifacts} {payload : JsonObject} {content : FileStore.Bytes}
    (h : Storable held payload content) : Keeps held (published held content) := by
  intro digest found hfound
  by_cases hsame : digest = FileStore.Hashing.hexdigest content
  · subst hsame
    rw [h.compatible found hfound, published, Function.update_self]
  · rwa [published, Function.update_of_ne hsame]

/-- The item of an observation, with its content in the store. -/
def Stored (w : Window) (q : Draw × Observation) (held : Artifacts) (item : EvidenceItem) : Prop :=
  ∃ m payload content, ∃ h : digestOk (FileStore.Hashing.hexdigest content) = true,
    prepare q.1.evidenceId q.1.collectedAt q.2 w.incidentId (some w.start) (some (q.1.now + seconds 1)) =
      .ok (m, payload) ∧ FileStore.encode (envelope m payload) = .ok content ∧
    content.length ≤ FileStore.MAX_ARTIFACT_BYTES ∧ held (FileStore.Hashing.hexdigest content) = some content ∧
    item = retained m ⟨_, h⟩

omit [Numerals] in
theorem Stored.mono {w : Window} {q : Draw × Observation} {held held' : Artifacts} {item : EvidenceItem}
    (h : Stored w q held item) (hkeeps : Keeps held held') : Stored w q held' item := by
  obtain ⟨m, payload, content, hnamed, hprepared, hencoded, hsmall, hheld, hitem⟩ := h
  exact ⟨m, payload, content, hnamed, hprepared, hencoded, hsmall, hkeeps _ _ hheld, hitem⟩

variable {b : ReadBinding} {now : Time} {p : ReadDraw × Observation} {reads : List (ReadDraw × Observation)}
  {held : Artifacts}

/-- **What becomes of one observation** of a read. -/
theorem normalize_step (h : Trusted (readWindow b now) (asked now p :: reads.map (asked now)) held) :
    (Normalizes (readWindow b now) (asked now p) ∧ ∃ item content, Written (readWindow b now) (asked now p) content ∧
      Stored (readWindow b now) (asked now p) (published held content) item ∧ Keeps held (published held content) ∧
      (normalize p.1.evidenceId p.1.collectedAt p.2 b.incidentId.val (some (now - seconds 300)) (some now)).eval
        held = (.ok item, published held content)) ∨
    ¬Normalizes (readWindow b now) (asked now p) ∧ ∃ x,
      (normalize p.1.evidenceId p.1.collectedAt p.2 b.incidentId.val (some (now - seconds 300)) (some now)).eval
        held = (.error x, held) := by
  have hfinish : (asked now p).1.now + seconds 1 = now := by simp [asked]
  have hall : ∀ {m payload}, prepare (asked now p).1.evidenceId (asked now p).1.collectedAt (asked now p).2
      (readWindow b now).incidentId (some (readWindow b now).start) (some ((asked now p).1.now + seconds 1)) =
        .ok (m, payload) ↔ prepare p.1.evidenceId p.1.collectedAt p.2 b.incidentId.val (some (now - seconds 300))
          (some now) = .ok (m, payload) := by
    intro m payload
    rw [hfinish]
    rfl
  rcases normalize_eval held p.1.evidenceId p.1.collectedAt p.2 b.incidentId.val (some (now - seconds 300))
      (some now) with ⟨m, payload, content, haccepted, hrun⟩ | ⟨hnone, x, -, hrun⟩
  · left
    have hprepared := hall.mpr haccepted.prepared
    have hwritten : Written (readWindow b now) (asked now p) content :=
      ⟨m, payload, hprepared, haccepted.stored.encoded⟩
    exact ⟨⟨content, hwritten, haccepted.stored.small⟩, _, content, hwritten,
      ⟨m, payload, content, haccepted.stored.named, hprepared, haccepted.stored.encoded, haccepted.stored.small,
        Function.update_self _ _ _, rfl⟩, storable_keeps haccepted.stored, hrun⟩
  · right
    refine ⟨?_, x, hrun⟩
    rintro ⟨content, ⟨m, payload, hprepared, hencoded⟩, hsmall⟩
    have hwritten : Written (readWindow b now) (asked now p) content := ⟨m, payload, hprepared, hencoded⟩
    exact hnone ⟨m, payload, content, hall.mp hprepared, hencoded, hsmall,
      h.named _ List.mem_cons_self content hwritten, h.free _ List.mem_cons_self content hwritten⟩

/-- **What normalization leaves**: all items, or what was written before the first observation that does not
normalize. -/
theorem normalizeAll_eval (h : Trusted (readWindow b now) (reads.map (asked now)) held) :
    (∃ evidence held', (normalizeAll b now reads).eval held = (.ok evidence, held') ∧ Keeps held held' ∧
      (∀ q ∈ reads, Normalizes (readWindow b now) (asked now q)) ∧
      List.Forall₂ (fun q item => Stored (readWindow b now) (asked now q) held' item) reads evidence) ∨
    ∃ x held', (normalizeAll b now reads).eval held = (.error x, held') ∧ Keeps held held' ∧
      ∃ first rest, reads = first :: rest ∧
        (¬Normalizes (readWindow b now) (asked now first) ∧ held' = held ∨
          (∃ q ∈ rest, ¬Normalizes (readWindow b now) (asked now q)) ∧
          ∃ item, Stored (readWindow b now) (asked now first) held' item) := by
  induction reads generalizing held with
  | nil => exact .inl ⟨[], held, rfl, Keeps.refl held, by simp, .nil⟩
  | cons p reads ih =>
    rcases normalize_step h with ⟨hnormal, item, content, hwritten, hstored, hkeeps, hrun⟩ | ⟨hnot, x, hrun⟩
    · have hstep : (normalizeAll b now (p :: reads)).eval held =
          ((do let others ← normalizeAll b now reads; return item :: others : Storing _).eval
            (published held content)) := by
        rw [normalizeAll, Storing.eval_bind, hrun]
      rw [hstep, Storing.eval_bind]
      rcases ih (h.published hwritten) with ⟨evidence, held', hrest, hlater, hall, hitems⟩ |
        ⟨x, held', hrest, hlater, first, rest, hreads, hfirst⟩
      · left
        refine ⟨item :: evidence, held', ?_, hkeeps.trans hlater, ?_, .cons (hstored.mono hlater) hitems⟩
        · rw [hrest]
          rfl
        · intro q hq
          rcases List.mem_cons.mp hq with rfl | hq
          · exact hnormal
          · exact hall q hq
      · right
        refine ⟨x, held', ?_, hkeeps.trans hlater, p, reads, rfl, .inr ⟨?_, item, hstored.mono hlater⟩⟩
        · rw [hrest]
        · rcases hfirst with ⟨hnot, -⟩ | ⟨⟨q, hq, hnot⟩, -⟩
          · exact ⟨first, hreads ▸ List.mem_cons_self, hnot⟩
          · exact ⟨q, hreads ▸ List.mem_cons_of_mem first hq, hnot⟩
    · right
      refine ⟨x, held, ?_, Keeps.refl held, p, reads, rfl, .inl ⟨hnot, rfl⟩⟩
      rw [normalizeAll, Storing.eval_bind, hrun]

variable [Snapshots]

/-- What is retained of an observation is what the host verifies. -/
def Confirmed (b : ReadBinding) (now : Time) (p : ReadDraw × Observation) : Prop :=
  ∀ m payload content parsed, ∀ h : digestOk (FileStore.Hashing.hexdigest content) = true,
    prepare p.1.evidenceId p.1.collectedAt p.2 b.incidentId.val (some (now - seconds 300)) (some now) =
      .ok (m, payload) → FileStore.encode (envelope m payload) = .ok content →
    FileStore.Hashing.validateJson content = .ok parsed → verifyPayload (retained m ⟨_, h⟩) parsed = .ok ()

omit [FileStore.Hashing] [Isoformat] [Numerals] [Snapshots] in
/-- The fields of the metadata. -/
theorem validateMetadata_fields {evidenceId : Identifier} {collectedAt : Time} {observation : Observation}
    {incidentId : String} {m : EvidenceMetadata}
    (h : validateMetadata evidenceId collectedAt observation incidentId = .ok m) :
    m.incidentId.val = incidentId ∧ m.source = observation.source ∧ m.observedAt = observation.observedAt ∧
      m.resource = observation.resource := by
  unfold validateMetadata at h
  split at h
  · rename_i hincident _ _
    cases h
    exact ⟨Identifier.validate_eq_some.mp hincident, rfl, rfl, rfl⟩
  · cases h

/-- **The verification of what was retained**: it succeeds while the payload is confirmed and the observation is
fresh. -/
theorem verifyRead_eval {item : EvidenceItem} (hstored : Stored (readWindow b now) (asked now p) held item)
    (hread : ∀ m payload content, prepare p.1.evidenceId p.1.collectedAt p.2 b.incidentId.val
      (some (now - seconds 300)) (some now) = .ok (m, payload) → FileStore.encode (envelope m payload) = .ok content →
      ReadBack (envelope m payload) content) :
    (Confirmed b now p ∧ fresh p.1.verifiedAt p.2.observedAt = true ∧
      (verifyRead b p.1.verifiedAt item).eval held = (.ok (), held)) ∨
    ¬(Confirmed b now p ∧ fresh p.1.verifiedAt p.2.observedAt = true) ∧
      ∃ x, (verifyRead b p.1.verifiedAt item).eval held = (.error x, held) := by
  obtain ⟨m, payload, content, hnamed, hprepared, hencoded, hsmall, hheld, rfl⟩ := hstored
  have hfinish : (asked now p).1.now + seconds 1 = now := by simp [asked]
  rw [hfinish] at hprepared
  have hprepared : prepare p.1.evidenceId p.1.collectedAt p.2 b.incidentId.val (some (now - seconds 300))
      (some now) = .ok (m, payload) := hprepared
  obtain ⟨-, hmetadata, -⟩ := prepare_ok.mp hprepared
  obtain ⟨hincident, -, hobserved, -⟩ := validateMetadata_fields hmetadata
  have hback := hread m payload content hprepared hencoded
  obtain ⟨parsed, hparsed, -⟩ := hread m payload content hprepared hencoded
  have hsource : (verifySource (retained m ⟨_, hnamed⟩)).eval held = (.ok (), held) := by
    rw [verifySource, Storing.eval_bind, eval_attempt, verify_held hnamed hsmall hheld hback]
    rfl
  have hartifact : (readArtifact (retained m ⟨_, hnamed⟩)).eval held = (.ok parsed, held) := by
    rw [readArtifact, Storing.eval_bind, verify_held hnamed hsmall hheld hback]
    simp only
    rw [Storing.eval_bind, Storing.eval_current]
    show (match held (FileStore.Hashing.hexdigest content) with | some _ => _ | none => _ : Storing _).eval held = _
    rw [hheld]
    show ((FileStore.Hashing.validateJson content).mapError _, held) = _
    rw [hparsed]
    rfl
  have hconfirmed : Confirmed b now p ↔ verifyPayload (retained m ⟨_, hnamed⟩) parsed = .ok () := by
    constructor
    · intro h
      exact h m payload content parsed hnamed hprepared hencoded hparsed
    · intro h m' payload' content' parsed' hnamed' hprepared' hencoded' hparsed'
      obtain ⟨rfl, rfl⟩ := Prod.mk.inj (Except.ok.inj (hprepared.symm.trans hprepared'))
      obtain rfl := Except.ok.inj (hencoded.symm.trans hencoded')
      obtain rfl := Except.ok.inj (hparsed.symm.trans hparsed')
      exact h
  have hincident' : (retained m ⟨_, hnamed⟩).incidentId = b.incidentId := Subtype.ext hincident
  have hrun : (verifyRead b p.1.verifiedAt (retained m ⟨_, hnamed⟩)).eval held =
      ((do
        Storing.lift (verifyPayload (retained m ⟨_, hnamed⟩) parsed)
        if fresh p.1.verifiedAt p.2.observedAt = false then
          throw (.integrity "read evidence outside freshness window") : Storing Unit).eval held) := by
    rw [verifyRead, Storing.eval_bind, hsource]
    simp only
    rw [if_neg (not_not.mpr hincident'), Storing.eval_bind, hartifact]
    simp only
    rw [show (retained m ⟨_, hnamed⟩).observedAt = p.2.observedAt from hobserved]
  rw [hconfirmed, hrun, Storing.eval_bind, Storing.eval_lift]
  cases hpayload : verifyPayload (retained m ⟨_, hnamed⟩) parsed with
  | error x => exact .inr ⟨fun h => (nomatch h.1), x, rfl⟩
  | ok u =>
    simp only
    cases hfresh : fresh p.1.verifiedAt p.2.observedAt with
    | true => exact .inl ⟨trivial, rfl, rfl⟩
    | false => exact .inr ⟨fun h => (nomatch h.2), _, rfl⟩

omit [Snapshots] in
/-- The parser reads back what the observations of a read put into the store. -/
theorem trusted_readBack (h : Trusted (readWindow b now) (reads.map (asked now)) held) (hp : p ∈ reads) :
    ∀ m payload content, prepare p.1.evidenceId p.1.collectedAt p.2 b.incidentId.val (some (now - seconds 300))
      (some now) = .ok (m, payload) → FileStore.encode (envelope m payload) = .ok content →
      ReadBack (envelope m payload) content := by
  intro m payload content hprepared hencoded
  have hfinish : (asked now p).1.now + seconds 1 = now := by simp [asked]
  refine h.readBack _ (List.mem_map_of_mem hp) m payload content ?_ hencoded
  rw [hfinish]
  exact hprepared

/-- **The verification of all items.** -/
theorem verifyAll_eval {evidence : List EvidenceItem}
    (hread : ∀ q ∈ reads, ∀ m payload content, prepare q.1.evidenceId q.1.collectedAt q.2 b.incidentId.val
      (some (now - seconds 300)) (some now) = .ok (m, payload) → FileStore.encode (envelope m payload) = .ok content →
      ReadBack (envelope m payload) content)
    (hstored : List.Forall₂ (fun q item => Stored (readWindow b now) (asked now q) held item) reads evidence) :
    ((∀ q ∈ reads, Confirmed b now q ∧ fresh q.1.verifiedAt q.2.observedAt = true) ∧
      (verifyAll b ((reads.map Prod.fst).zip evidence)).eval held = (.ok (), held)) ∨
    (¬∀ q ∈ reads, Confirmed b now q ∧ fresh q.1.verifiedAt q.2.observedAt = true) ∧
      ∃ x, (verifyAll b ((reads.map Prod.fst).zip evidence)).eval held = (.error x, held) := by
  induction hstored with
  | nil => exact .inl ⟨by simp, rfl⟩
  | @cons q item reads evidence hitem _ ih =>
    have hrest := ih fun q' hq' => hread q' (List.mem_cons_of_mem q hq')
    rw [List.map_cons, List.zip_cons_cons, verifyAll, Storing.eval_bind, List.forall_mem_cons]
    rcases verifyRead_eval hitem (hread q List.mem_cons_self) with ⟨hconfirmed, hfresh, hrun⟩ | ⟨hnot, x, hrun⟩
    · rw [hrun]
      rcases hrest with ⟨hall, hlater⟩ | ⟨hnot, x, hlater⟩
      · exact .inl ⟨⟨⟨hconfirmed, hfresh⟩, hall⟩, hlater⟩
      · exact .inr ⟨fun h => hnot h.2, x, hlater⟩
    · rw [hrun]
      exact .inr ⟨fun h => hnot h.1, x, rfl⟩

end Passes

/-! ### The projection -/

section Projection

variable [Platform] [Snapshots] {request : ReadRequest} {now : Time} {item projected : Observation}

omit [Snapshots] in
theorem serviceIdentifier_val (service : Service) : (serviceIdentifier service).val = service.name := by
  cases service <;> rfl

/-- **What is projected**: an observation of the service, still fresh, with the assignments of the host. -/
theorem project_ok (h : project request now item = .ok projected) :
    projected.source = item.source ∧ projected.resource.val = request.service.name ∧
      projected.observedAt = item.observedAt ∧ fresh now item.observedAt = true ∧
      (item.source ≠ .prometheus → projected.payload = assigned request item) := by
  unfold project at h
  split_ifs at h with hexpected hresource hfresh hsource hscope
  · obtain ⟨parsed, -, hrest⟩ := except_bind_ok.mp h
    have hsame : projected = item := by
      split_ifs at hrest
      · cases hrest
      · exact (Except.ok.inj hrest).symm
    subst hsame
    rw [not_and_or, not_not] at hresource
    refine ⟨rfl, ?_, rfl, by simpa using hfresh, fun hraw => absurd hsource hraw⟩
    rcases hresource with hname | hpod
    · exact hname
    · rw [Bool.not_eq_false] at hpod
      simp [podStatus, hsource] at hpod
  · cases h
    exact ⟨rfl, serviceIdentifier_val _, rfl, by simpa using hfresh, fun _ => rfl⟩

theorem projectAll_ok {items others : List Observation} (h : projectAll request now items = .ok others) :
    List.Forall₂ (fun o o' => project request now o = .ok o') items others := by
  induction items generalizing others with
  | nil =>
    cases h
    exact .nil
  | cons o items ih =>
    obtain ⟨o', ho, hrest⟩ := except_bind_ok.mp h
    obtain ⟨others', hothers, hout⟩ := except_bind_ok.mp hrest
    cases hout
    exact .cons ho (ih hothers)

theorem checkedRead_ok {call : Except Fault (List Observation)} {others : List Observation}
    (h : checkedRead request call now = .ok others) :
    ∃ observations, call = .ok observations ∧
      List.Forall₂ (fun o o' => project request now o = .ok o') observations others := by
  obtain ⟨observations, hcall, hrest⟩ := except_bind_ok.mp h
  split_ifs at hrest
  · cases hrest
  · exact ⟨observations, hcall, projectAll_ok hrest⟩

omit [Platform] [Snapshots] in
/-- The host's fields are not hidden. -/
theorem host_keys (name : Bool) : hides name "original_resource" = false ∧ hides name "namespace" = false ∧
    hides name "service" = false := by
  cases name <;> decide

variable {b : ReadBinding} {evidenceId : Identifier} {collectedAt : Time} {incidentId : String}
  {m : EvidenceMetadata} {payload : Json}

/-- **The host's fields survive the redaction.** -/
theorem project_redacted (hwords : WordsShown) (h : project request now item = .ok projected)
    (hraw : item.source ≠ .prometheus)
    (hprepared : prepare evidenceId collectedAt projected incidentId (some (now - seconds 300)) (some now) =
      .ok (m, payload)) :
    ∃ fields, payload = .obj fields ∧ field fields "original_resource" = some (.str item.resource.val) ∧
      field fields "namespace" = some NAMESPACE ∧ field fields "service" = some (.str request.service.name) := by
  obtain ⟨-, -, -, -, hpayload⟩ := project_ok h
  obtain ⟨-, -, hredacted⟩ := prepare_ok.mp hprepared
  rw [hpayload hraw] at hredacted
  have hservice : redactText request.service.name = request.service.name := by
    rw [← serviceIdentifier_val]
    exact redact_identifier hwords _
  have hnamespace : redactText "payops-sandbox" = "payops-sandbox" := by
    have hall : ("payops-sandbox".toList.all fun c => !reSpace c && c != '=' && c != ':') = true := by decide
    apply redactText_plain
    intro c hc
    have hchar := List.all_eq_true.mp hall c hc
    simpa [and_assoc] using hchar
  obtain ⟨fields, rfl, horiginal⟩ := redact_keeps "original_resource" hredacted (by simp [assigned])
    (fun name => (host_keys name).1) (redact_identifier hwords item.resource)
  obtain ⟨fields', hsame, hspace⟩ := redact_keeps "namespace" hredacted (by simp [assigned, NAMESPACE])
    (fun name => (host_keys name).2.1) hnamespace
  obtain rfl := Json.obj.inj hsame
  obtain ⟨fields', hsame, hname⟩ := redact_keeps "service" hredacted (by simp [assigned])
    (fun name => (host_keys name).2.2) hservice
  obtain rfl := Json.obj.inj hsame
  exact ⟨fields, rfl, horiginal, hspace, hname⟩

variable [FileStore.Hashing] [Isoformat] [Numerals]

/-- **What is retained of a raw observation is verified.** -/
theorem confirmed_raw (hwords : WordsShown) {d : ReadDraw} (h : project request now item = .ok projected)
    (hraw : item.source ≠ .prometheus)
    (hread : ∀ m payload content, prepare d.evidenceId d.collectedAt projected b.incidentId.val
      (some (now - seconds 300)) (some now) = .ok (m, payload) → FileStore.encode (envelope m payload) = .ok content →
      ReadBack (envelope m payload) content) : Confirmed b now (d, projected) := by
  intro m payload content parsed hnamed hprepared hencoded hparsed
  obtain ⟨parsed', hparsed', hequal⟩ := hread m payload content hprepared hencoded
  obtain rfl := Except.ok.inj (hparsed.symm.trans hparsed')
  obtain ⟨fields, rfl, -, hspace, hservice⟩ := project_redacted hwords h hraw hprepared
  obtain ⟨-, hmetadata, -⟩ := prepare_ok.mp hprepared
  obtain ⟨-, hsource, -, hresource⟩ := validateMetadata_fields hmetadata
  obtain ⟨hsame, hname, -, -, -⟩ := project_ok h
  obtain ⟨found, hfound, hfields⟩ := pythonEqual_field hequal
  obtain rfl := Json.obj.inj hfound
  obtain ⟨kept, hkept, hkeptEqual⟩ := hfields "payload" (.obj fields) rfl
  obtain ⟨inner, rfl, hinner⟩ := pythonEqual_field hkeptEqual
  obtain ⟨space', hspace', hspaceEqual⟩ := hinner "namespace" _ hspace
  obtain ⟨service', hservice', hserviceEqual⟩ := hinner "service" _ hservice
  rw [pythonEqual_str hspaceEqual] at hspace'
  rw [pythonEqual_str hserviceEqual] at hservice'
  have hnot : (retained m ⟨_, hnamed⟩).source ≠ .prometheus := by
    rw [show (retained m ⟨_, hnamed⟩).source = m.source from rfl, hsource, hsame]
    exact hraw
  have hval : (retained m ⟨_, hnamed⟩).resource.val = request.service.name := by
    rw [show (retained m ⟨_, hnamed⟩).resource = m.resource from rfl, hresource]
    exact hname
  unfold verifyPayload
  rw [hkept]
  simp only
  rw [if_neg hnot, if_pos ⟨hspace', by rw [hval]; exact hservice'⟩]

end Projection

/-! ### All or nothing -/

section AllOrNothing

variable [Platform] [Snapshots] [FileStore.Hashing] [Isoformat] [Numerals]

/-- An item of a read: bound to the incident, the service and the source of its observation, fresh when it was
verified, and of a raw source retained with the scope of the host and the name that the client gave. -/
structure Bound (b : ReadBinding) (request : ReadRequest) (held : Artifacts) (p : ReadDraw × Observation)
    (item : EvidenceItem) : Prop where
  /-- The incident of the host. -/
  incident : item.incidentId = b.incidentId
  /-- The requested service. -/
  service : item.resource.val = request.service.name
  /-- The source. -/
  source : item.source = p.2.source
  /-- It was fresh. -/
  fresh : fresh p.1.verifiedAt item.observedAt = true
  /-- What is retained of a raw source. -/
  original : p.2.source ≠ .prometheus → ∃ m fields content, held item.artifactSha256.val = some content ∧
    FileStore.encode (envelope m (.obj fields)) = .ok content ∧
    field fields "original_resource" = some (.str p.2.resource.val) ∧ field fields "namespace" = some NAMESPACE ∧
    field fields "service" = some (.str request.service.name)

/-- A read returns one item for each observation, in order, or raises and leaves the store. -/
def AllOrNothing (b : ReadBinding) (request : ReadRequest) (call : Except Fault (List Observation))
    (draws : List ReadDraw) (held : Artifacts) (result : Except Fault (List EvidenceItem) × Artifacts) : Prop :=
  (∃ observations evidence held', call = .ok observations ∧ result = (.ok evidence, held') ∧
    List.Forall₂ (Bound b request held') (draws.zip observations) evidence) ∨
  ∃ x, result = (.error x, held)

omit [Numerals] in
/-- What is returned is bound. -/
theorem stored_bound (hwords : WordsShown) {b : ReadBinding} {request : ReadRequest} {now : Time} {d : ReadDraw}
    {o projected : Observation} {item : EvidenceItem} {held : Artifacts}
    (hproject : project request now o = .ok projected)
    (hstored : Stored (readWindow b now) (asked now (d, projected)) held item)
    (hfresh : fresh d.verifiedAt projected.observedAt = true) : Bound b request held (d, o) item := by
  obtain ⟨m, payload, content, hnamed, hprepared, hencoded, hsmall, hheld, rfl⟩ := hstored
  have hfinish : (asked now (d, projected)).1.now + seconds 1 = now := by simp [asked]
  rw [hfinish] at hprepared
  have hprepared : prepare d.evidenceId d.collectedAt projected b.incidentId.val (some (now - seconds 300))
      (some now) = .ok (m, payload) := hprepared
  obtain ⟨-, hmetadata, -⟩ := prepare_ok.mp hprepared
  obtain ⟨hincident, hsource, hobserved, hresource⟩ := validateMetadata_fields hmetadata
  obtain ⟨hsame, hname, -, -, -⟩ := project_ok hproject
  refine ⟨Subtype.ext hincident, ?_, ?_, ?_, fun hraw => ?_⟩
  · show m.resource.val = _
    rw [hresource, hname]
  · show m.source = _
    rw [hsource, hsame]
  · show fresh d.verifiedAt m.observedAt = true
    rw [hobserved]
    exact hfresh
  · obtain ⟨fields, rfl, horiginal, hspace, hservice⟩ := project_redacted hwords hproject hraw hprepared
    exact ⟨m, fields, content, hheld, hencoded, horiginal, hspace, hservice⟩

omit [FileStore.Hashing] [Isoformat] [Numerals] in
/-- A projected observation was projected from one. -/
theorem projected_from {request : ReadRequest} {now : Time} {observations projected : List Observation}
    (h : List.Forall₂ (fun o o' => project request now o = .ok o') observations projected) {o' : Observation}
    (ho' : o' ∈ projected) : ∃ o, project request now o = .ok o' := by
  induction h with
  | nil => cases ho'
  | cons hproject _ ih =>
    rcases List.mem_cons.mp ho' with rfl | ho'
    · exact ⟨_, hproject⟩
    · exact ih ho'

omit [Numerals] in
/-- All that is returned is bound, in order. -/
theorem bound_all (hwords : WordsShown) {b : ReadBinding} {request : ReadRequest} {now : Time}
    {observations projected : List Observation} {held : Artifacts} {draws : List ReadDraw}
    {evidence : List EvidenceItem}
    (h : List.Forall₂ (fun o o' => project request now o = .ok o') observations projected)
    (hstored : List.Forall₂ (fun q item => Stored (readWindow b now) (asked now q) held item)
      (draws.zip projected) evidence)
    (hfresh : ∀ p ∈ draws.zip projected, fresh p.1.verifiedAt p.2.observedAt = true) :
    List.Forall₂ (Bound b request held) (draws.zip observations) evidence := by
  induction h generalizing draws evidence with
  | nil =>
    rw [List.zip_nil_right] at hstored ⊢
    cases hstored
    exact .nil
  | cons hproject _ ih =>
    cases draws with
    | nil =>
      cases hstored
      exact .nil
    | cons d draws =>
      rw [List.zip_cons_cons] at hstored hfresh ⊢
      cases hstored with
      | cons hitem hrest =>
        exact .cons (stored_bound hwords hproject hitem (hfresh _ List.mem_cons_self))
          (ih hrest fun p hp => hfresh p (List.mem_cons_of_mem _ hp))

omit [Snapshots] [Numerals] in
/-- A store that has a new item is another one. -/
theorem stored_changes {b : ReadBinding} {now : Time} {p : ReadDraw × Observation} {held held' : Artifacts}
    {item : EvidenceItem} (hstored : Stored (readWindow b now) (asked now p) held' item)
    (hnew : ∀ content, Written (readWindow b now) (asked now p) content →
      held (FileStore.Hashing.hexdigest content) = none) :
    Normalizes (readWindow b now) (asked now p) ∧ held' ≠ held := by
  obtain ⟨m, payload, content, -, hprepared, hencoded, hsmall, hheld, -⟩ := hstored
  have hwritten : Written (readWindow b now) (asked now p) content := ⟨m, payload, hprepared, hencoded⟩
  refine ⟨⟨content, hwritten, hsmall⟩, ?_⟩
  rintro rfl
  rw [hnew content hwritten] at hheld
  cases hheld

omit [Snapshots] [FileStore.Hashing] [Numerals] in
/-- A read that raises behind a change of the store is not all or nothing. -/
theorem not_allOrNothing {b : ReadBinding} {request : ReadRequest}
    {call : Except Fault (List Observation)} {draws : List ReadDraw} {held held' : Artifacts} {x : Fault}
    (h : held' ≠ held) : ¬AllOrNothing b request call draws held (.error x, held') := by
  rintro (⟨_, _, _, -, hok, -⟩ | ⟨x', herror⟩)
  · cases hok
  · exact h (Prod.mk.inj herror).2

/-- A read goes on behind its checks. -/
theorem read_checked {b : ReadBinding} {request : ReadRequest}
    {call : Except Fault (List Observation)} {now : Time} {draws : List ReadDraw} {held : Artifacts}
    {projected : List Observation} (hchecked : checkedRead request call now = .ok projected) :
    (read b request call now draws).eval held =
      ((do
        let evidence ← normalizeAll b now (draws.zip projected)
        verifyAll b (draws.zip evidence)
        return evidence : Storing _).eval held) := by
  rw [read, Storing.eval_bind, hchecked]
  rfl

/-- A read raises what the pass that normalizes raises. -/
theorem read_raised {b : ReadBinding} {request : ReadRequest}
    {call : Except Fault (List Observation)} {now : Time} {draws : List ReadDraw} {held held' : Artifacts} {x : Fault}
    {projected : List Observation} (hchecked : checkedRead request call now = .ok projected)
    (hraised : (normalizeAll b now (draws.zip projected)).eval held = (.error x, held')) :
    (read b request call now draws).eval held = (.error x, held') := by
  rw [read_checked hchecked, Storing.eval_bind, hraised]

end AllOrNothing

/-! ### A prefix that persists -/

section Sample

attribute [local instance] textPlatform sampleIsoformat FileStore.noNumerals

/-- No payload is a snapshot. -/
@[reducible] def noSnapshots : Snapshots := ⟨fun _ _ => .error (.integrity "expected source object")⟩

attribute [local instance] noSnapshots

/-- The host's binding. -/
def sampleBinding : ReadBinding := ⟨sampleIdentifier⟩

theorem no_query : ∀ q ∈ (none : Option String), 1 ≤ q.toList.length ∧ q.toList.length ≤ 240 := by simp

/-- A read of the events of the service. -/
def sampleRequest : ReadRequest := ⟨.podEvents, .paymentsApi, none, no_query, rfl⟩

/-- What is drawn for an observation. -/
def sampleReadDraw : ReadDraw := ⟨sampleIdentifier, 0, 0⟩

/-- An event with this text. -/
def eventOf (summary : Summary) : Observation :=
  ⟨.kubernetes, serviceIdentifier .paymentsApi, 0, eventsQuery, summary, []⟩

/-- The same, projected. -/
def projectedEvent (summary : Summary) : Observation :=
  { eventOf summary with payload := assigned sampleRequest (eventOf summary) }

/-- A short text. -/
def shortSummary : Summary := ⟨"Pulled", by decide⟩

/-- The metadata of the first event. -/
def shortMetadata : EvidenceMetadata :=
  ⟨sampleIdentifier, sampleIdentifier, .kubernetes, 0, 0, eventsQuery, serviceIdentifier .paymentsApi, shortSummary⟩

/-- Its envelope. -/
def shortEnvelope : JsonObject := envelope shortMetadata (.obj (projectedEvent shortSummary).payload)

theorem event_projected (summary : Summary) :
    project sampleRequest 0 (eventOf summary) = .ok (projectedEvent summary) := rfl

/-- The digest of the artifact. -/
def shortDigest : String := "eb80f67dc9df7dd4f01a356fcb92658f029da54423d8ea88e51bbcbf61ba7780"

/-- The digest function and the parser, at that artifact. -/
@[reducible] def shortHashing : FileStore.Hashing := ⟨fun _ => shortDigest, fun _ => .ok shortEnvelope⟩

attribute [local instance] shortHashing

/-- What is asked for an event. -/
def eventRead (summary : Summary) : ReadDraw × Observation := (sampleReadDraw, projectedEvent summary)

theorem short_prepared :
    prepare sampleIdentifier 0 (projectedEvent shortSummary) sampleIdentifier.val (some (0 - seconds 300)) (some 0) =
      .ok (shortMetadata, .obj (projectedEvent shortSummary).payload) := by
  decide +kernel

theorem asked_event (summary : Summary) : (asked 0 (eventRead summary)).1.now + seconds 1 = 0 := by simp [asked]

theorem short_only {summary : Summary} (hsummary : summary = shortSummary ∨ ¬FitsSummary (redactText summary.val))
    {m : EvidenceMetadata} {payload : Json}
    (h : prepare (asked 0 (eventRead summary)).1.evidenceId (asked 0 (eventRead summary)).1.collectedAt
      (asked 0 (eventRead summary)).2 (readWindow sampleBinding 0).incidentId (some (readWindow sampleBinding 0).start)
      (some ((asked 0 (eventRead summary)).1.now + seconds 1)) = .ok (m, payload)) :
    summary = shortSummary ∧ m = shortMetadata ∧ payload = .obj (projectedEvent shortSummary).payload := by
  rw [asked_event] at h
  rcases hsummary with rfl | hunfit
  · obtain ⟨rfl, rfl⟩ := Prod.mk.inj (Except.ok.inj (short_prepared.symm.trans h))
    exact ⟨rfl, rfl, rfl⟩
  · obtain ⟨-, hm, -⟩ := prepare_ok.mp h
    exact absurd (validateMetadata_ok.mp ⟨m, hm⟩).2 hunfit

/-- What a read relies on, of these events. -/
theorem event_trusted {summaries : List Summary} (h : ∀ s ∈ summaries, s = shortSummary ∨ ¬FitsSummary (redactText s.val)) :
    Trusted (readWindow sampleBinding 0) ((summaries.map eventRead).map (asked 0)) fun _ => none := by
  have hsame : ∀ q ∈ (summaries.map eventRead).map (asked 0), ∀ m payload,
      prepare q.1.evidenceId q.1.collectedAt q.2 (readWindow sampleBinding 0).incidentId
        (some (readWindow sampleBinding 0).start) (some (q.1.now + seconds 1)) = .ok (m, payload) →
      envelope m payload = shortEnvelope := by
    intro q hq m payload hprepared
    obtain ⟨p, hp, rfl⟩ := List.mem_map.mp hq
    obtain ⟨summary, hsummary, rfl⟩ := List.mem_map.mp hp
    obtain ⟨-, rfl, rfl⟩ := short_only (h summary hsummary) hprepared
    rfl
  refine ⟨fun q _ content _ => ?_, fun q hq q' hq' c c' hc hc' _ => ?_, fun q _ content _ found hfound => ?_,
    fun q hq m payload content hprepared _ => ?_⟩
  · show digestOk shortDigest = true
    decide
  · obtain ⟨m, payload, hprepared, hencoded⟩ := hc
    obtain ⟨m', payload', hprepared', hencoded'⟩ := hc'
    rw [hsame q hq m payload hprepared] at hencoded
    rw [hsame q' hq' m' payload' hprepared'] at hencoded'
    exact Except.ok.inj (hencoded.symm.trans hencoded')
  · cases hfound
  · rw [hsame q hq m payload hprepared]
    exact ⟨shortEnvelope, rfl, by decide +kernel⟩

theorem short_small :
    ((FileStore.encode shortEnvelope).toOption.any
      fun content => decide (content.length ≤ FileStore.MAX_ARTIFACT_BYTES)) = true := by
  obtain ⟨content, hcontent, hlength⟩ :=
    encode_small (show FileStore.finiteFields shortEnvelope = true by decide +kernel) (by decide +kernel)
  rw [hcontent]
  exact decide_eq_true hlength

theorem short_normalizes : Normalizes (readWindow sampleBinding 0) (asked 0 (eventRead shortSummary)) := by
  have hsmall := short_small
  rw [Option.any_eq_true] at hsmall
  obtain ⟨content, hcontent, hlength⟩ := hsmall
  have hencoded : FileStore.encode shortEnvelope = .ok content := by
    cases h : FileStore.encode shortEnvelope with
    | error x =>
      rw [h] at hcontent
      cases hcontent
    | ok c =>
      rw [h] at hcontent
      exact congrArg _ (Option.some.inj hcontent)
  refine ⟨content, ⟨shortMetadata, .obj (projectedEvent shortSummary).payload, ?_, hencoded⟩,
    of_decide_eq_true hlength⟩
  rw [asked_event]
  exact short_prepared

theorem long_fails {long : Summary} (hunfit : ¬FitsSummary (redactText long.val)) :
    ¬Normalizes (readWindow sampleBinding 0) (asked 0 (eventRead long)) := by
  rintro ⟨content, ⟨m, payload, hprepared, -⟩, -⟩
  obtain ⟨-, hm, -⟩ := prepare_ok.mp hprepared
  exact hunfit (validateMetadata_ok.mp ⟨m, hm⟩).2

theorem events_checked (short long : Summary) :
    checkedRead sampleRequest (.ok [eventOf short, eventOf long]) 0 =
      .ok [projectedEvent short, projectedEvent long] := rfl

/-- An event that is too long when it is redacted leaves the one before it in the store. -/
theorem long_event_persists {long : Summary} (hunfit : ¬FitsSummary (redactText long.val)) :
    ¬AllOrNothing sampleBinding sampleRequest (.ok [eventOf shortSummary, eventOf long])
      [sampleReadDraw, sampleReadDraw] (fun _ => none)
      ((read sampleBinding sampleRequest (.ok [eventOf shortSummary, eventOf long]) 0
        [sampleReadDraw, sampleReadDraw]).eval fun _ => none) := by
  have hmembers : ∀ s ∈ [shortSummary, long], s = shortSummary ∨ ¬FitsSummary (redactText s.val) := by
    intro s hs
    rcases List.mem_cons.mp hs with rfl | hs
    · exact .inl rfl
    · rw [List.mem_singleton.mp hs]
      exact .inr hunfit
  have htrusted := event_trusted hmembers
  rcases normalizeAll_eval htrusted with ⟨evidence, held', -, -, hall, -⟩ |
    ⟨x, held', hraised, -, first, rest, hreads, hfirst⟩
  · exact absurd (hall _ (List.mem_cons_of_mem _ List.mem_cons_self)) (long_fails hunfit)
  · obtain ⟨rfl, rfl⟩ := List.cons.inj hreads
    rcases hfirst with ⟨hnot, -⟩ | ⟨-, item, hitem⟩
    · exact absurd short_normalizes hnot
    · have hrun : (normalizeAll sampleBinding 0 ([sampleReadDraw, sampleReadDraw].zip
          [projectedEvent shortSummary, projectedEvent long])).eval (fun _ => none) = (.error x, held') := hraised
      rw [read_raised (events_checked shortSummary long) hrun]
      exact not_allOrNothing (stored_changes hitem fun _ _ => rfl).2

theorem text_words : WordsShown := fun _ hc => (nomatch hc)

end Sample

end PayOps.Tools
