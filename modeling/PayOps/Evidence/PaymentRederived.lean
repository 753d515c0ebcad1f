import PayOps.Evidence.PaymentSoundness
import PayOps.Evidence.Retained

/-!
# Payment windows that are verified again

What `derive_payment_window` has published passes `verify_payment_window`.

## What is proved

* `compute_grows` — what is computed of two snapshots is computed again.
* `PaymentWindow.whole` — a window is retained whole.
* `window_observed` — a window is not observed after its second snapshot was collected.
* `window_reverifies` — **main result**: the window that was published is verified.
-/

namespace PayOps.Evidence.Payment

open Json (Printable field sorted scanNumber)
open FileStore (Hashing finiteFields)
open Orchestrator (Service)
open Tools (snapshotQuery)

variable [Platform] [Floats] [Numerals] [Isoformat] [Datetimes] [Hashing]

/-! ### What is relied on -/

/-- The times of a window. -/
def PaymentWindow.times (w : PaymentWindow) : List Time :=
  [w.interval.start, w.interval.finish, w.inputs.1.observedAt, w.inputs.1.collectedAt, w.inputs.2.observedAt,
    w.inputs.2.collectedAt] ++ w.windowStart.toList ++ w.windowEnd.toList

/-- The floats of a window. -/
def PaymentWindow.floats (w : PaymentWindow) : List ℚ :=
  w.beforeEpoch.toList ++ w.afterEpoch.toList ++ w.deltas.map Delta.value

/-- What is relied on of Python for a window: what is written is read back, and datetimes are as precise as clocks. -/
structure Relied (w : PaymentWindow) : Prop where
  /-- Its times and its record are read back. -/
  reliable : Reliable w.times
  /-- Its floats are read back. -/
  floats : ∀ x ∈ w.floats, FloatRead x ∧ scanNumber (Floats.repr x).toList = some (.float (Floats.repr x), [])
  /-- `datetime.fromtimestamp` is monotone. -/
  monotone : ∀ x y t u, x ≤ y → Floats.fromTimestamp x = .ok t → Floats.fromTimestamp y = .ok u → t ≤ u
  /-- It inverts `timestamp` at the time of the collection. -/
  clock : Floats.fromTimestamp (Floats.timestamp w.inputs.2.collectedAt) = .ok w.inputs.2.collectedAt

/-- A window is read back. -/
theorem Relied.reads {w : PaymentWindow} (h : Relied w) : w.Reads := by
  have hmem : ∀ t ∈ [w.interval.start, w.interval.finish, w.inputs.1.observedAt, w.inputs.1.collectedAt,
      w.inputs.2.observedAt, w.inputs.2.collectedAt], t ∈ w.times := by
    intro t ht
    exact List.mem_append_left _ (List.mem_append_left _ ht)
  constructor
  · exact ⟨h.reliable.strict _ (hmem _ (by simp)), h.reliable.strict _ (hmem _ (by simp))⟩
  · exact ⟨⟨h.reliable.lax _ (hmem _ (by simp)), h.reliable.lax _ (hmem _ (by simp))⟩,
      ⟨h.reliable.lax _ (hmem _ (by simp)), h.reliable.lax _ (hmem _ (by simp))⟩⟩
  · constructor
    · exact fun t ht => h.reliable.strict t (by simp [PaymentWindow.times, Option.mem_def.mp ht])
    · exact fun t ht => h.reliable.strict t (by simp [PaymentWindow.times, Option.mem_def.mp ht])
  · constructor
    · exact fun x hx => (h.floats x (by simp [PaymentWindow.floats, Option.mem_def.mp hx])).1
    · exact fun x hx => (h.floats x (by simp [PaymentWindow.floats, Option.mem_def.mp hx])).1
  · exact fun d hd => (h.floats _ (List.mem_append_right _ (List.mem_map_of_mem hd))).1

/-! ### What is computed again -/

omit [Datetimes] in
/-- **What is computed of two snapshots** is computed again. -/
theorem compute_grows {held later : Artifacts} (hgrows : Grows held later) {before after : EvidenceItem}
    {interval : MeasurementInterval} {w : PaymentWindow} (h : compute held before after interval = .ok w) :
    compute later before after interval = .ok w := by
  unfold compute at h ⊢
  obtain ⟨envelope, henvelope, h⟩ := bind_eq_ok.mp h
  obtain ⟨firstPayload, hfirst, h⟩ := bind_eq_ok.mp h
  obtain ⟨envelope', henvelope', h⟩ := bind_eq_ok.mp h
  obtain ⟨lastPayload, hlast, h⟩ := bind_eq_ok.mp h
  refine bind_eq_ok.mpr ⟨envelope, verifyEnvelope_grows hgrows henvelope, bind_eq_ok.mpr ⟨firstPayload, hfirst, ?_⟩⟩
  exact bind_eq_ok.mpr ⟨envelope', verifyEnvelope_grows hgrows henvelope', bind_eq_ok.mpr ⟨lastPayload, hlast, h⟩⟩

omit [Datetimes] in
/-- The parts of a window that are those of its arguments. -/
theorem compute_parts {held : Artifacts} {before after : EvidenceItem} {interval : MeasurementInterval}
    {w : PaymentWindow} (h : compute held before after interval = .ok w) :
    w.inputs = (before, after) ∧ w.interval = interval := by
  obtain ⟨service, firstPayload, lastPayload, first, last, -, -, -, hassemble⟩ := compute_ok h
  obtain ⟨points, -, -, -, hw⟩ := assemble_ok hassemble
  rw [hw]
  exact ⟨rfl, rfl⟩

omit [Datetimes] in
/-- **The series of the deltas** are required. -/
theorem compute_required {held : Artifacts} {before after : EvidenceItem} {interval : MeasurementInterval}
    {w : PaymentWindow} (h : compute held before after interval = .ok w) : ∀ d ∈ w.deltas, d.key ∈ required := by
  obtain ⟨service, firstPayload, lastPayload, first, last, -, -, -, hassemble⟩ := compute_ok h
  obtain ⟨points, hpoints, -, -, hw⟩ := assemble_ok hassemble
  have hkeys := makeDeltas_ok hpoints
  intro d hd
  have hpoint : d ∈ points := by
    rw [hw] at hd
    simp only [PaymentWindow.deltas, List.mem_append, List.mem_filter] at hd
    tauto
  have hmem : (d.key, d.value) ∈ (settle first last interval).2 := by
    rw [← mem_sortValues, ← hkeys]
    exact List.mem_map_of_mem hpoint
  rcases hsettle : settle first last interval with ⟨status, delta⟩
  rw [hsettle] at hmem
  by_cases hcomplete : status = .complete
  · subst hcomplete
    obtain ⟨hcoverage, rfl, -⟩ := settle_complete hsettle
    obtain ⟨epoch, mark, mark', hcovered⟩ := coverage_complete hcoverage
    have hseries : d.key ∈ (growth first last).map Prod.fst := List.mem_map_of_mem hmem
    rw [growth_keys, ← List.mem_toFinset, hcovered.series.2, List.mem_toFinset] at hseries
    exact hseries
  · unfold settle at hsettle
    split at hsettle
    · split_ifs at hsettle
      · exact absurd (Prod.mk.inj hsettle).1.symm hcomplete
      · rw [← (Prod.mk.inj hsettle).2] at hmem
        cases hmem
    · rw [← (Prod.mk.inj hsettle).2] at hmem
      cases hmem

/-! ### What is retained -/

/-- The names of the series. -/
def seriesNames : List String := [CONFLICTS, REQUESTS, COUNT, SUM]

/-- The texts of their labels. -/
def labelTexts : List String :=
  ["processor", "A", "B", "region", "eu", "us", "payment_method", "credit", "debit", "status", "accepted", "declined",
    "error"]

omit [Platform] [Floats] [Numerals] [Isoformat] [Datetimes] [Hashing] in
/-- The names of the series and their labels are quiet. -/
theorem required_quiet {key : Key} (h : key ∈ required) :
    quiet key.1.toList = true ∧ ∀ l ∈ key.2, quiet l.1.toList = true ∧ quiet l.2.toList = true := by
  have htexts : ∀ key ∈ required, key.1 ∈ seriesNames ∧ ∀ l ∈ key.2, l.1 ∈ labelTexts ∧ l.2 ∈ labelTexts := by
    decide +kernel
  have hnames : ∀ name ∈ seriesNames, quiet name.toList = true := by
    simp only [seriesNames, CONFLICTS, REQUESTS, COUNT, SUM, List.forall_mem_cons]
    -- the characters of the literals are written out before the kernel reads them
    repeat rw [String.toList_ofList]
    decide +kernel
  have hlabels : ∀ text ∈ labelTexts, quiet text.toList = true := by decide +kernel
  obtain ⟨hname, hlabel⟩ := htexts key h
  exact ⟨hnames _ hname, fun l hl => ⟨hlabels _ (hlabel l hl).1, hlabels _ (hlabel l hl).2⟩⟩

omit [Numerals] [Isoformat] [Datetimes] [Hashing] in
theorem Delta.whole {d : Delta} {depth : ℕ} (hkey : d.key ∈ required)
    (hfloat : scanNumber (Floats.repr d.value).toList = some (.float (Floats.repr d.value), [])) :
    Whole (depth + 3) d.dump := by
  obtain ⟨hmetric, hlabels⟩ := required_quiet hkey
  refine Whole.record ["metric", "labels", "value"] rfl (by decide +kernel) rfl ?_
  simp only [List.forall_mem_cons]
  refine ⟨.str (redactText_quiet hmetric), .arr ?_, .float hfloat, List.forall_mem_nil _⟩
  intro x hx
  obtain ⟨l, hl, rfl⟩ := List.mem_map.mp hx
  refine .arr ?_
  simp only [List.forall_mem_cons]
  exact ⟨.str (redactText_quiet (hlabels l hl).1), .str (redactText_quiet (hlabels l hl).2), List.forall_mem_nil _⟩

/-- Deltas are retained whole. -/
theorem Relied.whole_deltas {w : PaymentWindow} (h : Relied w) (hrequired : ∀ d ∈ w.deltas, d.key ∈ required)
    {ds : List Delta} {depth : ℕ} (hds : ∀ d ∈ ds, d ∈ w.deltas) : Whole (depth + 4) (.arr (ds.map Delta.dump)) := by
  refine .arr fun x hx => ?_
  obtain ⟨d, hd, rfl⟩ := List.mem_map.mp hx
  exact Delta.whole (hrequired d (hds d hd))
    (h.floats _ (List.mem_append_right _ (List.mem_map_of_mem (hds d hd)))).2

/-- **A window is retained whole**, if the texts of its snapshots are. -/
theorem PaymentWindow.whole {w : PaymentWindow} (h : Relied w) (hrequired : ∀ d ∈ w.deltas, d.key ∈ required)
    (hbefore : ∀ depth, Whole (depth + 1) (dumpItem w.inputs.1))
    (hafter : ∀ depth, Whole (depth + 1) (dumpItem w.inputs.2)) : Whole 16 (.obj w.dump) := by
  have hservice : redactText w.service.name = w.service.name := by
    apply redactText_quiet
    cases w.service <;> decide
  have hstatus : redactText w.status.text = w.status.text := by
    apply redactText_quiet
    cases w.status <;> decide
  have hinterval : Whole 15 w.interval.dump := by
    have hid : redactText w.interval.incidentId.val = w.interval.incidentId.val :=
      Tools.redact_identifier h.reliable.words _
    refine Whole.record ["incident_id", "start", "end"] rfl (by decide +kernel) rfl ?_
    simp only [List.forall_mem_cons]
    exact ⟨.str hid, h.reliable.whole_time (by simp [times]), h.reliable.whole_time (by simp [times]),
      List.forall_mem_nil _⟩
  have htime (t : Option Time) (ht : ∀ s ∈ t, s ∈ w.times) : Whole 15 (dumpTime t) := by
    cases t with
    | none => exact .null
    | some s => exact h.reliable.whole_time (ht s rfl)
  have hfloat (x : Option ℚ) (hx : ∀ y ∈ x, y ∈ w.floats) : Whole 15 (dumpFloat x) := by
    cases x with
    | none => exact .null
    | some y => exact .float (h.floats y (hx y rfl)).2
  have hinputs : Whole 15 (.arr [dumpItem w.inputs.1, dumpItem w.inputs.2]) := by
    refine .arr ?_
    simp only [List.forall_mem_cons]
    exact ⟨hbefore _, hafter _, List.forall_mem_nil _⟩
  have hkind : Whole 15 (.str "payment_slice_window") := .str (redactText_quiet (by decide))
  have htransformation : Whole 15 (.str "payment-counter-window-v1") := .str (redactText_quiet (by decide))
  refine Whole.record windowNames rfl (by decide +kernel) rfl ?_
  simp only [PaymentWindow.dump, List.forall_mem_cons]
  refine ⟨hkind, htransformation, .str hservice, hinterval, hinputs, .str hstatus, htime _ ?_, htime _ ?_, hfloat _ ?_,
    hfloat _ ?_, h.whole_deltas hrequired ?_, h.whole_deltas hrequired ?_, h.whole_deltas hrequired ?_,
    List.forall_mem_nil _⟩
  · exact fun s hs => by simp [times, Option.mem_def.mp hs]
  · exact fun s hs => by simp [times, Option.mem_def.mp hs]
  · exact fun y hy => by simp [floats, Option.mem_def.mp hy]
  · exact fun y hy => by simp [floats, Option.mem_def.mp hy]
  · exact fun d hd => by simp [PaymentWindow.deltas, hd]
  · exact fun d hd => by simp [PaymentWindow.deltas, hd]
  · exact fun d hd => by simp [PaymentWindow.deltas, hd]

/-! ### Snapshots -/

omit [Isoformat] [Datetimes] [Hashing] [Platform] in
/-- A service is not scraped after the query. -/
theorem watermark_le {payload : JsonObject} {service : Service} {evaluatedAt x : ℚ}
    (h : watermark payload service evaluatedAt = .ok (some x)) : x ≤ evaluatedAt := by
  unfold watermark at h
  obtain ⟨items, -, h⟩ := bind_eq_ok.mp h
  split at h
  · cases h
  · obtain ⟨ls, -, h⟩ := bind_eq_ok.mp h
    split_ifs at h
    · cases h
    · obtain ⟨mark, -, h⟩ := bind_eq_ok.mp h
      split_ifs at h with hfuture
      · cases h
      · cases h
        exact not_lt.mp hfuture
  · cases h

omit [Isoformat] [Datetimes] [Hashing] [Platform] in
theorem parsePayload_mark {payload : JsonObject} {service : Service} {p : Parsed}
    (h : parsePayload payload service = .ok p) : ∀ x ∈ p.watermark, x ≤ p.evaluatedAt := by
  unfold parsePayload at h
  split_ifs at h
  · cases h
  · cases h
  · cases h
  · obtain ⟨evaluatedAt, -, h⟩ := bind_eq_ok.mp h
    obtain ⟨series, -, h⟩ := bind_eq_ok.mp h
    obtain ⟨mark, hmark, h⟩ := bind_eq_ok.mp h
    dsimp only at h
    split_ifs at h
    · cases h
    · cases h
      rintro x rfl
      exact watermark_le hmark

omit [Datetimes] in
/-- **A window is not observed after its second snapshot** was collected. -/
theorem window_observed {held : Artifacts} {before after : EvidenceItem} {interval : MeasurementInterval}
    {w : PaymentWindow} (h : compute held before after interval = .ok w)
    (hmonotone : ∀ x y t u, x ≤ y → Floats.fromTimestamp x = .ok t → Floats.fromTimestamp y = .ok u → t ≤ u)
    (hclock : Floats.fromTimestamp (Floats.timestamp after.collectedAt) = .ok after.collectedAt) :
    w.windowEnd.getD after.observedAt ≤ after.collectedAt := by
  obtain ⟨service, firstPayload, lastPayload, first, last, -, -, hinput, hassemble⟩ := compute_ok h
  obtain ⟨-, -, -, hend, -⟩ := assemble_ok hassemble
  obtain ⟨hpayload, -, hevaluated, hobserved⟩ := parse_ok hinput.parsed
  cases hmark : last.watermark with
  | none =>
    rw [hmark, date] at hend
    rw [← Except.ok.inj hend]
    exact hobserved
  | some x =>
    rw [hmark, date] at hend
    cases htime : Floats.fromTimestamp x with
    | error e => simp [htime, Except.map] at hend
    | ok t =>
      obtain hwindow : some t = w.windowEnd := by simpa [htime, Except.map] using hend
      rw [← hwindow]
      exact hmonotone x _ t _ ((parsePayload_mark hpayload x hmark).trans hevaluated) htime hclock

/-- A snapshot that was observed, and collected at the time that is given. -/
def Collected (item : EvidenceItem) (now : Time) : Prop :=
  ∃ (evidenceId : Identifier) (queried : Time) (payload : JsonObject) (service : Service) (observation : Observation)
    (incidentId : String) (start finish : Option Time) (held later : Artifacts),
    snapshotObservation queried payload service = .ok observation ∧
      (normalize evidenceId now observation incidentId start finish).eval held = (.ok item, later)

/-- The query of a snapshot, up to the name of the service. -/
def queryHead : List Char :=
  "\x7b__name__=~\"payment_requests_total|payment_authorization_latency_seconds_count|".toList ++
    ("payment_authorization_latency_seconds_sum|payment_idempotency_conflicts_total|".toList ++
      "sandbox_process_start_time_seconds|up\",job=\"payops-sandbox\",service=".toList)

omit [Platform] [Floats] [Numerals] [Isoformat] [Datetimes] [Hashing] in
theorem toList_split (a b c d e : String) {cs : List Char} {x : Char} (h : c.toList = cs ++ [x]) :
    (a ++ b ++ c ++ d ++ e).toList = (a.toList ++ (b.toList ++ cs)) ++ x :: (d.toList ++ e.toList) := by
  simp [h]

omit [Platform] [Floats] [Numerals] [Isoformat] [Datetimes] [Hashing] in
/-- A quiet text that is continued after a quotation mark. -/
theorem shown_split {text : String} {cs ds : List Char} {c : Char} (htext : text.toList = cs ++ '"' :: ds)
    (hcs : quiet cs = true) (hds : quiet ('"' :: ds) = true) (hhead : cs.head? = some c) (hc : whiteSpace c = false)
    {d : Char} (hlast : ds.getLast? = some d) (hd : whiteSpace d = false) : Shown text := by
  have hquote : ∀ k ∈ openings, foldCase '"' ∉ k := by decide
  rw [Shown, htext]
  refine ⟨quiet_append hquote hcs hds, strip_of_ends ?_ ?_⟩
  · intro e he
    rw [List.head?_append, hhead] at he
    obtain rfl : c = e := by simpa using he
    exact hc
  · intro e he
    have hne : ds ≠ [] := by
      rintro rfl
      cases hlast
    rw [List.getLast?_append_of_ne_nil _ (List.cons_ne_nil _ _), List.getLast?_cons, hlast] at he
    obtain rfl : d = e := by simpa using he
    exact hd

omit [Platform] [Floats] [Numerals] [Isoformat] [Datetimes] [Hashing] in
/-- **The query is quiet**: each word in it ends before the next one begins. -/
theorem shown_query (service : Service) : Shown (snapshotQuery service) := by
  have hlast : "sandbox_process_start_time_seconds|up\",job=\"payops-sandbox\",service=\"".toList =
      "sandbox_process_start_time_seconds|up\",job=\"payops-sandbox\",service=".toList ++ ['"'] := by
    repeat rw [String.toList_ofList]
    rfl
  have hsplit : (snapshotQuery service).toList = queryHead ++ '"' :: (service.name.toList ++ "\"\x7d".toList) :=
    toList_split _ _ _ _ _ hlast
  have hread : quiet queryHead = true ∧ queryHead.head? = some '\x7b' := by
    unfold queryHead
    repeat rw [String.toList_ofList]
    decide +kernel
  obtain ⟨hhead, hfirst⟩ := hread
  have htail : quiet ('"' :: (service.name.toList ++ "\"\x7d".toList)) = true := by
    cases service <;> decide +kernel
  have hend : (service.name.toList ++ "\"\x7d".toList).getLast? = some '\x7d' := by
    cases service <;> decide +kernel
  exact shown_split hsplit hhead htail hfirst (by decide) hend (by decide)

omit [Platform] [Floats] [Numerals] [Isoformat] [Datetimes] [Hashing] in
theorem shown_summary (service : Service) (available : Bool) :
    Shown ("Payment snapshot for " ++ service.name ++ "; target available: " ++
      (if available then "True" else "False")) := by
  rw [Shown]
  simp only [String.toList_append]
  cases service <;> cases available <;> simp only [Service.name, if_true, if_false, Bool.false_eq_true] <;>
    (repeat rw [String.toList_ofList]) <;> decide +kernel

omit [Isoformat] [Datetimes] [Hashing] in
/-- What is observed of a snapshot. -/
theorem snapshotObservation_make {queried : Time} {payload : JsonObject} {service : Service}
    {observation : Observation} (h : snapshotObservation queried payload service = .ok observation) :
    ∃ (observedAt : Time) (available : Bool), Observation.make .prometheus service.name observedAt
      (snapshotQuery service) ("Payment snapshot for " ++ service.name ++ "; target available: " ++
        (if available then "True" else "False")) payload = .ok observation := by
  unfold snapshotObservation at h
  obtain ⟨parsed, -, h⟩ := bind_eq_ok.mp h
  by_cases hlate : Floats.timestamp queried < parsed.evaluatedAt
  · rw [if_pos hlate] at h
    cases h
  · rw [if_neg hlate] at h
    obtain ⟨observedAt, -, hmake⟩ := bind_eq_ok.mp h
    exact ⟨observedAt, parsed.available, hmake⟩

omit [Datetimes] in
/-- **The texts of a snapshot** are redacted to themselves. -/
theorem Collected.texts {item : EvidenceItem} {now : Time} (h : Collected item now) :
    item.collectedAt = now ∧ item.artifactUri.val = "sha256://" ++ item.artifactSha256.val ∧
      redactText item.query.val = item.query.val ∧ redactText item.summary.val = item.summary.val := by
  obtain ⟨evidenceId, queried, payload, service, observation, incidentId, start, finish, held, later, hobservation,
    hnormalize⟩ := h
  obtain ⟨hm, huri, -⟩ := normalize_metadata hnormalize
  obtain ⟨observedAt, available, hmake⟩ := snapshotObservation_make hobservation
  obtain ⟨-, -, -, -, -, hcollected, hsaid, -, hsummarized⟩ :=
    observed_metadata (shown_query service) (shown_summary service available) hmake hm
  refine ⟨hcollected, huri, ?_, ?_⟩
  · show redactText item.metadata.query.val = item.metadata.query.val
    rw [hsaid]
    exact redactText_quiet (shown_query service).1
  · show redactText item.metadata.summary.val = item.metadata.summary.val
    rw [hsummarized]
    exact redactText_quiet (shown_summary service available).1

/-! ### Windows -/

omit [Platform] [Floats] [Numerals] [Isoformat] [Datetimes] [Hashing] in
theorem shown_status (status : Status) : Shown ("Payment counter window: " ++ status.text) := by
  cases status <;> decide +kernel

omit [Datetimes] in
/-- What has happened when a window is published. -/
theorem derivePaymentWindow_ok {evidenceId : Identifier} {now : Time} {before after item : EvidenceItem}
    {interval : MeasurementInterval} {held later : Artifacts}
    (h : (derivePaymentWindow evidenceId now before after interval).eval held = (.ok item, later)) :
    ∃ w observation, compute held before after interval = .ok w ∧ w.observation = .ok observation ∧
      (normalize evidenceId now observation interval.incidentId.val (some (min before.observedAt interval.start))
        (some (max after.collectedAt interval.finish))).eval held = (.ok item, later) := by
  unfold derivePaymentWindow at h
  rw [Storing.eval_bind, Storing.eval_current] at h
  simp only at h
  rw [Storing.eval_bind, Storing.eval_lift] at h
  cases hcompute : compute held before after interval with
  | error x =>
    rw [hcompute] at h
    cases (Prod.mk.inj h).1
  | ok w =>
    rw [hcompute] at h
    simp only at h
    rw [Storing.eval_bind, Storing.eval_lift] at h
    cases hobservation : w.observation with
    | error x =>
      rw [hobservation] at h
      cases (Prod.mk.inj h).1
    | ok observation =>
      rw [hobservation] at h
      exact ⟨w, observation, rfl, hobservation, h⟩

omit [Numerals] [Datetimes] [Hashing] in
/-- The item of a window says what the window says. -/
theorem observed_window {evidenceId : Identifier} {now : Time} {w : PaymentWindow} {observation : Observation}
    {incidentId : String} {m : EvidenceMetadata} (hobservation : w.observation = .ok observation)
    (hm : validateMetadata evidenceId now observation incidentId = .ok m) :
    observation.payload = w.dump ∧ m.incidentId.val = incidentId ∧ m.source = .payment ∧
      m.observedAt = w.windowEnd.getD w.inputs.2.observedAt ∧ m.collectedAt = now ∧ m.query.val = DERIVED_QUERY ∧
      m.resource.val = w.service.name := by
  have hquery : Shown DERIVED_QUERY := by decide +kernel
  obtain ⟨hpayload, -, hincident, hsource, hobserved, hnow, hsaid, hresource, -⟩ :=
    observed_metadata hquery (shown_status w.status) hobservation hm
  exact ⟨hpayload, hincident, hsource, hobserved, hnow, hsaid, hresource⟩

/-- A window of snapshots that were collected is retained whole. -/
theorem compute_whole {held : Artifacts} {before after : EvidenceItem} {interval : MeasurementInterval}
    {w : PaymentWindow} {t t' : Time} (hbefore : Collected before t) (hafter : Collected after t')
    (hcompute : compute held before after interval = .ok w) (hrelied : Relied w) : Whole 16 (.obj w.dump) := by
  obtain ⟨hinputs, -⟩ := compute_parts hcompute
  obtain ⟨-, huri, hquery, hsummary⟩ := hbefore.texts
  obtain ⟨-, huri', hquery', hsummary'⟩ := hafter.texts
  have htimes : (w.inputs.1.observedAt ∈ w.times ∧ w.inputs.1.collectedAt ∈ w.times) ∧
      w.inputs.2.observedAt ∈ w.times ∧ w.inputs.2.collectedAt ∈ w.times := by
    simp [PaymentWindow.times]
  rw [hinputs] at htimes
  refine w.whole hrelied (compute_required hcompute) (fun depth => ?_) fun depth => ?_
  · rw [hinputs]
    exact hrelied.reliable.whole_dumpItem htimes.1 huri hquery hsummary
  · rw [hinputs]
    exact hrelied.reliable.whole_dumpItem htimes.2 huri' hquery' hsummary'

/-- **A window that was published is verified.** If its snapshots were collected before, and nothing is lost of what is
held, the item that was derived is accepted, and the window is the one that is computed. -/
theorem window_reverifies {evidenceId : Identifier} {now t t' : Time} {before after item : EvidenceItem}
    {interval : MeasurementInterval} {held later : Artifacts} (hbefore : Collected before t)
    (hafter : Collected after t') (horder : t' ≤ now)
    (h : (derivePaymentWindow evidenceId now before after interval).eval held = (.ok item, later)) :
    ∃ w, compute held before after interval = .ok w ∧ (Relied w → ∀ final, Grows later final →
      verifyPaymentWindow final item = .ok w ∧ compute final before after interval = .ok w) := by
  obtain ⟨w, observation, hcompute, hobservation, hnormalize⟩ := derivePaymentWindow_ok h
  refine ⟨w, hcompute, fun hrelied final hfinal => ?_⟩
  obtain ⟨hinputs, hinterval⟩ := compute_parts hcompute
  have hwhole := compute_whole hbefore hafter hcompute hrelied
  obtain ⟨hm, -, -⟩ := normalize_metadata hnormalize
  obtain ⟨hpayload, hincident, hsource, hobserved, hnow, hsaid, hresource⟩ := observed_window hobservation hm
  rw [← hpayload] at hwhole
  obtain ⟨hgrows, hread⟩ := normalize_reads hrelied.reliable hwhole hnormalize
  obtain ⟨envelope, henvelope, hfield⟩ := hread final hfinal
  rw [hpayload] at hfield hwhole
  have hagain : compute final before after interval = .ok w :=
    compute_grows (fun digest content hheld => hfinal digest content (hgrows digest content hheld)) hcompute
  have hraw : object (get envelope "payload") = .ok (reread w.dump) := by
    rw [get, hfield]
    rfl
  have hfinite := Trace.finite_printable hwhole.printable.sorted
  rw [sorted_obj, FileStore.finite] at hfinite
  have hlate : w.windowEnd.getD w.inputs.2.observedAt ≤ now := by
    have hclock := hrelied.clock
    rw [hinputs] at hclock ⊢
    exact (window_observed hcompute hrelied.monotone hclock).trans (hafter.texts.1.trans_le horder)
  have hcheck : checkWindow item w w = .ok () := by
    rw [checkWindow, if_neg]
    simp only [not_or, not_not, not_lt]
    refine ⟨hsource, hsaid, hresource, Subtype.ext ?_, hobserved, ?_, trivial⟩
    · rw [hinterval]
      exact hincident
    · exact hobserved.trans_le (hlate.trans_eq hnow.symm)
  refine ⟨verifyPaymentWindow_of henvelope hraw hfinite (PaymentWindow.validate_dump hrelied.reads) ?_ hcheck, hagain⟩
  rw [hinputs, hinterval]
  exact hagain

end PayOps.Evidence.Payment
