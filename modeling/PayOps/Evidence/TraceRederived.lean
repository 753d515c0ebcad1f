import PayOps.Evidence.PaymentRederived
import PayOps.Evidence.TraceReread

/-!
# Derived evidence that is verified again

What `derive_trace_span` has published passes `verify_trace_span`, as what `derive_payment_window` has published passes
`verify_payment_window`.

## What is proved

* `sourceLog_ok`, `deriveSpan_ok` — what has been checked of a source, and what is derived from it.
* `deriveSpan_grows` — what is derived is derived again.
* `shown_log`, `shown_span` — the summaries are redacted to themselves.
* `TraceSpan.whole` — a span is retained whole.
* `span_reverifies` — the span that was published is verified.
* `derived_evidence_reverifies` — **main result**: derived evidence is verified again.
-/

namespace PayOps.Evidence.Trace

open Json (field asStr sorted)
open FileStore (Hashing finiteFields)
open Orchestrator (Service)

variable [Platform] [Isoformat] [Datetimes] [Hashing] [Numerals]

/-! ### What is derived -/

/-- **What has been checked** of a source. -/
theorem sourceLog_ok {held : Artifacts} {item : EvidenceItem} {capture : TraceLog}
    (h : sourceLog held item = .ok capture) :
    (∃ envelope, verifyEnvelope held item = .ok envelope) ∧ item.query.val = LOG_QUERY ∧
      item.observedAt = capture.capturedEnd ∧ item.observedAt ≤ item.collectedAt ∧
      item.summary.val = capture.summary := by
  unfold sourceLog at h
  obtain ⟨envelope, henvelope, h⟩ := bind_eq_ok.mp h
  obtain ⟨found, -, h⟩ := bind_eq_ok.mp h
  split_ifs at h with hchecks
  obtain rfl : found = capture := Except.ok.inj h
  simp only [not_or, not_not, not_lt] at hchecks
  obtain ⟨-, hquery, -, -, hobserved, hcollected, hsummary⟩ := hchecks
  exact ⟨⟨envelope, henvelope⟩, hquery, hobserved, hcollected, hsummary⟩

theorem sourceLog_grows {held later : Artifacts} (hgrows : Grows held later) {item : EvidenceItem}
    {capture : TraceLog} (h : sourceLog held item = .ok capture) : sourceLog later item = .ok capture := by
  unfold sourceLog at h ⊢
  obtain ⟨envelope, henvelope, h⟩ := bind_eq_ok.mp h
  exact bind_eq_ok.mpr ⟨envelope, verifyEnvelope_grows hgrows henvelope, h⟩

/-- **What is derived** of a record. -/
structure Derived (capture : TraceLog) (source : EvidenceItem) (ordinal : ℤ) (derived : TraceSpan) : Prop where
  /-- The scope is that of the log. -/
  scope : derived.scope = capture.scope
  /-- The source is the item. -/
  source : derived.source = source
  /-- The ordinal is that which was asked for. -/
  ordinal : (derived.ordinal : ℤ) = ordinal
  /-- The record is one of the log. -/
  record : derived.record ∈ capture.parsed.spans
  /-- The duration is that of the span. -/
  duration : derived.durationMicroseconds = (derived.record.span.endTime - derived.record.span.startTime).toNat

theorem deriveSpan_ok {held : Artifacts} {source : EvidenceItem} {ordinal : ℤ} {derived : TraceSpan}
    (h : deriveSpan held source ordinal = .ok derived) :
    ∃ capture, sourceLog held source = .ok capture ∧ Derived capture source ordinal derived := by
  unfold deriveSpan at h
  obtain ⟨capture, hcapture, h⟩ := bind_eq_ok.mp h
  refine ⟨capture, hcapture, ?_⟩
  cases hselected : selected capture ordinal with
  | none => simp [hselected] at h
  | some record =>
    simp only [hselected] at h
    unfold TraceSpan.make at h
    unfold selected at hselected
    split_ifs at h with hordinal
    split_ifs at hselected with hnonneg
    obtain rfl := Except.ok.inj h
    exact ⟨rfl, rfl, Int.toNat_of_nonneg hnonneg, List.mem_of_getElem? hselected, rfl⟩

/-- **What is derived** is derived again. -/
theorem deriveSpan_grows {held later : Artifacts} (hgrows : Grows held later) {source : EvidenceItem} {ordinal : ℤ}
    {derived : TraceSpan} (h : deriveSpan held source ordinal = .ok derived) :
    deriveSpan later source ordinal = .ok derived := by
  unfold deriveSpan at h ⊢
  obtain ⟨capture, hcapture, h⟩ := bind_eq_ok.mp h
  exact bind_eq_ok.mpr ⟨capture, sourceLog_grows hgrows hcapture, h⟩

omit [Isoformat] [Datetimes] [Hashing] [Numerals] in
/-- **A record of a log** is one of its service, and within its scope. -/
theorem TraceLog.record_ok {capture : TraceLog} {record : CapturedSpan} (h : record ∈ capture.parsed.spans) :
    record.span.checkService capture.scope.service = .ok () ∧ capture.scope.start ≤ record.span.startTime ∧
      record.span.endTime ≤ capture.scope.finish := by
  have hretained := capture.consistent.2 record h
  simp only [retains, TraceScope.contains, Bool.and_eq_true, decide_eq_true_eq] at hretained
  obtain ⟨⟨hservice, ⟨hstart, -⟩, hend⟩, -⟩ := hretained
  refine ⟨?_, hstart, hend⟩
  cases hcheck : record.span.checkService capture.scope.service with
  | ok u => rfl
  | error x => simp [hcheck, Except.isOk, Except.toBool] at hservice

/-! ### Texts -/

/-- The names of spans. -/
def spanTexts : List String :=
  ["sandbox.payments", "sandbox.risk", "sandbox.processor", "sandbox.ledger", "sandbox.webhook", "sandbox.call.risk",
    "sandbox.call.processor", "sandbox.call.ledger", "sandbox.call.webhook"]

omit [Platform] [Isoformat] [Datetimes] [Hashing] [Numerals] in
/-- **The names of a span** that a service emits. -/
theorem checkService_names {span : SourceSpan} {service : Service} (h : span.checkService service = .ok ()) :
    span.name.val ∈ spanTexts ∧ span.serviceName.val = "payops-sandbox-" ++ ROLES service := by
  unfold SourceSpan.checkService at h
  split_ifs at h with hbad
  simp only [not_or, not_not] at hbad
  obtain ⟨hservice, hlookup⟩ := hbad
  have hmem : span.name.val ∈ (expectedKinds service).map Prod.fst := by
    obtain ⟨before, after, hsplit, -⟩ := List.lookup_eq_some_iff.mp hlookup
    rw [hsplit]
    simp
  have hnames : ∀ name ∈ (expectedKinds service).map Prod.fst, name ∈ spanTexts := by
    cases service <;> decide
  exact ⟨hnames _ hmem, hservice⟩

omit [Platform] [Isoformat] [Datetimes] [Hashing] [Numerals] in
theorem quiet_digits (n : ℕ) : quiet (toString n).toList = true := by
  have htext : (toString n).toList = Nat.toDigits 10 n := Nat.toList_repr
  rw [htext]
  apply quiet_hex
  rw [List.all_eq_true]
  intro c hc
  simp [hexChar, Nat.isDigit_of_mem_toDigits (by decide) (by decide) hc]

omit [Platform] [Isoformat] [Datetimes] [Hashing] [Numerals] in
/-- A blank ends what a credential begins with. -/
theorem blank_stops : ∀ k ∈ openings, foldCase ' ' ∉ k := by decide

omit [Platform] [Isoformat] [Datetimes] [Hashing] [Numerals] in
/-- The identities of spans are quiet. -/
theorem quiet_hexId {n : ℕ} {s : String} (h : hexId n s = true) : quiet s.toList = true := by
  have hzero : ∀ k ∈ openings, foldCase '0' ∉ k := by decide
  have hx : ∀ k ∈ openings, foldCase 'x' ∉ k := by decide
  unfold hexId at h
  split at h
  · rename_i cs hcs
    rw [Bool.and_eq_true] at h
    rw [hcs]
    exact quiet_cons hzero (quiet_cons hx (quiet_hex h.2))
  · cases h

omit [Platform] [Isoformat] [Datetimes] [Hashing] [Numerals] in
theorem quiet_hexText {n : ℕ} {s : String} (h : hexText n s = true) : quiet s.toList = true := by
  rw [hexText, Bool.and_eq_true] at h
  exact quiet_hex h.2

omit [Platform] [Isoformat] [Datetimes] [Hashing] [Numerals] in
/-- A text is quiet if a number stands between blanks in it. -/
theorem shown_blanks {text a c : String} {n : ℕ} {cs ds : List Char} {x y : Char}
    (htext : text = a ++ toString n ++ c) (ha : a.toList = cs ++ [' ']) (hc : c.toList = ' ' :: ds)
    (hcs : quiet cs = true) (hds : quiet ds = true) (hfirst : cs.head? = some x ∧ whiteSpace x = false)
    (hlast : ds.getLast? = some y ∧ whiteSpace y = false) : Shown text := by
  have hsplit : text.toList = cs ++ ' ' :: ((toString n).toList ++ ' ' :: ds) := by
    rw [htext]
    simp [ha, hc]
  rw [Shown, hsplit]
  refine ⟨quiet_append blank_stops hcs (quiet_cons blank_stops
    (quiet_append blank_stops (quiet_digits n) (quiet_cons blank_stops hds))), strip_of_ends ?_ ?_⟩
  · intro d hd
    obtain rfl : x = d := by simpa [List.head?_append, hfirst.1] using hd
    exact hfirst.2
  · intro d hd
    obtain rfl : y = d := by simpa [List.getLast?_append, List.getLast?_cons, hlast.1] using hd
    exact hlast.2

omit [Isoformat] [Datetimes] [Hashing] [Numerals] in
/-- The summary of a log is quiet. -/
theorem shown_log (capture : TraceLog) : Shown capture.summary := by
  have hhead : "Bounded console span sample: ".toList = "Bounded console span sample:".toList ++ [' '] := by decide
  have hquiet : quiet "Bounded console span sample:".toList = true := by decide +kernel
  have hrecords : quiet "records".toList = true := by decide +kernel
  exact shown_blanks rfl hhead rfl hquiet hrecords ⟨rfl, by decide⟩ ⟨rfl, by decide⟩

omit [Isoformat] [Datetimes] [Hashing] [Numerals] in
/-- The summary of a span is quiet. -/
theorem shown_span {derived : TraceSpan} (h : derived.record.span.name.val ∈ spanTexts) : Shown derived.summary := by
  have hall : (spanTexts.all fun name =>
      quiet (name ++ ":").toList && (name ++ ":").toList.head? == some 's') = true := by
    decide +kernel
  have hname := List.all_eq_true.mp hall _ h
  simp only [Bool.and_eq_true, beq_iff_eq] at hname
  have hhead : (derived.record.span.name.val ++ ": ").toList =
      (derived.record.span.name.val ++ ":").toList ++ [' '] := by
    simp
  have htail : (" us; status " ++ derived.record.span.statusCode.text ++ "; bounded sample").toList =
      ' ' :: ("us; status " ++ derived.record.span.statusCode.text ++ "; bounded sample").toList := by
    simp
  have hstatus : quiet ("us; status " ++ derived.record.span.statusCode.text ++ "; bounded sample").toList = true := by
    cases derived.record.span.statusCode <;> decide +kernel
  have hlast : ("us; status " ++ derived.record.span.statusCode.text ++ "; bounded sample").toList.getLast? =
      some 'e' := by
    cases derived.record.span.statusCode <;> decide +kernel
  refine shown_blanks (n := derived.durationMicroseconds) ?_ hhead htail hname.1 hstatus ⟨hname.2, by decide⟩
    ⟨hlast, by decide⟩
  simp only [TraceSpan.summary, String.append_assoc]

/-! ### What is retained -/

omit [Isoformat] [Datetimes] [Hashing] [Numerals] in
/-- A number below `10 ^ 9` is retained whole. -/
theorem whole_nat {n depth : ℕ} (h : n < 10 ^ 9) : Whole depth (.int n) := by
  refine .int ?_
  rw [Int.natAbs_natCast]
  exact (Nat.toDigits_length 10 n 9 (by decide) h).trans (by decide)

omit [Isoformat] [Datetimes] [Hashing] [Numerals] in
theorem whole_id {n depth : ℕ} {ok : ℕ → String → Bool} (hok : ∀ s, ok n s = true → quiet s.toList = true)
    (id : Option { s : String // ok n s = true }) : Whole depth (dumpId id) := by
  cases id with
  | none => exact .null
  | some s => exact .str (redactText_quiet (hok _ s.property))

omit [Numerals] in
theorem SourceSpan.whole {times : List Time} (hreliable : Reliable times) {span : SourceSpan} {service : Service}
    {depth : ℕ} (hservice : span.checkService service = .ok ()) (hstart : span.startTime ∈ times)
    (hend : span.endTime ∈ times) : Whole (depth + 1) span.dump := by
  obtain ⟨hname, hemitted⟩ := checkService_names hservice
  have hall : (spanTexts.all fun name => quiet name.toList && !sensitive name) = true := by decide +kernel
  have hquiet := List.all_eq_true.mp hall _ hname
  rw [Bool.and_eq_true, Bool.not_eq_true'] at hquiet
  have hkind : quiet span.kind.text.toList = true := by
    cases span.kind <;> decide +kernel
  have hstatus : quiet span.statusCode.text.toList = true := by
    cases span.statusCode <;> decide +kernel
  have hrole : quiet span.serviceName.val.toList = true := by
    rw [hemitted]
    cases service <;> decide +kernel
  refine Whole.record spanNames rfl (by decide +kernel) ?_ ?_
  · simpa [sensitiveName] using hquiet.2
  · simp only [List.forall_mem_cons]
    exact ⟨.str (redactText_quiet hquiet.1), .str (redactText_quiet (quiet_hexId span.traceId.property)),
      .str (redactText_quiet (quiet_hexId span.spanId.property)), whole_id (fun s hs => quiet_hexId hs) _,
      .str (redactText_quiet hkind), hreliable.whole_time hstart, hreliable.whole_time hend,
      .str (redactText_quiet hstatus), .str (redactText_quiet hrole), List.forall_mem_nil _⟩

omit [Numerals] in
/-- **A span is retained whole**, if its source is. -/
theorem TraceSpan.whole {derived : TraceSpan} (hreliable : Reliable derived.times)
    (hservice : derived.record.span.checkService derived.scope.service = .ok ())
    (hduration : derived.durationMicroseconds < 10 ^ 9) (hsource : Whole 15 (dumpItem derived.source)) :
    Whole 16 (.obj derived.dump) := by
  have hscope : Whole 15 derived.scope.dump := by
    have hname : redactText derived.scope.service.name = derived.scope.service.name := by
      apply redactText_quiet
      cases derived.scope.service <;> decide
    have hnamespace : Whole 14 (.str "payops-sandbox") := .str (redactText_quiet (by decide))
    refine Whole.record ["incident_id", "namespace", "service", "start", "end"] rfl (by decide +kernel) rfl ?_
    simp only [List.forall_mem_cons]
    exact ⟨.str (Tools.redact_identifier hreliable.words _), hnamespace, .str hname,
      hreliable.whole_time (by simp [times]), hreliable.whole_time (by simp [times]), List.forall_mem_nil _⟩
  have hrecord : Whole 15 derived.record.dump := by
    refine Whole.record ["span", "log_start", "log_end"] rfl (by decide +kernel) rfl ?_
    simp only [List.forall_mem_cons]
    exact ⟨SourceSpan.whole hreliable hservice (by simp [times]) (by simp [times]),
      hreliable.whole_time (by simp [times]), hreliable.whole_time (by simp [times]), List.forall_mem_nil _⟩
  have htransformation : Whole 15 (.str "trace-console-span-v1") := .str (redactText_quiet (by decide))
  have hordinal : derived.ordinal < 10 ^ 9 := derived.bounded.trans (by decide)
  refine Whole.record traceNames rfl (by decide +kernel) rfl ?_
  simp only [TraceSpan.dump, List.forall_mem_cons]
  exact ⟨htransformation, .bool _, hscope, hsource, whole_nat hordinal,
    .str (redactText_quiet (quiet_hexText derived.traceId.property)),
    .str (redactText_quiet (quiet_hexText derived.spanId.property)), whole_id (fun s hs => quiet_hexText hs) _,
    whole_nat hduration, hrecord, List.forall_mem_nil _⟩

/-! ### Spans -/

/-- What has happened when a span is published. -/
theorem deriveTraceSpan_ok {evidenceId : Identifier} {now : Time} {source item : EvidenceItem} {ordinal : ℤ}
    {held later : Artifacts} (h : (deriveTraceSpan evidenceId now source ordinal).eval held = (.ok item, later)) :
    ∃ derived observation, deriveSpan held source ordinal = .ok derived ∧
      Observation.make .trace derived.scope.service.name derived.record.span.endTime TRACE_QUERY derived.summary
        derived.dump = .ok observation ∧
      (normalize evidenceId now observation derived.scope.incidentId.val (some derived.scope.start)
        (some derived.scope.finish)).eval held = (.ok item, later) := by
  unfold deriveTraceSpan at h
  rw [Storing.eval_bind, Storing.eval_current] at h
  simp only at h
  rw [Storing.eval_bind, Storing.eval_lift] at h
  cases hderive : deriveSpan held source ordinal with
  | error x =>
    rw [hderive] at h
    cases (Prod.mk.inj h).1
  | ok derived =>
    rw [hderive] at h
    simp only at h
    rw [Storing.eval_bind, Storing.eval_lift] at h
    cases hobservation : Observation.make .trace derived.scope.service.name derived.record.span.endTime TRACE_QUERY
        derived.summary derived.dump with
    | error x =>
      rw [hobservation] at h
      cases (Prod.mk.inj h).1
    | ok observation =>
      rw [hobservation] at h
      exact ⟨derived, observation, rfl, hobservation, h⟩

omit [Datetimes] [Numerals] in
/-- The item of a log was collected at the time that was given. -/
theorem publishTraceLog_collected {evidenceId : Identifier} {now : Time} {capture : TraceLog} {item : EvidenceItem}
    {held later : Artifacts} (h : (publishTraceLog evidenceId now capture).eval held = (.ok item, later)) :
    item.collectedAt = now := by
  unfold publishTraceLog at h
  rw [Storing.eval_bind, Storing.eval_lift] at h
  cases hobservation : Observation.make .log capture.scope.service.name capture.capturedEnd LOG_QUERY capture.summary
      capture.dump with
  | error x =>
    rw [hobservation] at h
    cases (Prod.mk.inj h).1
  | ok observation =>
    rw [hobservation] at h
    have hquery : Shown LOG_QUERY := by decide +kernel
    obtain ⟨hm, -, -⟩ := normalize_metadata h
    obtain ⟨-, -, -, -, -, hcollected, -⟩ := observed_metadata hquery (shown_log capture) hobservation hm
    exact hcollected

omit [Isoformat] [Datetimes] [Hashing] [Numerals] in
/-- **A span is over** before its log is collected. -/
theorem Derived.observed {capture : TraceLog} {source : EvidenceItem} {ordinal : ℤ}
    {derived : TraceSpan} (h : Derived capture source ordinal derived)
    (hcollected : source.observedAt = capture.capturedEnd) (hlate : source.observedAt ≤ source.collectedAt) :
    derived.record.span.endTime ≤ source.collectedAt := by
  obtain ⟨-, -, hend⟩ := TraceLog.record_ok h.record
  calc derived.record.span.endTime ≤ capture.scope.finish := hend
    _ ≤ capture.capturedEnd := capture.consistent.1.2
    _ = source.observedAt := hcollected.symm
    _ ≤ source.collectedAt := hlate

omit [Isoformat] [Datetimes] [Hashing] [Numerals] in
/-- A span is shorter than its scope. -/
theorem Derived.short {capture : TraceLog} {source : EvidenceItem} {ordinal : ℤ} {derived : TraceSpan}
    (h : Derived capture source ordinal derived) : derived.durationMicroseconds < 10 ^ 9 := by
  obtain ⟨-, hstart, hend⟩ := TraceLog.record_ok h.record
  have hspan : derived.record.span.endTime - derived.record.span.startTime ≤ seconds 600 :=
    (sub_le_sub hend hstart).trans capture.scope.bounded.2
  rw [h.duration]
  exact (Int.toNat_le_toNat hspan).trans_lt (by decide)

/-- **A span that was published is verified.** If its log was collected before, and nothing is lost of what is held, the
item that was derived is accepted, and the span is the one that is derived. -/
theorem span_reverifies {logId evidenceId : Identifier} {t now : Time} {capture : TraceLog}
    {source item : EvidenceItem} {ordinal : ℤ} {before between held later : Artifacts}
    (hpublished : (publishTraceLog logId t capture).eval before = (.ok source, between)) (horder : t ≤ now)
    (h : (deriveTraceSpan evidenceId now source ordinal).eval held = (.ok item, later)) :
    ∃ derived, deriveSpan held source ordinal = .ok derived ∧ (Reliable derived.times → ∀ final, Grows later final →
      verifyTraceSpan final item = .ok derived ∧ deriveSpan final source ordinal = .ok derived) := by
  obtain ⟨derived, observation, hderive, hobservation, hnormalize⟩ := deriveTraceSpan_ok h
  refine ⟨derived, hderive, fun hreliable final hfinal => ?_⟩
  obtain ⟨read, hsource, hderived⟩ := deriveSpan_ok hderive
  obtain ⟨⟨logEnvelope, hlog⟩, hasked, hcaptured, hlate, hsaid⟩ := sourceLog_ok hsource
  obtain ⟨hservice, -, -⟩ := TraceLog.record_ok hderived.record
  rw [← hderived.scope] at hservice
  have hnames := (checkService_names hservice).1
  have hlogQuery : Shown LOG_QUERY := by decide +kernel
  have hquery : Shown TRACE_QUERY := by decide +kernel
  have hitem : Whole 15 (dumpItem derived.source) := by
    have htimes : derived.source.observedAt ∈ derived.times ∧ derived.source.collectedAt ∈ derived.times := by
      simp [TraceSpan.times]
    rw [hderived.source] at htimes ⊢
    refine hreliable.whole_dumpItem htimes (verifyEnvelope_uri hlog) ?_ ?_
    · rw [hasked]
      exact redactText_quiet hlogQuery.1
    · rw [hsaid]
      exact redactText_quiet (shown_log read).1
  have hwhole := TraceSpan.whole hreliable hservice hderived.short hitem
  obtain ⟨hm, -, -⟩ := normalize_metadata hnormalize
  obtain ⟨hpayload, -, hincident, hkind, hobserved, hnow, hsays, hresource, hsummary⟩ :=
    observed_metadata hquery (shown_span hnames) hobservation hm
  rw [← hpayload] at hwhole
  obtain ⟨hgrows, hread⟩ := normalize_reads hreliable hwhole hnormalize
  obtain ⟨envelope, henvelope, hfield⟩ := hread final hfinal
  rw [hpayload] at hfield hwhole
  have hagain : deriveSpan final source ordinal = .ok derived :=
    deriveSpan_grows (fun digest content hheld => hfinal digest content (hgrows digest content hheld)) hderive
  have hfinite := finite_printable hwhole.printable.sorted
  rw [sorted_obj, FileStore.finite] at hfinite
  have hpayloadRead : readPayload TraceSpan.validate envelope = .ok derived := by
    rw [readPayload, hfield]
    simp [hfinite, TraceSpan.validate_dump hreliable]
  have hcollected : source.collectedAt ≤ now := (publishTraceLog_collected hpublished).trans_le horder
  have hover : derived.record.span.endTime ≤ source.collectedAt := hderived.observed hcaptured hlate
  have hrederived : deriveSpan final derived.source derived.ordinal = .ok derived := by
    rw [hderived.source, hderived.ordinal]
    exact hagain
  refine ⟨?_, hagain⟩
  rw [verifyTraceSpan]
  refine bind_eq_ok.mpr ⟨envelope, henvelope, bind_eq_ok.mpr ⟨derived, hpayloadRead, bind_eq_ok.mpr ⟨derived,
    hrederived, ?_⟩⟩⟩
  rw [if_neg]
  simp only [not_or, not_not, not_lt]
  refine ⟨trivial, hkind, hsays, Subtype.ext hincident, hresource, hobserved, ?_, ?_, hsummary⟩
  · exact hobserved.trans_le ((hover.trans hcollected).trans_eq hnow.symm)
  · rw [hderived.source]
    exact hcollected.trans_eq hnow.symm

/-- **Derived evidence is verified again.** A window of snapshots that were collected, and a span of a log that was
published, are accepted as what they were, from any store that has lost nothing, if the clock does not go back. -/
theorem derived_evidence_reverifies [Payment.Floats] :
    (∀ (evidenceId : Identifier) (t t' now : Time) (before after item : EvidenceItem)
      (interval : Payment.MeasurementInterval) (held later : Artifacts), Payment.Collected before t →
      Payment.Collected after t' → t' ≤ now →
      (Payment.derivePaymentWindow evidenceId now before after interval).eval held = (.ok item, later) →
      ∃ w, Payment.compute held before after interval = .ok w ∧ (Payment.Relied w → ∀ final, Grows later final →
        Payment.verifyPaymentWindow final item = .ok w ∧ Payment.compute final before after interval = .ok w)) ∧
    ∀ (logId evidenceId : Identifier) (t now : Time) (capture : TraceLog) (source item : EvidenceItem) (ordinal : ℤ)
      (before between held later : Artifacts),
      (publishTraceLog logId t capture).eval before = (.ok source, between) → t ≤ now →
      (deriveTraceSpan evidenceId now source ordinal).eval held = (.ok item, later) →
      ∃ derived, deriveSpan held source ordinal = .ok derived ∧ (Reliable derived.times → ∀ final, Grows later final →
        verifyTraceSpan final item = .ok derived ∧ deriveSpan final source ordinal = .ok derived) := by
  constructor
  · intro evidenceId t t' now before after item interval held later hbefore hafter horder h
    exact Payment.window_reverifies hbefore hafter horder h
  · intro logId evidenceId t now capture source item ordinal before between held later hpublished horder h
    exact span_reverifies hpublished horder h

end PayOps.Evidence.Trace
