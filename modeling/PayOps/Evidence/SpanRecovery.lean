import PayOps.Evidence.ConsoleCensus
import PayOps.Evidence.Lines
import PayOps.JsonPretty

/-!
# Spans that are read back

A service prints its spans between other texts, the kubelet stamps each record, and `parse_console_log` reads the
spans back.

## The model

A log is a list of pieces: a span, the lines of whose JSON are consecutive records, or another record. The kubelet
frames a record by a line feed, and `str.splitlines` knows more boundaries, so that one record may be many lines.

## What is proved

* `Emission.run` — the records of a span are read as that span, whatever was read before.
* `Harmless.run`, `harmless_of_run` — lines between the spans are read without a span just if no block of them is
  too long or a span itself.
* `spans_recovered` — **main result**: the spans are read back just if the lines between them are stamped and
  harmless; `undisturbed_plain` — other records of one line are.
* `carriage_return` — a percentage that is printed over itself, for which the log is not read at all.
-/

namespace PayOps.Evidence.Trace

open Json (field isDigit pretty plainChar indented Printable)
open Text (encodeUtf8 utf8Length)

/-! ### Logs -/

/-- A record of the log. -/
structure LogRecord where
  /-- The timestamp of the kubelet. -/
  stamp : List Char
  /-- When the record was read. -/
  time : Time
  /-- What was printed. -/
  content : List Char
  /-- The timestamp is valid. -/
  stamped : LOG_STAMP stamp = some time
  /-- Records are framed by line feeds. -/
  framed : '\n' ∉ content

/-- The text of a record. -/
def LogRecord.text (r : LogRecord) : List Char := r.stamp ++ ' ' :: r.content ++ ['\n']

/-- The lines that `str.splitlines` makes of a record. -/
def LogRecord.lines (r : LogRecord) : List (List Char) := splitLines [] r.text

section Pieces

variable [Platform] [Datetimes]

/-- The JSON of a span, as its exporter writes it; it has other fields too. -/
structure Exported (object : JsonObject) (span : SourceSpan) : Prop where
  /-- Its name. -/
  name : field object "name" = some (.str span.name.val)
  /-- Its identities. -/
  context : ∃ context, field object "context" = some (.obj context) ∧
    field context "trace_id" = some (.str span.traceId.val) ∧ field context "span_id" = some (.str span.spanId.val)
  /-- Its parent. -/
  parent : field object "parent_id" = some ((span.parentId.map fun p => Json.str p.val).getD .null)
  /-- Its kind. -/
  kind : field object "kind" = some (.str span.kind.text)
  /-- When it began. -/
  startTime : ∃ text, field object "start_time" = some (.str text) ∧ Datetimes.strict text = some span.startTime
  /-- When it ended. -/
  endTime : ∃ text, field object "end_time" = some (.str text) ∧ Datetimes.strict text = some span.endTime
  /-- Its status. -/
  status : ∃ status, field object "status" = some (.obj status) ∧
    field status "status_code" = some (.str span.statusCode.text)
  /-- Its service. -/
  resource : ∃ resource attributes, field object "resource" = some (.obj resource) ∧
    field resource "attributes" = some (.obj attributes) ∧
    field attributes "service.name" = some (.str span.serviceName.val)

/-- The records of a span. -/
structure Emission (scope : TraceScope) where
  /-- The span. -/
  span : SourceSpan
  /-- Its JSON. -/
  object : JsonObject
  /-- How far the JSON is indented. -/
  indent : ℕ
  /-- Its records. -/
  records : List LogRecord
  /-- The JSON is that of the span. -/
  exported : Exported object span
  /-- It is nested within the budget of `_depth`. -/
  printable : Printable 8 (.obj object)
  /-- It is indented. -/
  isIndented : 0 < indent
  /-- The records have its lines. -/
  printed : joinLines (records.map LogRecord.content) = pretty indent 0 (.obj object)
  /-- They are no more than 8192 bytes. -/
  bounded : utf8Length (pretty indent 0 (.obj object)) ≤ 8192
  /-- They are in order. -/
  ordered : (records.map LogRecord.time).Pairwise (· ≤ ·)
  /-- They are not before the end of the span. -/
  ended : ∀ r ∈ records, span.endTime ≤ r.time
  /-- The span is one of the service. -/
  service : span.checkService scope.service = .ok ()
  /-- It is in the interval. -/
  inScope : scope.contains span = true

/-- A piece of a log. -/
inductive Piece (scope : TraceScope) where
  /-- A span. -/
  | span (emission : Emission scope)
  /-- Another record, which is not an opening brace alone. -/
  | other (r : LogRecord) (h : r.content ≠ opening)

/-- The records of a piece. -/
def Piece.records {scope : TraceScope} : Piece scope → List LogRecord
  | span emission => emission.records
  | other r _ => [r]

/-- The spans of a log. -/
def emitted {scope : TraceScope} : List (Piece scope) → List SourceSpan
  | [] => []
  | .span emission :: pieces => emission.span :: emitted pieces
  | .other _ _ :: pieces => emitted pieces

/-- The text of a log. -/
def logText {scope : TraceScope} (pieces : List (Piece scope)) : List Char :=
  (pieces.flatMap Piece.records).flatMap LogRecord.text

/-- The lines of a log. -/
def textLines {scope : TraceScope} (pieces : List (Piece scope)) : List (List Char) :=
  (pieces.flatMap Piece.records).flatMap LogRecord.lines

/-! ### What may be between the spans -/

/-- How many bytes a block of lines has after its opening brace. -/
def blockSize (block : List Line) : ℕ := (block.map fun line => utf8Length line.2 + 1).sum

/-- The text of a block, from its opening brace to the closing one. -/
def blockText (block : List Line) : List Char := joinLines (opening :: block.map Prod.snd ++ [closing])

/-- A block is a span of the service in the interval, which has ended when the first line was stamped. -/
structure SpanOf (scope : TraceScope) (t : Time) (block : List Line) (t' : Time) (span : SourceSpan) : Prop where
  /-- The lines are in order. -/
  ordered : (t :: block.map Prod.fst ++ [t']).Pairwise (· ≤ ·)
  /-- The JSON is within the budget of `_depth`. -/
  shallow : depthScan 0 false false (blockText block) = .ok ()
  /-- It is that of the span. -/
  projected : project (blockText block) = .ok span
  /-- The span is one of the service. -/
  service : span.checkService scope.service = .ok ()
  /-- It has ended. -/
  ended : span.endTime ≤ t
  /-- It is in the interval. -/
  inScope : scope.contains span = true

/-- No block of the lines is too long, and none is a span. -/
def Harmless (scope : TraceScope) (gap : List Line) : Prop :=
  ∀ before t block after, gap = before ++ (t, opening) :: block ++ after →
    (∀ line ∈ block, line.2 ≠ opening ∧ line.2 ≠ closing) →
    1 + blockSize block ≤ 8192 ∧
      ∀ t' after', after = (t', closing) :: after' →
        1 + blockSize block + 2 ≤ 8192 ∧ ∀ span, ¬SpanOf scope t block t' span

/-- **Each line of the other records is stamped**, and between two spans they are harmless; `gap` are the lines since
the last span. -/
def Undisturbed (scope : TraceScope) (gap : List Line) : List (Piece scope) → Prop
  | [] => Harmless scope gap
  | .span _ :: pieces => Harmless scope gap ∧ Undisturbed scope [] pieces
  | .other r _ :: pieces => ∃ lines, r.lines.mapM stampedLine = .ok lines ∧ Undisturbed scope (gap ++ lines) pieces

end Pieces

/-! ### The lines of a record -/

theorem plainChar_boundary {c : Char} (h : plainChar c = true) : lineBoundary c = false := by
  simp only [plainChar, Bool.and_eq_true, decide_eq_true_iff] at h
  have hrange : 32 ≤ c.val.toNat ∧ c.val.toNat ≤ 126 := h
  simp only [lineBoundary, decide_eq_false_iff_not, List.mem_cons, List.not_mem_nil, or_false]
  rintro (h | h | h | h | h | h | h | h | h | h) <;> simp [h] at hrange

/-- A character of a timestamp. -/
def stampChar (c : Char) : Bool := isDigit c || c ∈ ['-', ':', '.', 'T', 'Z']

theorem stampChar_plain {c : Char} (h : stampChar c = true) : plainChar c = true ∧ c ≠ ' ' := by
  rcases (Bool.or_eq_true _ _).mp h with hdigit | hother
  · exact ⟨Json.plain_number (by simp [Json.numberChar, hdigit]), by rintro rfl; cases hdigit⟩
  · simp only [decide_eq_true_eq, List.mem_cons, List.not_mem_nil, or_false] at hother
    rcases hother with rfl | rfl | rfl | rfl | rfl <;> decide

theorem shaped_chars {shape cs : List Char} (h : shaped shape cs = true) :
    ∀ c ∈ cs, isDigit c = true ∨ c ∈ shape.filter (· != 'd') := by
  fun_induction shaped shape cs with
  | case1 => simp
  | case2 p ps c cs ih =>
    rw [Bool.and_eq_true] at h
    refine List.forall_mem_cons.mpr ⟨?_, fun d hd => ?_⟩
    · have hc := h.1
      split_ifs at hc with hp
      · exact .inl hc
      · rw [beq_iff_eq] at hc
        exact .inr (by simp [hc, hp])
    · refine (ih h.2 d hd).imp_right fun hmem => ?_
      rw [List.mem_filter] at hmem ⊢
      exact ⟨List.mem_cons_of_mem _ hmem.1, hmem.2⟩
  | case3 => cases h

theorem fractionDigits_chars {cs digits : List Char} (h : fractionDigits cs = some digits) :
    ∀ c ∈ cs, stampChar c = true := by
  unfold fractionDigits at h
  split at h
  · exact List.forall_mem_singleton.mpr rfl
  · rename_i cs
    simp only at h
    split_ifs at h with hend
    have hsplit := List.takeWhile_append_dropWhile (p := isDigit) (l := cs)
    have hdrop : cs.dropWhile isDigit = ['Z'] := calc
      cs.dropWhile isDigit = (cs.takeWhile isDigit ++ cs.dropWhile isDigit).drop (cs.takeWhile isDigit).length :=
        List.drop_left.symm
      _ = cs.drop (cs.takeWhile isDigit).length := by rw [hsplit]
      _ = ['Z'] := hend.1
    rw [hdrop] at hsplit
    rw [← hsplit]
    intro c hc
    simp only [List.mem_cons, List.mem_append, List.not_mem_nil, or_false] at hc
    rcases hc with rfl | hc | rfl
    · rfl
    · rw [stampChar, List.mem_takeWhile_imp hc, Bool.true_or]
    · rfl
  · cases h

/-- **A timestamp** has neither blanks nor boundaries in it. -/
theorem LOG_STAMP_chars {stamp : List Char} {t : Time} (h : LOG_STAMP stamp = some t) :
    ∀ c ∈ stamp, stampChar c = true := by
  unfold LOG_STAMP at h
  split_ifs at h with hshape
  obtain ⟨digits, hdigits, -⟩ := Option.bind_eq_some_iff.mp h
  rw [← List.take_append_drop 19 stamp]
  refine List.forall_mem_append.mpr ⟨fun c hc => ?_, fractionDigits_chars hdigits⟩
  have hfilter : clockShape.filter (· != 'd') = ['-', '-', 'T', ':', ':'] := by decide
  rcases shaped_chars hshape c hc with hdigit | hmem
  · rw [stampChar, hdigit, Bool.true_or]
  · rw [hfilter] at hmem
    simp only [List.mem_cons, List.not_mem_nil, or_false] at hmem
    rcases hmem with rfl | rfl | rfl | rfl | rfl <;> rfl

theorem stampedLine_text {stamp content : List Char} {t : Time} (h : LOG_STAMP stamp = some t) :
    stampedLine (stamp ++ ' ' :: content) = .ok (t, content) := by
  have hstamp : ∀ c ∈ stamp, (c != ' ') = true := fun c hc => by
    simpa using (stampChar_plain (LOG_STAMP_chars h c hc)).2
  have hparts : partitionBlank (stamp ++ ' ' :: content) = (stamp, content) := by
    rw [partitionBlank, List.takeWhile_append_of_pos hstamp, List.dropWhile_append_of_pos hstamp]
    simp
  simp [stampedLine, hparts, h]

/-- A record of printable characters is one line. -/
theorem LogRecord.lines_plain {r : LogRecord} (h : ∀ c ∈ r.content, plainChar c = true) :
    r.lines = [r.stamp ++ ' ' :: r.content] := by
  have hplain : ∀ c ∈ r.stamp ++ ' ' :: r.content, lineBoundary c = false := by
    refine List.forall_mem_append.mpr ⟨fun c hc => ?_, List.forall_mem_cons.mpr ⟨rfl, fun c hc => ?_⟩⟩
    · exact plainChar_boundary (stampChar_plain (LOG_STAMP_chars r.stamped c hc)).1
    · exact plainChar_boundary (h c hc)
  rw [LogRecord.lines, LogRecord.text, splitLines_plain hplain]
  simp [splitLines, lineBoundary]

/-- The lines of a log are the lines of its records. -/
theorem splitLines_text (records : List LogRecord) :
    splitLines [] (records.flatMap LogRecord.text) = records.flatMap LogRecord.lines := by
  induction records with
  | nil => rfl
  | cons r records ih =>
    rw [List.flatMap_cons, List.flatMap_cons, ← ih, LogRecord.text, List.append_assoc, List.singleton_append,
      splitLines_snoc]
    rfl

/-! ### The JSON of a span -/

/-- What the scan passes over. -/
def Passes (depth : ℤ) (cs : List Char) : Prop :=
  ∀ rest, depthScan depth false false (cs ++ rest) = depthScan depth false false rest

theorem Passes.append {depth : ℤ} {a b : List Char} (ha : Passes depth a) (hb : Passes depth b) :
    Passes depth (a ++ b) := by
  intro rest
  rw [List.append_assoc, ha, hb]

theorem passes_nil {depth : ℤ} : Passes depth [] := fun _ => rfl

theorem passes_plain {depth : ℤ} {cs : List Char} (h : ∀ c ∈ cs, c ∉ ['"', '[', '\x7b', ']', '\x7d']) :
    Passes depth cs := by
  intro rest
  induction cs with
  | nil => rfl
  | cons c cs ih =>
    obtain ⟨hc, hcs⟩ := List.forall_mem_cons.mp h
    simp only [List.mem_cons, List.not_mem_nil, or_false, not_or] at hc
    rw [List.cons_append, depthScan, ← ih hcs]
    simp [hc]

theorem passes_newline (depth : ℤ) (indent level : ℕ) : Passes depth (Json.newline indent level) := by
  refine passes_plain fun c hc => ?_
  rcases List.mem_cons.mp hc with rfl | hblank
  · decide
  · rw [(List.mem_replicate.mp hblank).2]
    decide

theorem passes_intercalate {depth : ℤ} {sep : List Char} (hsep : Passes depth sep) {ts : List (List Char)}
    (h : ∀ t ∈ ts, Passes depth t) : Passes depth (sep.intercalate ts) := by
  induction ts with
  | nil => exact fun _ => rfl
  | cons t ts ih =>
    obtain ⟨ht, hts⟩ := List.forall_mem_cons.mp h
    cases ts with
    | nil => simpa using ht
    | cons t' ts =>
      rw [List.intercalate_cons_cons]
      exact (ht.append hsep).append (ih hts)

/-- What separates the lines of a container. -/
theorem passes_comma (depth : ℤ) (indent level : ℕ) : Passes depth (',' :: Json.newline indent level) := by
  intro rest
  rw [List.cons_append, ← passes_newline depth indent level rest]
  rfl

theorem passes_lines {depth : ℤ} {indent level : ℕ} {ts : List (List Char)} (h : ∀ t ∈ ts, Passes depth t) :
    Passes depth (Json.newline indent level ++ (',' :: Json.newline indent level).intercalate ts) :=
  (passes_newline _ _ _).append (passes_intercalate (passes_comma _ _ _) h)

/-- Most characters do not end a literal. -/
theorem depthScan_quoted {c : Char} (hslash : c ≠ '\\') (hquote : c ≠ '"') (depth : ℤ) (rest : List Char) :
    depthScan depth true false (c :: rest) = depthScan depth true false rest := by
  rw [depthScan, if_pos rfl, if_neg Bool.false_ne_true, if_neg hslash, bne_iff_ne.mpr hquote]

/-- Hexadecimal digits do not end a literal. -/
theorem depthScan_hexDigit (depth : ℤ) (n : ℕ) (rest : List Char) :
    depthScan depth true false (Json.hexDigit n :: rest) = depthScan depth true false rest := by
  have h : ∀ d : Fin 16, Nat.digitChar d ≠ '\\' ∧ Nat.digitChar d ≠ '"' := by decide
  obtain ⟨hslash, hquote⟩ := h ⟨n % 16, Nat.mod_lt _ (by decide)⟩
  exact depthScan_quoted hslash hquote depth rest

theorem depthScan_unicodeEscape (depth : ℤ) (n : ℕ) (rest : List Char) :
    depthScan depth true false (Json.unicodeEscape n ++ rest) = depthScan depth true false rest := by
  have hslash (cs : List Char) : depthScan depth true false ('\\' :: 'u' :: cs) = depthScan depth true false cs := rfl
  simp only [Json.unicodeEscape, List.cons_append, List.nil_append, hslash, depthScan_hexDigit]

theorem depthScan_escapeChar (depth : ℤ) (c : Char) (rest : List Char) :
    depthScan depth true false (Json.escapeChar true c ++ rest) = depthScan depth true false rest := by
  unfold Json.escapeChar
  split_ifs with hquote hslash hfeed hreturn htab hback hform hcontrol hascii hplane
  · rfl
  · rfl
  · rfl
  · rfl
  · rfl
  · rfl
  · rfl
  · exact depthScan_unicodeEscape ..
  · exact depthScan_unicodeEscape ..
  · rw [List.append_assoc, depthScan_unicodeEscape, depthScan_unicodeEscape]
  · exact depthScan_quoted hslash hquote depth rest

/-- A literal is passed over, whatever is in it. -/
theorem passes_quote (depth : ℤ) (s : String) : Passes depth (Json.quote true s) := by
  intro rest
  have hchars (cs : List Char) : depthScan depth true false (cs.flatMap (Json.escapeChar true) ++ '"' :: rest) =
      depthScan depth false false rest := by
    induction cs with
    | nil => rfl
    | cons c cs ih => rw [List.flatMap_cons, List.append_assoc, depthScan_escapeChar, ih]
  rw [← hchars s.toList]
  simp [Json.quote, depthScan]

/-- A container is passed over, if what is in it is. -/
theorem passes_container {depth : ℤ} {left right : Char} (hleft : left = '[' ∨ left = '\x7b')
    (hright : right = ']' ∨ right = '\x7d') (hdepth : depth + 1 ≤ 8) {cs : List Char} (h : Passes (depth + 1) cs) :
    Passes depth (left :: cs ++ [right]) := by
  intro rest
  have hopen (ds : List Char) : depthScan depth false false (left :: ds) = depthScan (depth + 1) false false ds := by
    rw [depthScan]
    rcases hleft with rfl | rfl <;> simp [not_lt.mpr hdepth]
  have hclose (ds : List Char) : depthScan (depth + 1) false false (right :: ds) = depthScan depth false false ds := by
    rw [depthScan]
    rcases hright with rfl | rfl <;> simp
  rw [List.cons_append, List.cons_append, hopen, List.append_assoc, h, List.singleton_append, hclose]

section Values

variable [Platform]

theorem passes_number {depth : ℤ} {cs : List Char} {v : Json} (h : Json.scanNumber cs = some (v, [])) :
    Passes depth cs := by
  refine passes_plain fun c hc hmem => ?_
  have hnumber := Json.scanNumber_chars h c hc
  simp only [List.mem_cons, List.not_mem_nil, or_false] at hmem
  rcases hmem with rfl | rfl | rfl | rfl | rfl <;> exact absurd hnumber (by decide)

/-- **The text of a value** is within the budget, if the value is. -/
theorem passes_pretty {bound : ℕ} {v : Json} (h : Printable bound v) {depth : ℤ} (hdepth : depth + bound ≤ 8)
    (indent level : ℕ) : Passes depth (pretty indent level v) := by
  induction h generalizing depth level with
  | null => exact passes_plain (by simp [pretty])
  | bool b => exact passes_plain (by cases b <;> simp [pretty])
  | int h => exact passes_number (Json.scanNumber_int h)
  | float h => exact passes_number h
  | str s => exact passes_quote depth s
  | @arr bound items h ih =>
    have hmore : depth + 1 + bound ≤ 8 := by push_cast at hdepth; omega
    cases items with
    | nil => exact passes_container (.inl rfl) (.inl rfl) (by omega) passes_nil
    | cons x xs =>
      rw [pretty, Json.prettyItems_eq, List.cons_append, List.cons_append]
      refine passes_container (.inl rfl) (.inl rfl) (by omega)
        ((passes_lines fun t ht => ?_).append (passes_newline _ _ _))
      obtain ⟨y, hy, rfl⟩ := List.mem_map.mp ht
      exact ih y hy hmore _
  | @obj bound fields hkeys h ih =>
    have hmore : depth + 1 + bound ≤ 8 := by push_cast at hdepth; omega
    cases fields with
    | nil => exact passes_container (.inr rfl) (.inr rfl) (by omega) passes_nil
    | cons f fs =>
      rw [pretty, Json.prettyFields_eq, List.cons_append, List.cons_append]
      refine passes_container (.inr rfl) (.inr rfl) (by omega)
        ((passes_lines fun t ht => ?_).append (passes_newline _ _ _))
      obtain ⟨g, hg, rfl⟩ := List.mem_map.mp ht
      have hcolon : Passes (depth + 1) [':', ' '] := fun _ => rfl
      exact (passes_quote _ _).append (hcolon.append (ih g hg hmore _))

/-- A value that is written has no infinite numbers. -/
theorem finite_printable {bound : ℕ} {v : Json} (h : Printable bound v) : FileStore.finite v = true := by
  have hitems (items : List Json) (hfinite : ∀ x ∈ items, FileStore.finite x = true) :
      FileStore.finiteItems items = true := by
    induction items with
    | nil => rfl
    | cons x xs ih => simp_all [FileStore.finiteItems]
  have hfields (fields : List (String × Json)) (hfinite : ∀ f ∈ fields, FileStore.finite f.2 = true) :
      FileStore.finiteFields fields = true := by
    induction fields with
    | nil => rfl
    | cons f fs ih => simp_all [FileStore.finiteFields]
  induction h with
  | null => rfl
  | bool b => rfl
  | int h => rfl
  | @float bound r h =>
    have hletter : 'n' ∉ r.toList := fun hn => by cases Json.scanNumber_chars h 'n' hn
    simp only [FileStore.finite, Bool.and_eq_true, bne_iff_ne]
    refine ⟨⟨?_, ?_⟩, ?_⟩ <;> rintro rfl <;> exact hletter (by decide)
  | str s => rfl
  | @arr bound items h ih => exact hitems items ih
  | @obj bound fields hkeys h ih => exact hfields fields ih

variable [Datetimes]

omit [Platform] in
/-- **The fields of a span** are projected onto it. -/
theorem Exported.projected {object : JsonObject} {span : SourceSpan} (h : Exported object span) :
    projectObject object = .ok span := by
  obtain ⟨context, hcontext, htrace, hspan⟩ := h.context
  obtain ⟨start, hstart, hstarted⟩ := h.startTime
  obtain ⟨finish, hfinish, hfinished⟩ := h.endTime
  obtain ⟨status, hstatus, hcode⟩ := h.status
  obtain ⟨resource, attributes, hresource, hattributes, hservice⟩ := h.resource
  have hkind : [SpanKind.client, .server].find? (fun k => some (Json.str span.kind.text) == some (.str k.text)) =
      some span.kind := by
    cases span.kind <;> decide
  have hstatuses : [StatusCode.unset, .ok, .error].find?
      (fun s => some (Json.str span.statusCode.text) == some (.str s.text)) = some span.statusCode := by
    cases span.statusCode <;> decide
  have hvalid : SourceSpan.validate (field object "name") (field context "trace_id") (field context "span_id")
      (field object "parent_id") (field object "kind") (field object "start_time") (field object "end_time")
      (field status "status_code") (field attributes "service.name") = some span := by
    rw [h.name, htrace, hspan, h.parent, h.kind, hstart, hfinish, hcode, hservice]
    obtain ⟨name, traceId, spanId, parentId, kind, startTime, endTime, statusCode, serviceName, valid⟩ := span
    have hfields := And.intro (And.intro name.property (And.intro traceId.property spanId.property))
      serviceName.property
    cases parentId with
    | none =>
      simp only [SourceSpan.validate, Option.bind_some, Json.asStr, Option.bind_eq_bind, Option.map_none,
        Option.getD_none, hkind, hstatuses, hstarted, hfinished]
      rw [dif_pos hfields, dif_pos valid]
    | some parent =>
      simp only [SourceSpan.validate, Option.bind_some, Json.asStr, Option.bind_eq_bind, Option.map_some,
        Option.getD_some, hkind, hstatuses, hstarted, hfinished, parent.property, dif_pos]
      rw [dif_pos hfields, dif_pos valid]
  rw [projectObject, h.parent, hcontext, hstatus, hresource]
  simp only [Option.isNone_some, Bool.false_eq_true, if_false, hattributes]
  rw [← h.parent, hvalid]

end Values

/-! ### The lines of a span -/

theorem append_feed_inj {a a' b b' : List Char} (ha : '\n' ∉ a) (ha' : '\n' ∉ a')
    (h : a ++ '\n' :: b = a' ++ '\n' :: b') : a = a' ∧ b = b' := by
  induction a generalizing a' with
  | nil =>
    cases a' with
    | nil => exact ⟨rfl, (List.cons.inj h).2⟩
    | cons d a' => exact absurd ((List.cons.inj h).1 ▸ List.mem_cons_self) ha'
  | cons c a ih =>
    cases a' with
    | nil => exact absurd ((List.cons.inj h).1 ▸ List.mem_cons_self) ha
    | cons d a' =>
      obtain ⟨rfl, hrest⟩ := List.cons.inj h
      obtain ⟨rfl, rfl⟩ := ih (fun hmem => ha (List.mem_cons_of_mem _ hmem))
        (fun hmem => ha' (List.mem_cons_of_mem _ hmem)) hrest
      exact ⟨rfl, rfl⟩

theorem append_feed_inj_last {a a' b b' : List Char} (hb : '\n' ∉ b) (hb' : '\n' ∉ b')
    (h : a ++ '\n' :: b = a' ++ '\n' :: b') : a = a' ∧ b = b' := by
  have hreverse : b.reverse ++ '\n' :: a.reverse = b'.reverse ++ '\n' :: a'.reverse := by
    simpa using congrArg List.reverse h
  obtain ⟨hlast, hfirst⟩ := append_feed_inj (by simpa using hb) (by simpa using hb') hreverse
  exact ⟨List.reverse_injective hfirst, List.reverse_injective hlast⟩

/-- A joined text, line by line. -/
theorem joinLines_cons (t : List Char) (ts : List (List Char)) :
    joinLines (t :: ts) = t ++ ts.flatMap ('\n' :: ·) := by
  induction ts generalizing t with
  | nil => simp [joinLines]
  | cons t' ts ih =>
    have hcons : joinLines (t :: t' :: ts) = t ++ '\n' :: joinLines (t' :: ts) := by
      simp [joinLines, List.intercalate_cons_cons]
    rw [hcons, ih]
    rfl

theorem indented_suffix {a b : List Char} (h : indented (a ++ b) = true) : indented b = true := by
  induction a with
  | nil => exact h
  | cons c a ih =>
    rw [List.cons_append, indented, Bool.and_eq_true] at h
    exact ih h.2

theorem plain_of_indented {cs : List Char} (h : indented cs = true) : ∀ c ∈ cs, c ≠ '\n' → plainChar c = true := by
  induction cs with
  | nil => simp
  | cons c cs ih =>
    rw [indented, Bool.and_eq_true] at h
    refine List.forall_mem_cons.mpr ⟨fun hc => ?_, ih h.2⟩
    simpa [hc] using h.1

/-- The lines of an indented text begin with a blank, and are printable. -/
theorem lines_indented {ts : List (List Char)} (hfree : ∀ t ∈ ts, '\n' ∉ t)
    (h : indented (ts.flatMap ('\n' :: ·)) = true) :
    ∀ t ∈ ts, t.head? = some ' ' ∧ ∀ c ∈ t, plainChar c = true := by
  induction ts with
  | nil => simp
  | cons t ts ih =>
    obtain ⟨ht, hts⟩ := List.forall_mem_cons.mp hfree
    rw [List.flatMap_cons, List.cons_append, indented, if_pos rfl, Bool.and_eq_true, beq_iff_eq] at h
    obtain ⟨hhead, hrest⟩ := h
    refine List.forall_mem_cons.mpr ⟨⟨?_, fun c hc => ?_⟩, ih hts (indented_suffix hrest)⟩
    · cases t with
      | nil => cases ts <;> cases hhead
      | cons c t => exact hhead
    · exact plain_of_indented hrest c (List.mem_append_left _ hc) (by rintro rfl; exact ht hc)

/-- **The lines of a framed text** are the braces, and lines that begin with a blank. -/
theorem framed_lines {contents : List (List Char)} {body : List Char} (hfree : ∀ t ∈ contents, '\n' ∉ t)
    (h : joinLines contents = '\x7b' :: '\n' :: body ++ ['\n', '\x7d']) (hbody : indented ('\n' :: body) = true) :
    ∃ middle, contents = opening :: middle ++ [closing] ∧
      ∀ t ∈ middle, t.head? = some ' ' ∧ ∀ c ∈ t, plainChar c = true := by
  cases contents with
  | nil => cases h
  | cons first ts =>
    obtain ⟨hfirst, hts⟩ := List.forall_mem_cons.mp hfree
    rw [joinLines_cons] at h
    rcases List.eq_nil_or_concat ts with rfl | ⟨middle, last, rfl⟩
    · rw [List.flatMap_nil, List.append_nil] at h
      exact absurd (by simp [h]) hfirst
    rw [List.concat_eq_append] at h hts ⊢
    obtain ⟨hmiddle, hlast⟩ := List.forall_mem_append.mp hts
    have hlast := hlast last (by simp)
    have hend : first ++ middle.flatMap ('\n' :: ·) ++ '\n' :: last = '\x7b' :: '\n' :: body ++ '\n' :: ['\x7d'] := by
      simpa using h
    obtain ⟨hbegin, rfl⟩ := append_feed_inj_last hlast (by decide) hend
    cases middle with
    | nil =>
      rw [List.flatMap_nil, List.append_nil] at hbegin
      exact absurd (by simp [hbegin]) hfirst
    | cons t middle =>
      have hbrace : '\n' ∉ ['\x7b'] := by decide
      obtain ⟨rfl, hrest⟩ := append_feed_inj hfirst hbrace hbegin
      have hflat : (t :: middle).flatMap ('\n' :: ·) = '\n' :: body := congrArg ('\n' :: ·) hrest
      exact ⟨t :: middle, rfl, lines_indented hmiddle (hflat ▸ hbody)⟩

/-- The size of a text, by its lines. -/
theorem utf8Length_joinLines (ts : List (List Char)) :
    utf8Length (joinLines (opening :: ts ++ [closing])) = 1 + (ts.map fun t => utf8Length t + 1).sum + 2 := by
  have hlines (ts : List (List Char)) :
      utf8Length (ts.flatMap ('\n' :: ·)) = (ts.map fun t => utf8Length t + 1).sum := by
    induction ts with
    | nil => rfl
    | cons t ts ih =>
      simp only [List.flatMap_cons, Text.utf8Length_append, Text.utf8Length_cons, ih, List.map_cons, List.sum_cons]
      have hfeed : '\n'.utf8Size = 1 := rfl
      omega
  rw [List.cons_append, joinLines_cons, Text.utf8Length_append, hlines, List.map_append, List.sum_append]
  have hopening : utf8Length opening = 1 := rfl
  have hclosing : ([closing].map fun t => utf8Length t + 1).sum = 2 := rfl
  omega

/-- What is read of a record of one line. -/
def LogRecord.line (r : LogRecord) : Line := (r.time, r.content)

theorem mapM_lines {records : List LogRecord} (h : ∀ r ∈ records, ∀ c ∈ r.content, plainChar c = true) :
    (records.flatMap LogRecord.lines).mapM stampedLine = .ok (records.map LogRecord.line) := by
  induction records with
  | nil => rfl
  | cons r records ih =>
    obtain ⟨hr, hrecords⟩ := List.forall_mem_cons.mp h
    rw [List.flatMap_cons, LogRecord.lines_plain hr, List.singleton_append, List.mapM_cons, ih hrecords,
      stampedLine_text r.stamped]
    rfl

section Emissions

variable [Platform] [Datetimes] {scope : TraceScope}

omit [Platform] in
theorem Exported.ne_nil {object : JsonObject} {span : SourceSpan} (h : Exported object span) : object ≠ [] := by
  rintro rfl
  cases h.name

/-- **The records of a span** are an opening line, lines that are no lone braces, and a closing line. -/
theorem Emission.framed (e : Emission scope) :
    ∃ t block t', e.records.map LogRecord.line = (t, opening) :: block ++ [(t', closing)] ∧
      (∀ line ∈ block, line.2 ≠ opening ∧ line.2 ≠ closing) ∧
      ∀ r ∈ e.records, ∀ c ∈ r.content, plainChar c = true := by
  obtain ⟨body, hpretty, hbody⟩ := e.printable.framed e.exported.ne_nil e.isIndented
  have hfree : ∀ t ∈ e.records.map LogRecord.content, '\n' ∉ t := by
    intro t ht
    obtain ⟨r, -, rfl⟩ := List.mem_map.mp ht
    exact r.framed
  obtain ⟨middle, hcontents, hmiddle⟩ := framed_lines hfree (e.printed.trans hpretty) hbody
  have hlines : (e.records.map LogRecord.line).map Prod.snd = opening :: middle ++ [closing] := by
    rw [List.map_map]
    exact hcontents
  rw [List.cons_append] at hlines
  obtain ⟨⟨t, first⟩, rest, hsplit, rfl, hrest⟩ := List.map_eq_cons_iff.mp hlines
  obtain ⟨block, last, rfl, rfl, hlast⟩ := List.map_eq_append_iff.mp hrest
  obtain ⟨⟨t', final⟩, rfl, rfl⟩ := List.map_eq_singleton_iff.mp hlast
  refine ⟨t, block, t', hsplit, fun line hline => ?_, fun r hr => ?_⟩
  · have hhead := (hmiddle line.2 (List.mem_map_of_mem hline)).1
    constructor <;> rintro heq <;> rw [heq] at hhead <;> cases hhead
  · have hmem : r.content ∈ opening :: block.map Prod.snd ++ [closing] := by
      rw [← hcontents]
      exact List.mem_map_of_mem hr
    simp only [List.cons_append, List.mem_cons, List.mem_append, List.not_mem_nil, or_false] at hmem
    rcases hmem with hmem | hmem | hmem
    · rw [hmem]
      exact List.forall_mem_singleton.mpr rfl
    · exact (hmiddle _ hmem).2
    · rw [hmem]
      exact List.forall_mem_singleton.mpr rfl

/-- The lines of a span. -/
theorem Emission.mapM_lines (e : Emission scope) :
    (e.records.flatMap LogRecord.lines).mapM stampedLine = .ok (e.records.map LogRecord.line) := by
  obtain ⟨-, -, -, -, -, hplain⟩ := e.framed
  exact Trace.mapM_lines hplain

/-! ### Runs -/

/-- A block of lines is added to a candidate just if it is not too long. -/
theorem block_run (scope : TraceScope) {st st' : Framing} {block : List Line} (hsome : st.candidate ≠ [])
    (hlone : ∀ line ∈ block, line.2 ≠ opening ∧ line.2 ≠ closing) (hsize : st.size ≤ 8192) :
    block.foldlM (frame scope) st = .ok st' ↔
      st.size + blockSize block ≤ 8192 ∧ block.foldl Framing.added st = st' := by
  induction block generalizing st with
  | nil => simp [blockSize, hsize, pure, Except.pure]
  | cons line block ih =>
    obtain ⟨hline, hblock⟩ := List.forall_mem_cons.mp hlone
    have hadded : (st.added line).size = st.size + (utf8Length line.2 + 1) := rfl
    have hblockSize : blockSize (line :: block) = utf8Length line.2 + 1 + blockSize block := by simp [blockSize]
    rw [List.foldlM_cons, frame_inside hline.1 hsome, List.foldl_cons]
    split_ifs with hbudget hclosing
    · constructor
      · rintro ⟨⟩
      · rintro ⟨hle, -⟩
        omega
    · show block.foldlM (frame scope) (st.added line) = .ok st' ↔ _
      rw [ih (by simp [Framing.added]) hblock (by omega), hblockSize, hadded]
      simp only [Nat.add_assoc]
    · exact absurd hline.2 hclosing

omit [Platform] [Datetimes] in
/-- What is gathered of a block. -/
theorem Gathered.block {st : Framing} {t : Time} {gathered : List Line} (h : Gathered st t gathered)
    (block : List Line) : Gathered (block.foldl Framing.added st) t (gathered ++ block) ∧
      (block.foldl Framing.added st).spans = st.spans := by
  induction block generalizing st gathered with
  | nil => exact ⟨by simpa using h, rfl⟩
  | cons line block ih =>
    obtain ⟨hgathered, hspans⟩ := ih (h.added line)
    exact ⟨by simpa using hgathered, hspans⟩

omit [Platform] [Datetimes] in
theorem depthScan_error {depth : ℤ} {quoted escaped : Bool} {cs : List Char} {x : Fault}
    (h : depthScan depth quoted escaped cs = .error x) : x.isValue = true := by
  fun_induction depthScan depth quoted escaped cs <;> simp_all
  rw [← h]
  rfl

theorem project_error {text : List Char} {x : Fault} (h : project text = .error x) : x.isValue = true := by
  unfold project projectObject at h
  repeat' split at h
  all_goals cases h <;> rfl

omit [Platform] [Datetimes] in
theorem checkService_error {span : SourceSpan} {service : Orchestrator.Service} {x : Fault}
    (h : span.checkService service = .error x) : x.isValue = true := by
  unfold SourceSpan.checkService at h
  split_ifs at h
  cases h
  rfl

/-- What is raised inside of `try` is a `ValueError`. -/
theorem capture_error {invalid : Bool} {t t' : Time} {text : List Char} {x : Fault}
    (h : capture scope invalid (some t) t' text = .error x) : x.isValue = true := by
  unfold capture at h
  cases invalid with
  | true => cases h; rfl
  | false =>
    cases hdepth : depthScan 0 false false text with
    | error y =>
      obtain rfl : y = x := by simpa [hdepth, bind, Except.bind, pure, Except.pure] using h
      exact depthScan_error hdepth
    | ok =>
      cases hproject : project text with
      | error y =>
        obtain rfl : y = x := by simpa [hdepth, hproject, bind, Except.bind, pure, Except.pure] using h
        exact project_error hproject
      | ok span =>
        cases hservice : span.checkService scope.service with
        | error y =>
          obtain rfl : y = x := by simpa [hdepth, hproject, hservice, bind, Except.bind, pure, Except.pure] using h
          exact checkService_error hservice
        | ok =>
          simp only [hdepth, hproject, hservice, bind, Except.bind, Bool.false_eq_true, if_false,
            CapturedSpan.validate] at h
          split_ifs at h
          cases h
          rfl

/-- A span is captured. -/
theorem SpanOf.capture {t t' : Time} {block : List Line} {span : SourceSpan} (h : SpanOf scope t block t' span) :
    ∃ captured, capture scope false (some t) t' (blockText block) = .ok captured ∧ captured.span = span := by
  have hlast : t ≤ t' := (List.pairwise_cons.mp h.ordered).1 t' (by simp)
  refine ⟨⟨span, t, t', h.ended, hlast⟩, ?_, rfl⟩
  simp [Trace.capture, h.shallow, h.projected, h.service, CapturedSpan.validate, h.ended, hlast, bind, Except.bind]

/-- **A candidate that is a span** is added to the spans. -/
theorem closeCandidate_span {st : Framing} {t t' : Time} {block : List Line} {span : SourceSpan}
    (hgathered : Gathered st t block) (h : SpanOf scope t block t' span) :
    ∃ captured cleared, captured.span = span ∧ cleared.candidate = [] ∧ cleared.spans = st.spans ++ [captured] ∧
      closeCandidate scope (st.added (t', closing)) t' =
        if MAX_SPANS < st.spans.length + 1 then .error (.other "OverflowError") else .ok cleared := by
  have hadded := hgathered.added (t', closing)
  have hvalid := hadded.invalid.mpr (by simpa using h.ordered)
  obtain ⟨captured, hcapture, rfl⟩ := h.capture
  have htext : joinLines (st.added (t', closing)).candidate = blockText block := by
    rw [hadded.candidate, blockText, List.map_append]
    rfl
  have hread : Trace.capture scope (st.added (t', closing)).invalidTimestamps (st.added (t', closing)).started t'
      (joinLines (st.added (t', closing)).candidate) = .ok captured := by
    rw [hvalid, hadded.started, htext, hcapture]
  refine ⟨captured, { (st.added (t', closing)).cleared with spans := st.spans ++ [captured] }, rfl, rfl, rfl, ?_⟩
  rw [closeCandidate, hread]
  simp only [h.inScope, if_true, List.length_append, List.length_singleton]
  rfl

/-- **A candidate that is no span** is only counted. -/
theorem closeCandidate_none {st : Framing} {t t' : Time} {block : List Line} (hgathered : Gathered st t block)
    (h : ∀ span, ¬SpanOf scope t block t' span) :
    ∃ st', closeCandidate scope (st.added (t', closing)) t' = .ok st' ∧ st'.candidate = [] ∧ st'.spans = st.spans := by
  have hadded := hgathered.added (t', closing)
  have htext : joinLines (st.added (t', closing)).candidate = blockText block := by
    rw [hadded.candidate, blockText, List.map_append]
    rfl
  rw [closeCandidate, hadded.started, htext]
  cases hcapture : capture scope (st.added (t', closing)).invalidTimestamps (some t) t' (blockText block) with
  | error x =>
    simp only [capture_error hcapture, if_true]
    exact ⟨_, rfl, rfl, rfl⟩
  | ok captured =>
    obtain ⟨hinvalid, hdepth, hproject, hservice, hstarted, hend⟩ := capture_ok hcapture
    obtain rfl : t = captured.logStart := Option.some.inj hstarted
    have hout : scope.contains captured.span = false := by
      by_contra hcontains
      refine h captured.span ⟨?_, hdepth, hproject, hservice, captured.ordered.1, by simpa using hcontains⟩
      simpa using hadded.invalid.mp hinvalid
    simp only [hout, Bool.false_eq_true, if_false]
    exact ⟨_, rfl, rfl, rfl⟩

/-- A block that is not too long is gathered, whatever was read before it. -/
theorem open_run (scope : TraceScope) (st : Framing) {t : Time} {block : List Line}
    (hlone : ∀ line ∈ block, line.2 ≠ opening ∧ line.2 ≠ closing) (hsize : 1 + blockSize block ≤ 8192) :
    ∃ st', ((t, opening) :: block).foldlM (frame scope) st = .ok st' ∧ Gathered st' t block ∧ st'.spans = st.spans := by
  have hopened : Gathered (st.opened (t, opening)) t [] := .opened st rfl
  have hone : (st.opened (t, opening)).size = 1 := rfl
  have hcandidate : (st.opened (t, opening)).candidate ≠ [] := by simp [Framing.opened]
  have hblock := (block_run scope hcandidate hlone (by omega)).mpr
    ⟨show (st.opened (t, opening)).size + blockSize block ≤ 8192 by omega, rfl⟩
  obtain ⟨hgathered, hspans⟩ := hopened.block block
  rw [List.nil_append] at hgathered
  refine ⟨_, ?_, hgathered, hspans⟩
  rw [List.foldlM_cons, frame_opening rfl]
  exact hblock

/-- **The records of a span** are a block that is the span. -/
theorem Emission.spanOf (e : Emission scope) (hnesting : 8 ≤ Platform.nesting) :
    ∃ t block t', e.records.map LogRecord.line = (t, opening) :: block ++ [(t', closing)] ∧
      (∀ line ∈ block, line.2 ≠ opening ∧ line.2 ≠ closing) ∧ 1 + blockSize block + 2 ≤ 8192 ∧
      SpanOf scope t block t' e.span := by
  obtain ⟨t, block, t', hlines, hlone, -⟩ := e.framed
  have hsnd : ((t, opening) :: block ++ [(t', closing)]).map Prod.snd = e.records.map LogRecord.content := by
    rw [← hlines, List.map_map]
    rfl
  have hfst : ((t, opening) :: block ++ [(t', closing)]).map Prod.fst = e.records.map LogRecord.time := by
    rw [← hlines, List.map_map]
    rfl
  have htext : blockText block = pretty e.indent 0 (.obj e.object) := by
    rw [← e.printed, ← hsnd, blockText, List.map_append]
    rfl
  have hpasses : Passes 0 (pretty e.indent 0 (.obj e.object)) := passes_pretty e.printable (by decide) e.indent 0
  have hloads := (e.printable.mono hnesting).loads_pretty e.indent
  refine ⟨t, block, t', hlines, hlone, ?_, ?_, ?_, ?_, e.service, ?_, e.inScope⟩
  · have hbounded := e.bounded
    rw [← htext, blockText, utf8Length_joinLines, List.map_map] at hbounded
    exact hbounded
  · have hordered := e.ordered
    rw [← hfst] at hordered
    simpa using hordered
  · rw [htext, ← List.append_nil (pretty e.indent 0 (.obj e.object)), hpasses]
    rfl
  · rw [project, loadsFinite, htext, hloads, Option.filter_some, finite_printable e.printable]
    exact e.exported.projected
  · have hfirst : (t, opening) ∈ e.records.map LogRecord.line := by simp [hlines]
    obtain ⟨r, hr, hline⟩ := List.mem_map.mp hfirst
    obtain rfl : r.time = t := congrArg Prod.fst hline
    exact e.ended r hr

/-- A closing brace ends a candidate that is not too long. -/
theorem frame_closing {st : Framing} {t t' : Time} {block : List Line} (h : Gathered st t block) :
    frame scope st (t', closing) =
      if 8192 < 1 + blockSize block + 2 then .error (.value "span object exceeds byte budget")
      else closeCandidate scope (st.added (t', closing)) t' := by
  have hadded : (st.added (t', closing)).size = st.size + 2 := rfl
  rw [frame_inside closing_ne_opening (by simp [h.candidate]), hadded, h.size, if_neg (not_not.mpr rfl)]
  rfl

/-- **The records of a span** are read as that span, whatever was read before. -/
theorem Emission.run (e : Emission scope) (hnesting : 8 ≤ Platform.nesting) (st : Framing) :
    ∃ captured cleared, captured.span = e.span ∧ cleared.candidate = [] ∧ cleared.spans = st.spans ++ [captured] ∧
      (e.records.map LogRecord.line).foldlM (frame scope) st =
        if MAX_SPANS < st.spans.length + 1 then .error (.other "OverflowError") else .ok cleared := by
  obtain ⟨t, block, t', hlines, hlone, hsize, hspan⟩ := e.spanOf hnesting
  obtain ⟨st', hrun, hgathered, hspans⟩ := open_run scope st (t := t) hlone (by omega)
  obtain ⟨captured, cleared, hcaptured, hcandidate, hcleared, hclose⟩ := closeCandidate_span hgathered hspan
  rw [hspans] at hcleared hclose
  refine ⟨captured, cleared, hcaptured, hcandidate, hcleared, ?_⟩
  rw [hlines, List.foldlM_append, hrun, ← hclose]
  show List.foldlM (frame scope) st' [(t', closing)] = _
  rw [List.foldlM_cons, frame_closing hgathered, if_neg (not_lt.mpr hsize)]
  exact bind_pure _

/-! ### Between the spans -/

theorem frame_spans {st st' : Framing} {line : Line} (h : frame scope st line = .ok st') :
    st.spans.length ≤ st'.spans.length := by
  rcases frame_ok h with ⟨-, rfl⟩ | ⟨-, -, rfl⟩ | ⟨-, -, -, rfl⟩ | ⟨-, -, -, hclose⟩
  · exact le_rfl
  · exact le_rfl
  · exact le_rfl
  · rcases closeCandidate_ok hclose with ⟨captured, -, -, rfl⟩ | rfl | rfl
    · simp [Framing.added]
    · exact le_rfl
    · exact le_rfl

/-- No span is lost. -/
theorem run_spans {lines : List Line} {st st' : Framing} (h : lines.foldlM (frame scope) st = .ok st') :
    st.spans.length ≤ st'.spans.length := by
  induction lines generalizing st with
  | nil =>
    obtain rfl : st = st' := Except.ok.inj h
    exact le_rfl
  | cons line lines ih =>
    rw [List.foldlM_cons] at h
    obtain ⟨next, hstep, hrest⟩ := bind_eq_ok.mp h
    exact (frame_spans hstep).trans (ih hrest)

theorem Harmless.prefix {gap after : List Line} (h : Harmless scope (gap ++ after)) : Harmless scope gap := by
  rintro before t block rest rfl hlone
  obtain ⟨hsize, hspan⟩ := h before t block (rest ++ after) (by simp) hlone
  refine ⟨hsize, ?_⟩
  rintro t' rest' rfl
  exact hspan t' (rest' ++ after) rfl

/-- A candidate that is open after these lines is a block of the last of them. -/
def InBlock (gap : List Line) (st : Framing) : Prop :=
  st.candidate = [] ∨ ∃ before t block, gap = before ++ (t, opening) :: block ∧
    (∀ line ∈ block, line.2 ≠ opening ∧ line.2 ≠ closing) ∧ Gathered st t block

/-- **Harmless lines** are read, and no span is found in them. -/
theorem Harmless.run {gap : List Line} (h : Harmless scope gap) {st : Framing} (hst : st.candidate = []) :
    ∃ st', gap.foldlM (frame scope) st = .ok st' ∧ st'.spans = st.spans ∧ InBlock gap st' := by
  induction gap using List.reverseRecOn with
  | nil => exact ⟨st, rfl, rfl, .inl hst⟩
  | append_singleton gap line ih =>
    obtain ⟨st', hrun, hspans, hblock⟩ := ih h.prefix
    have hsnoc : (gap ++ [line]).foldlM (frame scope) st = frame scope st' line := by
      rw [List.foldlM_append, hrun]
      exact bind_pure (frame scope st' line)
    rw [hsnoc, ← hspans]
    by_cases hopening : line.2 = opening
    · refine ⟨_, frame_opening hopening, rfl, .inr ⟨gap, line.1, [], ?_, by simp, .opened st' hopening⟩⟩
      rw [← hopening]
    rcases hblock with hnone | ⟨before, t, block, rfl, hlone, hgathered⟩
    · exact ⟨_, frame_outside hopening hnone, rfl, .inl hnone⟩
    by_cases hclosing : line.2 = closing
    · obtain ⟨t', content⟩ := line
      obtain rfl : content = closing := hclosing
      obtain ⟨hsize, hspan⟩ := (h before t block [(t', closing)] rfl hlone).2 t' [] rfl
      obtain ⟨next, hclose, hnext, hspans'⟩ := closeCandidate_none hgathered hspan
      rw [frame_closing hgathered, if_neg (not_lt.mpr hsize), hclose]
      exact ⟨next, rfl, hspans', .inl hnext⟩
    · have hlone' : ∀ other ∈ block ++ [line], other.2 ≠ opening ∧ other.2 ≠ closing :=
        List.forall_mem_append.mpr ⟨hlone, List.forall_mem_singleton.mpr ⟨hopening, hclosing⟩⟩
      have hsize := (h before t (block ++ [line]) [] (by simp) hlone').1
      have hadded : (st'.added line).size = 1 + blockSize (block ++ [line]) := (hgathered.added line).size
      rw [frame_inside hopening (by simp [hgathered.candidate]), hadded, if_neg (not_lt.mpr hsize), if_pos hclosing]
      exact ⟨_, rfl, rfl, .inr ⟨before, t, block ++ [line], by simp, hlone', hgathered.added line⟩⟩

/-- Lines in which no span is found are harmless. -/
theorem harmless_of_run {gap : List Line} {st st' : Framing} (h : gap.foldlM (frame scope) st = .ok st')
    (hspans : st'.spans.length ≤ st.spans.length) : Harmless scope gap := by
  rintro before t block after rfl hlone
  rw [List.foldlM_append, List.foldlM_append] at h
  obtain ⟨st₂, h, hafter⟩ := bind_eq_ok.mp h
  obtain ⟨st₁, hbefore, h⟩ := bind_eq_ok.mp h
  rw [List.foldlM_cons, frame_opening rfl] at h
  have hcandidate : (st₁.opened (t, opening)).candidate ≠ [] := by simp [Framing.opened]
  have hone : (st₁.opened (t, opening)).size = 1 := rfl
  obtain ⟨hsize, hblock⟩ := (block_run scope hcandidate hlone (by omega)).mp h
  have hopened : Gathered (st₁.opened (t, opening)) t [] := .opened st₁ rfl
  obtain ⟨hgathered, hsame⟩ := hopened.block block
  rw [List.nil_append, hblock] at hgathered
  rw [hblock] at hsame
  refine ⟨hsize, ?_⟩
  rintro t' after' rfl
  rw [List.foldlM_cons, frame_closing hgathered] at hafter
  split_ifs at hafter with hbudget
  · cases hafter
  · refine ⟨not_lt.mp hbudget, fun span hspan => ?_⟩
    obtain ⟨captured, cleared, -, -, hcleared, hclose⟩ := closeCandidate_span hgathered hspan
    rw [hclose] at hafter
    split_ifs at hafter
    · cases hafter
    · -- a span that is found is kept until the end
      have hkept := run_spans hafter
      have hread := run_spans hbefore
      have hopened : (st₁.opened (t, opening)).spans = st₁.spans := rfl
      rw [hcleared, hsame, hopened, List.length_append, List.length_singleton] at hkept
      omega

/-! ### Whole logs -/

omit [Platform] [Datetimes] in
theorem mapM_append_ok {xs ys : List (List Char)} {lines : List Line} :
    (xs ++ ys).mapM stampedLine = .ok lines ↔
      ∃ a b, xs.mapM stampedLine = .ok a ∧ ys.mapM stampedLine = .ok b ∧ lines = a ++ b := by
  rw [List.mapM_append]
  constructor
  · intro h
    obtain ⟨a, ha, h⟩ := bind_eq_ok.mp h
    obtain ⟨b, hb, h⟩ := bind_eq_ok.mp h
    exact ⟨a, b, ha, hb, (Except.ok.inj h).symm⟩
  · rintro ⟨a, b, ha, hb, rfl⟩
    rw [ha, hb]
    rfl

theorem textLines_cons (piece : Piece scope) (pieces : List (Piece scope)) :
    textLines (piece :: pieces) = piece.records.flatMap LogRecord.lines ++ textLines pieces := by
  simp [textLines]

/-- Each span that was emitted is found. -/
theorem run_emitted (hnesting : 8 ≤ Platform.nesting) {pieces : List (Piece scope)} {lines : List Line}
    {st st' : Framing} (hlines : (textLines pieces).mapM stampedLine = .ok lines)
    (hrun : lines.foldlM (frame scope) st = .ok st') :
    st.spans.length + (emitted pieces).length ≤ st'.spans.length := by
  induction pieces generalizing lines st with
  | nil =>
    obtain rfl : [] = lines := Except.ok.inj hlines
    exact run_spans hrun
  | cons piece pieces ih =>
    rw [textLines_cons] at hlines
    obtain ⟨a, b, ha, hb, rfl⟩ := mapM_append_ok.mp hlines
    rw [List.foldlM_append] at hrun
    obtain ⟨next, hfirst, hrest⟩ := bind_eq_ok.mp hrun
    have hkept := ih hb hrest
    cases piece with
    | span e =>
      obtain rfl : e.records.map LogRecord.line = a := Except.ok.inj (e.mapM_lines.symm.trans ha)
      obtain ⟨captured, cleared, -, -, hcleared, hemitted⟩ := e.run hnesting st
      rw [hemitted] at hfirst
      split_ifs at hfirst
      obtain rfl := Except.ok.inj hfirst
      rw [hcleared, List.length_append, List.length_singleton] at hkept
      rw [emitted, List.length_cons]
      omega
    | other r h => exact (Nat.add_le_add_right (run_spans hfirst) _).trans hkept

/-- **The spans of a log** are found in it just if the other records are harmless. -/
theorem run_iff (hnesting : 8 ≤ Platform.nesting) {pieces : List (Piece scope)} {gap : List Line} {st : Framing}
    (hst : st.candidate = []) (hbudget : st.spans.length + (emitted pieces).length ≤ MAX_SPANS) :
    (∃ lines st', (textLines pieces).mapM stampedLine = .ok lines ∧ (gap ++ lines).foldlM (frame scope) st = .ok st' ∧
      st'.spans.map CapturedSpan.span = st.spans.map CapturedSpan.span ++ emitted pieces) ↔
      Undisturbed scope gap pieces := by
  induction pieces generalizing gap st with
  | nil =>
    constructor
    · rintro ⟨lines, st', hlines, hrun, hspans⟩
      obtain rfl : [] = lines := Except.ok.inj hlines
      rw [List.append_nil] at hrun
      have hlength := congrArg List.length hspans
      simp only [emitted, List.append_nil, List.length_map] at hlength
      exact harmless_of_run hrun hlength.le
    · intro h
      obtain ⟨st', hrun, hspans, -⟩ := Harmless.run h hst
      exact ⟨[], st', rfl, by rwa [List.append_nil], by rw [hspans, emitted, List.append_nil]⟩
  | cons piece pieces ih =>
    cases piece with
    | other r h =>
      rw [Undisturbed]
      have hrecord : (Piece.other r h : Piece scope).records.flatMap LogRecord.lines = r.lines := by
        simp [Piece.records]
      simp only [textLines_cons, hrecord, mapM_append_ok]
      constructor
      · rintro ⟨-, st', ⟨a, b, ha, hb, rfl⟩, hrun, hspans⟩
        rw [← List.append_assoc] at hrun
        exact ⟨a, ha, (ih hst hbudget).mp ⟨b, st', hb, hrun, hspans⟩⟩
      · rintro ⟨a, ha, hrest⟩
        obtain ⟨b, st', hb, hrun, hspans⟩ := (ih hst hbudget).mpr hrest
        rw [List.append_assoc] at hrun
        exact ⟨a ++ b, st', ⟨a, b, ha, hb, rfl⟩, hrun, hspans⟩
    | span e =>
      rw [Undisturbed]
      rw [emitted, List.length_cons] at hbudget
      have hrecords : (Piece.span e).records = e.records := rfl
      simp only [textLines_cons, hrecords, mapM_append_ok, e.mapM_lines, emitted]
      constructor
      · rintro ⟨-, st', ⟨a, b, ⟨rfl⟩, hb, rfl⟩, hrun, hspans⟩
        rw [List.foldlM_append] at hrun
        obtain ⟨st₁, hgap, hrun⟩ := bind_eq_ok.mp hrun
        rw [List.foldlM_append] at hrun
        obtain ⟨st₂, hfirst, hrest⟩ := bind_eq_ok.mp hrun
        obtain ⟨captured, cleared, hcaptured, hcandidate, hcleared, hemitted⟩ := e.run hnesting st₁
        rw [hemitted] at hfirst
        split_ifs at hfirst
        obtain rfl := Except.ok.inj hfirst
        -- a span that was found before it would be one too many
        have hlength := congrArg List.length hspans
        have hfound := run_emitted hnesting hb hrest
        simp only [List.length_map, List.length_append, List.length_cons, hcleared, List.length_nil] at hlength hfound
        have hharmless : Harmless scope gap := harmless_of_run hgap (by omega)
        obtain ⟨same, hsame, hkept, -⟩ := hharmless.run hst
        obtain rfl : same = st₁ := Except.ok.inj (hsame.symm.trans hgap)
        refine ⟨hharmless, (ih hcandidate ?_).mp ⟨b, st', hb, hrest, ?_⟩⟩
        · rw [hcleared, hkept, List.length_append, List.length_singleton]
          omega
        · rw [hspans, hcleared, hkept, List.map_append, List.map_singleton, hcaptured, List.append_assoc,
            List.singleton_append]
      · rintro ⟨hharmless, hrest⟩
        obtain ⟨st₁, hgap, hkept, -⟩ := hharmless.run hst
        obtain ⟨captured, cleared, hcaptured, hcandidate, hcleared, hemitted⟩ := e.run hnesting st₁
        rw [hkept] at hcleared hemitted
        rw [if_neg (by omega)] at hemitted
        have hbudget' : cleared.spans.length + (emitted pieces).length ≤ MAX_SPANS := by
          rw [hcleared, List.length_append, List.length_singleton]
          omega
        obtain ⟨b, st', hb, hrun, hspans⟩ := (ih hcandidate hbudget').mpr hrest
        refine ⟨_, st', ⟨_, b, rfl, hb, rfl⟩, ?_, ?_⟩
        · rw [List.foldlM_append, hgap]
          show (e.records.map LogRecord.line ++ b).foldlM (frame scope) st₁ = .ok st'
          rw [List.foldlM_append, hemitted]
          exact hrun
        · rw [hspans, hcleared, List.map_append, List.map_singleton, hcaptured, List.append_assoc,
            List.singleton_append]

/-- Lines none of which is an opening brace are harmless. -/
theorem harmless_plain {gap : List Line} (h : ∀ line ∈ gap, line.2 ≠ opening) : Harmless scope gap := by
  rintro before t block after rfl -
  exact absurd rfl (h (t, opening) (by simp))

/-- **Other records of one line** do not disturb, whatever is in them. -/
theorem undisturbed_plain {pieces : List (Piece scope)} {gap : List Line} (hgap : ∀ line ∈ gap, line.2 ≠ opening)
    (h : ∀ r hr, Piece.other r hr ∈ pieces → r.lines = [r.stamp ++ ' ' :: r.content]) :
    Undisturbed scope gap pieces := by
  induction pieces generalizing gap with
  | nil => exact harmless_plain hgap
  | cons piece pieces ih =>
    have hpieces : ∀ r hr, Piece.other r hr ∈ pieces → r.lines = [r.stamp ++ ' ' :: r.content] :=
      fun r hr hmem => h r hr (List.mem_cons_of_mem _ hmem)
    cases piece with
    | span e => exact ⟨harmless_plain hgap, ih (by simp) hpieces⟩
    | other r hr =>
      refine ⟨[r.line], ?_, ih ?_ hpieces⟩
      · rw [h r hr (by simp), List.mapM_cons, stampedLine_text r.stamped]
        rfl
      · exact List.forall_mem_append.mpr ⟨hgap, List.forall_mem_singleton.mpr hr⟩

omit [Platform] [Datetimes] in
theorem length_mapM {xs : List (List Char)} {lines : List Line} (h : xs.mapM stampedLine = .ok lines) :
    lines.length = xs.length := by
  induction xs generalizing lines with
  | nil =>
    obtain rfl : [] = lines := Except.ok.inj h
    rfl
  | cons x xs ih =>
    rw [List.mapM_cons] at h
    obtain ⟨line, -, h⟩ := bind_eq_ok.mp h
    obtain ⟨rest, hrest, h⟩ := bind_eq_ok.mp h
    obtain rfl := Except.ok.inj h
    rw [List.length_cons, List.length_cons, ih hrest]

/-- **The spans of a log are read back** just if its lines are within the budget, each line of the other records is
stamped, and no block of their lines between two spans is too long or a span itself. -/
theorem spans_recovered (hnesting : 8 ≤ Platform.nesting) (scope : TraceScope) (pieces : List (Piece scope))
    (hbytes : utf8Length (logText pieces) ≤ MAX_LOG_BYTES) (hspans : (emitted pieces).length ≤ MAX_SPANS) :
    (∃ log, parseConsoleLog (encodeUtf8 (logText pieces)) scope = .ok log ∧
      log.spans.map CapturedSpan.span = emitted pieces) ↔
      (textLines pieces).length ≤ MAX_LOG_LINES ∧ Undisturbed scope [] pieces := by
  have hsplit : splitLines [] (logText pieces) = textLines pieces := splitLines_text _
  have hlines := logLines_encodeUtf8 hbytes
  rw [hsplit] at hlines
  have hiff : _ ↔ Undisturbed scope [] pieces := run_iff hnesting (show ({} : Framing).candidate = [] from rfl)
    (show 0 + (emitted pieces).length ≤ MAX_SPANS by omega)
  simp only [List.nil_append, List.map_nil] at hiff
  rw [← hiff]
  constructor
  · rintro ⟨log, hlog, hlogged⟩
    obtain ⟨lines, st, hread, hrun, hparsed⟩ := parseConsoleLog_ok hlog
    rw [hlines] at hread
    split_ifs at hread with hbudget
    rw [(parsedLog_ok hparsed).1] at hlogged
    exact ⟨not_lt.mp hbudget, lines, st, hread, hrun, hlogged⟩
  · rintro ⟨hbudget, lines, st, hread, hrun, hfound⟩
    rw [if_neg (not_lt.mpr hbudget), hread] at hlines
    have hcount : st.spans.length = (emitted pieces).length := by
      rw [← hfound, List.length_map]
    have hbounded : st.spans.length ≤ MAX_SPANS ∧ (encodeUtf8 (logText pieces)).length ≤ MAX_LOG_BYTES ∧
        lines.length ≤ MAX_LOG_LINES :=
      ⟨hcount ▸ hspans, by rwa [Text.length_encodeUtf8], by rwa [length_mapM hread]⟩
    obtain ⟨log, hlog, hlogged⟩ : ∃ log, parsedLog (encodeUtf8 (logText pieces)) lines st = .ok log ∧
        log.spans = st.spans := ⟨_, dif_pos hbounded, rfl⟩
    refine ⟨log, ?_, by rw [hlogged, hfound]⟩
    rw [parseConsoleLog, hlines]
    show (lines.foldlM (frame scope) {} >>= parsedLog _ lines) = _
    rw [hrun]
    exact hlog

end Emissions

/-! ### Two logs -/

attribute [local instance] consolePlatform consoleDatetimes

/-- A record of the sample logs; a text that is printed has no line feeds. -/
def recordOf (text : String) : LogRecord where
  stamp := "2024-01-01T00:00:13Z".toList
  time := seconds 1704067213
  content := text.toList.filter (· != '\n')
  stamped := by decide +kernel
  framed := by simp

/-- A percentage that is printed over itself. -/
def progressLog : List (Piece consoleScope) := [.other (recordOf "10%\r20%") (by decide +kernel)]

/-- **A log that is not read**: the second line of a record has no timestamp of its own. -/
theorem carriage_return : utf8Length (logText progressLog) ≤ MAX_LOG_BYTES ∧
    (progressLog.flatMap Piece.records).length ≤ MAX_LOG_LINES ∧
    ¬∃ log, parseConsoleLog (encodeUtf8 (logText progressLog)) consoleScope = .ok log ∧
      log.spans.map CapturedSpan.span = emitted progressLog := by
  have hbytes : utf8Length (logText progressLog) ≤ MAX_LOG_BYTES := by decide +kernel
  refine ⟨hbytes, by decide, ?_⟩
  rintro ⟨log, hlog, -⟩
  obtain ⟨lines, -, hlines, -⟩ := parseConsoleLog_ok hlog
  have hread : (logLines (encodeUtf8 (logText progressLog))).toOption = none := by
    rw [logLines_encodeUtf8 hbytes]
    decide +kernel
  rw [hlines] at hread
  cases hread

/-- The span of the sample log. -/
def sampleSpan : SourceSpan :=
  ⟨⟨"sandbox.payments", by decide⟩, ⟨"0x0123456789abcdef0123456789abcdef", by decide⟩,
    ⟨"0x0123456789abcdef", by decide⟩, none, .server, seconds 1704067211, seconds 1704067212, .unset,
    ⟨"payops-sandbox-payments", by decide⟩, by decide +kernel⟩

/-- Its JSON. -/
def sampleObject : JsonObject :=
  [("name", .str "sandbox.payments"),
    ("context", .obj [("trace_id", .str "0x0123456789abcdef0123456789abcdef"), ("span_id", .str "0x0123456789abcdef")]),
    ("kind", .str "SpanKind.SERVER"), ("parent_id", .null), ("start_time", .str "2024-01-01T00:00:11.000000Z"),
    ("end_time", .str "2024-01-01T00:00:12.000000Z"), ("status", .obj [("status_code", .str "UNSET")]),
    ("attributes", .obj [("http.status_code", .int 200)]),
    ("resource", .obj [("attributes", .obj [("service.name", .str "payops-sandbox-payments")])])]

/-- The lines of its JSON. -/
def sampleLines : List String :=
  ["\x7b", "    \"name\": \"sandbox.payments\",", "    \"context\": \x7b",
    "        \"trace_id\": \"0x0123456789abcdef0123456789abcdef\",", "        \"span_id\": \"0x0123456789abcdef\"",
    "    \x7d,", "    \"kind\": \"SpanKind.SERVER\",", "    \"parent_id\": null,",
    "    \"start_time\": \"2024-01-01T00:00:11.000000Z\",", "    \"end_time\": \"2024-01-01T00:00:12.000000Z\",",
    "    \"status\": \x7b", "        \"status_code\": \"UNSET\"", "    \x7d,", "    \"attributes\": \x7b",
    "        \"http.status_code\": 200", "    \x7d,", "    \"resource\": \x7b", "        \"attributes\": \x7b",
    "            \"service.name\": \"payops-sandbox-payments\"", "        \x7d", "    \x7d", "\x7d"]

/-- The records of the span. -/
def sampleEmission : Emission consoleScope where
  span := sampleSpan
  object := sampleObject
  indent := 4
  records := sampleLines.map recordOf
  exported := ⟨rfl, ⟨_, rfl, rfl, rfl⟩, rfl, rfl, ⟨_, rfl, by decide +kernel⟩, ⟨_, rfl, by decide +kernel⟩,
    ⟨_, rfl, rfl⟩, ⟨_, _, rfl, rfl, rfl⟩⟩
  printable := by
    have hfield {bound : ℕ} (key value : String) : ∀ f ∈ [(key, Json.str value)], Printable bound f.2 :=
      List.forall_mem_singleton.mpr (.str value)
    have hcode : ∀ f ∈ [("http.status_code", Json.int 200)], Printable 6 f.2 :=
      List.forall_mem_singleton.mpr (.int (by decide))
    refine .obj (by decide) ?_
    simp only [sampleObject, List.forall_mem_cons]
    exact ⟨.str _, .obj (by decide) (List.forall_mem_cons.mpr ⟨.str _, hfield _ _⟩), .str _, .null, .str _, .str _,
      .obj (by decide) (hfield _ _), .obj (by decide) hcode,
      .obj (by decide) (List.forall_mem_singleton.mpr (.obj (by decide) (hfield _ _))), by simp⟩
  isIndented := by decide
  printed := by
    have hcontent : LogRecord.content ∘ recordOf = fun text => text.toList.filter (· != '\n') := rfl
    rw [List.map_map, hcontent]
    -- the characters of the literals are written out before the kernel reads them
    delta sampleLines
    simp only [List.map_cons, List.map_nil]
    repeat rw [String.toList_ofList]
    decide +kernel
  bounded := by decide +kernel
  ordered := by decide +kernel
  ended := by decide +kernel
  service := by decide +kernel
  inScope := by decide +kernel

/-- The span, between two other records. -/
def sampleLog : List (Piece consoleScope) :=
  [.other (recordOf "started \x7b") (by decide +kernel), .span sampleEmission,
    .other (recordOf "\x7d, \"done\"") (by decide +kernel)]

/-- The contents of the sample log. -/
def sampleContents : List String := "started \x7b" :: sampleLines ++ ["\x7d, \"done\""]

/-- The sample log is within the budgets. -/
theorem sample_budgets :
    utf8Length (logText sampleLog) ≤ MAX_LOG_BYTES ∧ (textLines sampleLog).length ≤ MAX_LOG_LINES := by
  have hrecords : sampleLog.flatMap Piece.records = sampleContents.map recordOf := rfl
  have htext : LogRecord.text ∘ recordOf =
      fun content => "2024-01-01T00:00:13Z".toList ++ ' ' :: content.toList.filter (· != '\n') ++ ['\n'] := rfl
  have hlines : LogRecord.lines ∘ recordOf = fun content => splitLines []
      ("2024-01-01T00:00:13Z".toList ++ ' ' :: content.toList.filter (· != '\n') ++ ['\n']) := rfl
  rw [logText, textLines, hrecords, List.flatMap_map, List.flatMap_map]
  constructor
  · show utf8Length (sampleContents.flatMap (LogRecord.text ∘ recordOf)) ≤ MAX_LOG_BYTES
    rw [htext]
    delta sampleContents sampleLines
    simp only [List.cons_append, List.nil_append, List.flatMap_cons, List.flatMap_nil]
    repeat rw [String.toList_ofList]
    decide +kernel
  · show (sampleContents.flatMap (LogRecord.lines ∘ recordOf)).length ≤ MAX_LOG_LINES
    rw [hlines]
    delta sampleContents sampleLines
    simp only [List.cons_append, List.nil_append, List.flatMap_cons, List.flatMap_nil]
    repeat rw [String.toList_ofList]
    decide +kernel

/-- **The span of the sample log** is read back. -/
theorem spans_recovered_sample : ∃ log, parseConsoleLog (encodeUtf8 (logText sampleLog)) consoleScope = .ok log ∧
    log.spans.map CapturedSpan.span = [sampleSpan] := by
  have hplain : ∀ r hr, Piece.other r hr ∈ sampleLog → r.lines = [r.stamp ++ ' ' :: r.content] := by
    intro r hr hmem
    simp only [sampleLog, List.mem_cons, Piece.other.injEq, reduceCtorEq, List.not_mem_nil, or_false, false_or] at hmem
    rcases hmem with rfl | rfl <;> decide +kernel
  exact (spans_recovered le_rfl consoleScope sampleLog sample_budgets.1 (by decide)).mpr
    ⟨sample_budgets.2, undisturbed_plain (by simp) hplain⟩

end PayOps.Evidence.Trace
