import PayOps.Evidence.TraceSpan

/-!
# The census of a console log

What `parse_console_log` counts, and where the spans come from that it returns.

## The model

`Open` says of the lines up to some line whether a candidate is open there, and knows none of the variables of the
loop. `Framed` is the invariant of the loop: it relates the variables to the lines that were read.

## What is proved

* `Framed.step`, `Framed.run` — each line keeps the invariant, and so do all of them.
* `console_census` — **main result**: each opening line and each fragment is counted once, and each span comes from
  consecutive lines of its service.
-/

namespace PayOps.Evidence.Trace

open FileStore (Bytes)
open Text (decodeUtf8 utf8Length)

/-! ### Candidates -/

/-- A candidate is open after these lines: one of them has opened it, and none has closed it since. -/
def Open (before : List (List Char)) : Prop := ∃ a b, before = a ++ opening :: b ∧ closing ∉ b

theorem closing_ne_opening : closing ≠ opening := by decide

/-- The same, line by line. -/
def isOpen (before : List (List Char)) : Bool :=
  before.foldl (fun o line => line == opening || (o && line != closing)) false

@[simp] theorem not_open_nil : ¬Open [] := by
  rintro ⟨a, b, h, -⟩
  simp at h

theorem open_snoc {before : List (List Char)} {line : List Char} :
    Open (before ++ [line]) ↔ line = opening ∨ (Open before ∧ line ≠ closing) := by
  constructor
  · rintro ⟨a, b, h, hb⟩
    rcases List.eq_nil_or_concat b with rfl | ⟨b, last, rfl⟩
    · obtain ⟨-, hlast⟩ := List.append_inj' h rfl
      exact .inl (by simpa using hlast)
    · have hsplit : before ++ [line] = (a ++ opening :: b) ++ [last] := by simpa using h
      obtain ⟨rfl, hlast⟩ := List.append_inj' hsplit rfl
      obtain rfl : line = last := by simpa using hlast
      simp only [List.concat_eq_append, List.mem_append, List.mem_singleton, not_or] at hb
      exact .inr ⟨⟨a, b, rfl, hb.1⟩, Ne.symm hb.2⟩
  · rintro (rfl | ⟨⟨a, b, rfl, hb⟩, hline⟩)
    · exact ⟨before, [], rfl, by simp⟩
    · refine ⟨a, b ++ [line], by simp, ?_⟩
      simp only [List.mem_append, List.mem_singleton, not_or]
      exact ⟨hb, Ne.symm hline⟩

theorem isOpen_iff (before : List (List Char)) : isOpen before = true ↔ Open before := by
  induction before using List.reverseRecOn with
  | nil => simp [isOpen]
  | append_singleton before line ih =>
    have hsnoc : isOpen (before ++ [line]) = (line == opening || (isOpen before && line != closing)) := by
      simp [isOpen]
    rw [hsnoc, open_snoc, ← ih]
    simp

instance : DecidablePred Open := fun before => decidable_of_iff _ (isOpen_iff before)

/-- How many lines outside of the candidates look like a part of a span. -/
def outsideFragments (contents : List (List Char)) : ℕ :=
  (List.range contents.length).countP fun i => !decide (Open (contents.take i)) && contents[i]?.any fragment

theorem outsideFragments_snoc (contents : List (List Char)) (line : List Char) :
    outsideFragments (contents ++ [line]) =
      outsideFragments contents + if ¬Open contents ∧ fragment line = true then 1 else 0 := by
  have hbefore : (List.range contents.length).countP
        (fun i => !decide (Open ((contents ++ [line]).take i)) && (contents ++ [line])[i]?.any fragment) =
      outsideFragments contents := by
    apply List.countP_congr
    intro i hi
    have hlt := List.mem_range.mp hi
    rw [List.take_append_of_le_length hlt.le, List.getElem?_append_left hlt]
  rw [outsideFragments, List.length_append, List.length_singleton, List.range_succ, List.countP_append, hbefore]
  simp [List.countP_cons]

/-- Timestamps are in order with one more, just if they were and the last one is not later. -/
theorem pairwise_snoc {ts : List Time} {t : Time} :
    (ts ++ [t]).Pairwise (· ≤ ·) ↔ ts.Pairwise (· ≤ ·) ∧ ∀ p ∈ ts.getLast?, p ≤ t := by
  rw [List.pairwise_append]
  constructor
  · rintro ⟨hsorted, -, hall⟩
    exact ⟨hsorted, fun p hp => hall p (List.mem_of_mem_getLast? hp) t (by simp)⟩
  · rintro ⟨hsorted, hlast⟩
    refine ⟨hsorted, by simp, fun a ha b hb => ?_⟩
    rw [List.mem_singleton.mp hb]
    rcases List.eq_nil_or_concat ts with rfl | ⟨init, p, rfl⟩
    · cases ha
    · rw [List.concat_eq_append] at ha hsorted hlast
      have hp : p ≤ t := hlast p (by simp)
      rcases List.mem_append.mp ha with ha | ha
      · exact ((List.pairwise_append.mp hsorted).2.2 a ha p (by simp)).trans hp
      · rw [List.mem_singleton.mp ha]
        exact hp

/-! ### The steps of the loop -/

/-- The variables after a line that opens a candidate. -/
def Framing.opened (st : Framing) (line : Line) : Framing :=
  { st with
    partials := st.partials + (if st.candidate = [] then 0 else 1), candidate := [line.2]
    started := some line.1, size := 1, previous := some line.1, invalidTimestamps := false }

/-- The variables after a line outside of candidates. -/
def Framing.passed (st : Framing) (line : Line) : Framing :=
  { st with partials := st.partials + (if fragment line.2 then 1 else 0) }

/-- The variables after a line was added to the candidate. -/
def Framing.added (st : Framing) (line : Line) : Framing :=
  { st with
    candidate := st.candidate ++ [line.2]
    invalidTimestamps := st.invalidTimestamps || st.previous.any (line.1 < ·), previous := some line.1
    size := st.size + (utf8Length line.2 + 1) }

/-- The variables after the candidate was closed. -/
def Framing.cleared (st : Framing) : Framing := { st with candidate := [], started := none, size := 0 }

/-- What the variables of the loop say of a candidate: it was opened at `t`, and `block` was added to it. -/
structure Gathered (st : Framing) (t : Time) (block : List Line) : Prop where
  /-- Its lines. -/
  candidate : st.candidate = opening :: block.map Prod.snd
  /-- When it was opened. -/
  started : st.started = some t
  /-- Its last timestamp. -/
  previous : st.previous = (t :: block.map Prod.fst).getLast?
  /-- Whether its timestamps are in order. -/
  invalid : st.invalidTimestamps = false ↔ (t :: block.map Prod.fst).Pairwise (· ≤ ·)
  /-- How many bytes it has. -/
  size : st.size = 1 + (block.map fun line => utf8Length line.2 + 1).sum

/-- The candidate is opened. -/
theorem Gathered.opened (st : Framing) {line : Line} (h : line.2 = opening) :
    Gathered (st.opened line) line.1 [] where
  candidate := by simp [Framing.opened, h]
  started := rfl
  previous := rfl
  invalid := by simp [Framing.opened]
  size := rfl

/-- One more line. -/
theorem Gathered.added {st : Framing} {t : Time} {block : List Line} (h : Gathered st t block) (line : Line) :
    Gathered (st.added line) t (block ++ [line]) where
  candidate := by simp [Framing.added, h.candidate]
  started := h.started
  previous := by
    rw [List.map_append, ← List.cons_append, List.map_singleton, List.getLast?_concat]
    rfl
  invalid := by
    rw [List.map_append, ← List.cons_append, List.map_singleton, pairwise_snoc, ← h.invalid, ← h.previous]
    simp only [Framing.added, Bool.or_eq_false_iff]
    cases st.previous <;> simp
  size := by
    simp only [Framing.added, h.size, List.map_append, List.map_singleton, List.sum_append, List.sum_singleton]
    omega

/-- The candidate, after these lines. -/
inductive Candidate (lines : List Line) (st : Framing) : Prop where
  /-- There is none. -/
  | none (hclosed : ¬Open (lines.map Prod.snd)) (hcandidate : st.candidate = [])
  /-- It consists of the last lines. -/
  | some {before block : List Line} {t : Time} (hlines : lines = before ++ (t, opening) :: block)
      (hlone : ∀ line ∈ block, line.2 ≠ opening ∧ line.2 ≠ closing) (hgathered : Gathered st t block)

/-- A candidate is open just if there are lines of it. -/
theorem Candidate.open_iff {lines : List Line} {st : Framing} (h : Candidate lines st) :
    Open (lines.map Prod.snd) ↔ st.candidate ≠ [] := by
  cases h with
  | none hclosed hcandidate => simp [hclosed, hcandidate]
  | @some before block t hlines hlone hgathered =>
    simp only [hgathered.candidate, ne_eq, reduceCtorEq, not_false_iff, iff_true]
    refine ⟨before.map Prod.snd, block.map Prod.snd, by simp [hlines], fun hmem => ?_⟩
    obtain ⟨line, hline, hclosing⟩ := List.mem_map.mp hmem
    exact (hlone line hline).2 hclosing

section Steps

variable [Platform] [Datetimes]

/-- **How a candidate ends**: as a span in the interval, as a span outside of it, or as none. -/
theorem closeCandidate_ok {scope : TraceScope} {st st' : Framing} {emitted : Time}
    (h : closeCandidate scope st emitted = .ok st') :
    (∃ captured, capture scope st.invalidTimestamps st.started emitted (joinLines st.candidate) = .ok captured ∧
        scope.contains captured.span = true ∧ st' = { st.cleared with spans := st.spans ++ [captured] }) ∨
      st' = { st.cleared with excluded := st.excluded + 1 } ∨ st' = { st.cleared with malformed := st.malformed + 1 } := by
  unfold closeCandidate at h
  cases hcapture : capture scope st.invalidTimestamps st.started emitted (joinLines st.candidate) with
  | ok captured =>
    simp only [hcapture] at h
    split_ifs at h with hscope hbudget
    · exact .inl ⟨captured, rfl, hscope, (Except.ok.inj h).symm⟩
    · exact .inr (.inl (Except.ok.inj h).symm)
  | error x =>
    simp only [hcapture] at h
    split_ifs at h
    exact .inr (.inr (Except.ok.inj h).symm)

theorem frame_opening {scope : TraceScope} {st : Framing} {line : Line} (h : line.2 = opening) :
    frame scope st line = .ok (st.opened line) := by
  rw [frame, if_pos h]
  rfl

theorem frame_outside {scope : TraceScope} {st : Framing} {line : Line} (h : line.2 ≠ opening)
    (hnone : st.candidate = []) : frame scope st line = .ok (st.passed line) := by
  rw [frame, if_neg h, if_pos hnone]
  rfl

theorem frame_inside {scope : TraceScope} {st : Framing} {line : Line} (h : line.2 ≠ opening)
    (hsome : st.candidate ≠ []) :
    frame scope st line =
      if 8192 < (st.added line).size then .error (.value "span object exceeds byte budget")
      else if line.2 ≠ closing then .ok (st.added line)
      else closeCandidate scope (st.added line) line.1 := by
  rw [frame, if_neg h, if_neg hsome]
  rfl

/-- **What a line does**: it opens a candidate, is outside of one, is added to one, or closes one. -/
theorem frame_ok {scope : TraceScope} {st st' : Framing} {line : Line} (h : frame scope st line = .ok st') :
    (line.2 = opening ∧ st' = st.opened line) ∨
      (line.2 ≠ opening ∧ st.candidate = [] ∧ st' = st.passed line) ∨
      (line.2 ≠ opening ∧ st.candidate ≠ [] ∧ line.2 ≠ closing ∧ st' = st.added line) ∨
      (line.2 ≠ opening ∧ st.candidate ≠ [] ∧ line.2 = closing ∧
        closeCandidate scope (st.added line) line.1 = .ok st') := by
  by_cases hopening : line.2 = opening
  · rw [frame_opening hopening] at h
    exact .inl ⟨hopening, (Except.ok.inj h).symm⟩
  by_cases hnone : st.candidate = []
  · rw [frame_outside hopening hnone] at h
    exact .inr (.inl ⟨hopening, hnone, (Except.ok.inj h).symm⟩)
  · rw [frame_inside hopening hnone] at h
    split_ifs at h with hbudget hclosing
    · exact .inr (.inr (.inl ⟨hopening, hnone, hclosing, (Except.ok.inj h).symm⟩))
    · exact .inr (.inr (.inr ⟨hopening, hnone, not_not.mp hclosing, h⟩))

/-! ### The invariant -/

/-- Where a span comes from: consecutive lines in the order of their timestamps, the text of which is the span. -/
def Recovered (scope : TraceScope) (lines : List Line) (captured : CapturedSpan) : Prop :=
  ∃ before block after, lines = before ++ (captured.logStart, opening) :: block ++
      (captured.logEnd, closing) :: after ∧
    (captured.logStart :: block.map Prod.fst ++ [captured.logEnd]).Pairwise (· ≤ ·) ∧
    project (joinLines (opening :: block.map Prod.snd ++ [closing])) = .ok captured.span ∧
    captured.span.checkService scope.service = .ok () ∧ scope.contains captured.span = true

/-- The invariant of the loop, after these lines. -/
structure Framed (scope : TraceScope) (lines : List Line) (st : Framing) : Prop where
  /-- What was counted. -/
  census : lines.countP (fun line => line.2 == opening) + outsideFragments (lines.map Prod.snd) =
    st.spans.length + st.malformed + st.excluded + (st.partials + if st.candidate = [] then 0 else 1)
  /-- The candidate. -/
  candidate : Candidate lines st
  /-- The spans. -/
  spans : ∀ captured ∈ st.spans, Recovered scope lines captured

theorem Framed.init (scope : TraceScope) : Framed scope [] {} where
  census := by simp [outsideFragments]
  candidate := .none (by simp) rfl
  spans := by simp

theorem Recovered.snoc {scope : TraceScope} {lines : List Line} {captured : CapturedSpan}
    (h : Recovered scope lines captured) (line : Line) : Recovered scope (lines ++ [line]) captured := by
  obtain ⟨before, block, after, rfl, hrest⟩ := h
  exact ⟨before, block, after ++ [line], by simp, hrest⟩

/-- **What was captured** has passed all checks. -/
theorem capture_ok {scope : TraceScope} {invalid : Bool} {started : Option Time} {emitted : Time} {text : List Char}
    {captured : CapturedSpan} (h : capture scope invalid started emitted text = .ok captured) :
    invalid = false ∧ depthScan 0 false false text = .ok () ∧ project text = .ok captured.span ∧
      captured.span.checkService scope.service = .ok () ∧ started = some captured.logStart ∧
      captured.logEnd = emitted := by
  unfold capture at h
  cases invalid with
  | true => cases h
  | false =>
    obtain ⟨⟨⟩, hdepth, h⟩ := bind_eq_ok.mp h
    obtain ⟨span, hproject, h⟩ := bind_eq_ok.mp h
    obtain ⟨⟨⟩, hservice, h⟩ := bind_eq_ok.mp h
    cases started with
    | none => cases h
    | some started =>
      simp only [CapturedSpan.validate] at h
      split_ifs at h
      obtain rfl := Except.ok.inj h
      exact ⟨rfl, hdepth, hproject, hservice, rfl, rfl⟩

/-- **A candidate that is captured** is recovered from its lines. -/
theorem Gathered.recovered {scope : TraceScope} {st : Framing} {t : Time} {before block : List Line} {line : Line}
    {captured : CapturedSpan} (h : Gathered st t block) (hclosing : line.2 = closing)
    (hcapture : capture scope (st.added line).invalidTimestamps (st.added line).started line.1
      (joinLines (st.added line).candidate) = .ok captured) (hscope : scope.contains captured.span = true) :
    Recovered scope (before ++ (t, opening) :: block ++ [line]) captured := by
  have hadded := h.added line
  obtain ⟨hinvalid, -, hproject, hservice, hstarted, hend⟩ := capture_ok hcapture
  obtain rfl : t = captured.logStart := Option.some.inj (hadded.started.symm.trans hstarted)
  have hsorted := hadded.invalid.mp hinvalid
  rw [hadded.candidate] at hproject
  refine ⟨before, block, [], ?_, ?_, ?_, hservice, hscope⟩
  · rw [hend, ← hclosing]
  · simpa [hend] using hsorted
  · simpa [hclosing] using hproject

/-- **Each line keeps the invariant.** -/
theorem Framed.step {scope : TraceScope} {lines : List Line} {st st' : Framing} {line : Line}
    (h : Framed scope lines st) (hstep : frame scope st line = .ok st') : Framed scope (lines ++ [line]) st' := by
  have hcensus := h.census
  have hopen := h.candidate.open_iff
  have hspans : ∀ captured ∈ st.spans, Recovered scope (lines ++ [line]) captured :=
    fun captured hcaptured => (h.spans captured hcaptured).snoc line
  have hclosed (hclosing : line.2 = closing) :
      ¬Open ((lines ++ [line]).map Prod.snd) := by
    rw [List.map_append, List.map_singleton, open_snoc]
    simp [hclosing, closing_ne_opening]
  rcases frame_ok hstep with ⟨hopening, rfl⟩ | ⟨hopening, hnone, rfl⟩ | ⟨hopening, hsome, hclosing, rfl⟩ |
    ⟨hopening, hsome, hclosing, hclose⟩
  · -- a candidate that was open is a partial one
    have hfragment : fragment opening = false := by decide
    refine ⟨?_, @Candidate.some _ _ lines [] line.1 ?_ (by simp) (.opened st hopening), hspans⟩
    · simp [outsideFragments_snoc, hopening, hfragment, Framing.opened]
      omega
    · rw [← hopening]
  · have hnot : ¬Open (lines.map Prod.snd) := by simp [hopen, hnone]
    refine ⟨?_, .none ?_ hnone, hspans⟩
    · simp only [hnone, if_true] at hcensus
      simp [outsideFragments_snoc, hopening, hnot, Framing.passed, hnone]
      omega
    · rw [List.map_append, List.map_singleton, open_snoc]
      simp [hopening, hnot]
  · have hyes := hopen.mpr hsome
    cases h.candidate with
    | none _ hcandidate => exact absurd hcandidate hsome
    | @some before block t hlines hlone hgathered =>
      refine ⟨?_, @Candidate.some _ _ before (block ++ [line]) t (by simp [hlines]) ?_
        (hgathered.added line), hspans⟩
      · simp only [hsome, if_false] at hcensus
        simp [outsideFragments_snoc, hopening, hyes, Framing.added]
        omega
      · intro other hother
        rcases List.mem_append.mp hother with hother | hother
        · exact hlone other hother
        · rw [List.mem_singleton.mp hother]
          exact ⟨hopening, hclosing⟩
  · have hyes := hopen.mpr hsome
    simp only [hsome, if_false] at hcensus
    cases h.candidate with
    | none _ hcandidate => exact absurd hcandidate hsome
    | @some before block t hlines hlone hgathered =>
      rcases closeCandidate_ok hclose with ⟨captured, hcapture, hscope, rfl⟩ | rfl | rfl
      · refine ⟨?_, .none (hclosed hclosing) rfl, fun other hother => ?_⟩
        · simp [outsideFragments_snoc, hopening, hyes, Framing.cleared, Framing.added]
          omega
        · rcases List.mem_append.mp hother with hother | hother
          · exact hspans other hother
          · rw [List.mem_singleton.mp hother, hlines]
            exact hgathered.recovered hclosing hcapture hscope
      · refine ⟨?_, .none (hclosed hclosing) rfl, hspans⟩
        simp [outsideFragments_snoc, hopening, hyes, Framing.cleared, Framing.added]
        omega
      · refine ⟨?_, .none (hclosed hclosing) rfl, hspans⟩
        simp [outsideFragments_snoc, hopening, hyes, Framing.cleared, Framing.added]
        omega

/-- **All lines keep the invariant.** -/
theorem Framed.run {scope : TraceScope} {past lines : List Line} {st st' : Framing} (h : Framed scope past st)
    (hrun : lines.foldlM (frame scope) st = .ok st') : Framed scope (past ++ lines) st' := by
  induction lines generalizing past st with
  | nil =>
    obtain rfl : st = st' := by simpa [pure, Except.pure] using hrun
    simpa using h
  | cons line lines ih =>
    rw [List.foldlM_cons] at hrun
    obtain ⟨next, hstep, hrest⟩ := bind_eq_ok.mp hrun
    simpa using ih (h.step hstep) hrest

omit [Platform] [Datetimes] in
/-- What is returned of the variables. -/
theorem parsedLog_ok {raw : Bytes} {lines : List Line} {st : Framing} {log : ParsedLog}
    (h : parsedLog raw lines st = .ok log) :
    log.spans = st.spans ∧ log.malformedCandidates = st.malformed ∧ log.excludedSpans = st.excluded ∧
      log.partialCandidates = st.partials + if st.candidate = [] then 0 else 1 := by
  unfold parsedLog at h
  by_cases hbounded : st.spans.length ≤ MAX_SPANS ∧ raw.length ≤ MAX_LOG_BYTES ∧ lines.length ≤ MAX_LOG_LINES
  · rw [dif_pos hbounded] at h
    obtain rfl := Except.ok.inj h
    exact ⟨rfl, rfl, rfl, rfl⟩
  · rw [dif_neg hbounded] at h
    cases h

/-- What is returned was read line by line. -/
theorem parseConsoleLog_ok {raw : Bytes} {scope : TraceScope} {log : ParsedLog}
    (h : parseConsoleLog raw scope = .ok log) :
    ∃ lines st, logLines raw = .ok lines ∧ lines.foldlM (frame scope) {} = .ok st ∧
      parsedLog raw lines st = .ok log := by
  obtain ⟨lines, hlines, h⟩ := bind_eq_ok.mp h
  obtain ⟨st, hrun, h⟩ := bind_eq_ok.mp h
  exact ⟨lines, st, hlines, hrun, h⟩

/-- **The census of a console log.** The opening lines and the fragments outside of candidates are the spans, the
candidates that are none, those outside of the interval and the partial ones. Each span is one of the service, in the
interval, ends before its first timestamp, and comes from consecutive lines whose timestamps are in order. -/
theorem console_census (raw : Bytes) (scope : TraceScope) (log : ParsedLog)
    (h : parseConsoleLog raw scope = .ok log) :
    ∃ lines, logLines raw = .ok lines ∧
      lines.countP (fun line => line.2 == opening) + outsideFragments (lines.map Prod.snd) =
        log.spans.length + log.malformedCandidates + log.excludedSpans + log.partialCandidates ∧
      ∀ captured ∈ log.spans, Recovered scope lines captured ∧
        captured.span.serviceName.val = "payops-sandbox-" ++ ROLES scope.service ∧
        (expectedKinds scope.service).lookup captured.span.name.val = some captured.span.kind ∧
        scope.start ≤ captured.span.startTime ∧ captured.span.startTime ≤ captured.span.endTime ∧
        captured.span.endTime ≤ scope.finish ∧ captured.span.endTime ≤ captured.logStart := by
  obtain ⟨lines, st, hlines, hrun, hlog⟩ := parseConsoleLog_ok h
  have hframed := (Framed.init scope).run hrun
  rw [List.nil_append] at hframed
  obtain ⟨hspans, hmalformed, hexcluded, hpartial⟩ := parsedLog_ok hlog
  refine ⟨lines, hlines, by rw [hspans, hmalformed, hexcluded, hpartial, hframed.census], fun captured hcaptured => ?_⟩
  rw [hspans] at hcaptured
  have hrecovered := hframed.spans captured hcaptured
  obtain ⟨-, -, -, -, -, -, hservice, hscope⟩ := hrecovered
  unfold SourceSpan.checkService at hservice
  split_ifs at hservice with hdisagrees
  simp only [not_or, not_not] at hdisagrees
  simp only [TraceScope.contains, Bool.and_eq_true, decide_eq_true_iff] at hscope
  exact ⟨hframed.spans captured hcaptured, hdisagrees.1, hdisagrees.2, hscope.1.1, hscope.1.2, hscope.2,
    captured.ordered.1⟩

end Steps

/-! ### A log -/

/-- What is read of a text. -/
theorem logLines_encodeUtf8 {text : List Char} (hbytes : utf8Length text ≤ MAX_LOG_BYTES) :
    logLines (Text.encodeUtf8 text) =
      if MAX_LOG_LINES < (splitLines [] text).length then .error (.value "trace log exceeds line budget")
      else (splitLines [] text).mapM stampedLine := by
  rw [logLines, Text.length_encodeUtf8, if_neg (not_lt.mpr hbytes), Text.decodeUtf8_encodeUtf8]

/-- A platform for the sample log. -/
@[reducible] def consolePlatform : Platform where
  sha256 text := text
  patternWord _ := false
  reWord _ := false
  nesting := 8
  floatRepr text := text

/-- The exporter writes datetimes as the kubelet does. -/
@[reducible] def consoleDatetimes : Datetimes where
  strict text := LOG_STAMP text.toList
  lax value := value.asStr.bind fun text => LOG_STAMP text.toList

attribute [local instance] consolePlatform consoleDatetimes

/-- The scope of the sample log. -/
def consoleScope : TraceScope :=
  ⟨⟨"i1", by decide⟩, .paymentsApi, seconds 1704067200, seconds 1704067260, by decide⟩

/-- A span, and an end without a beginning. -/
def consoleText : List Char :=
  ["\x7b", "\"name\": \"sandbox.payments\", \"parent_id\": null, \"kind\": \"SpanKind.SERVER\",",
    "\"context\": \x7b\"trace_id\": \"0x0123456789abcdef0123456789abcdef\", \"span_id\": \"0x0123456789abcdef\"\x7d,",
    "\"start_time\": \"2024-01-01T00:00:11Z\", \"end_time\": \"2024-01-01T00:00:12Z\",",
    "\"status\": \x7b\"status_code\": \"UNSET\"\x7d,",
    "\"resource\": \x7b\"attributes\": \x7b\"service.name\": \"payops-sandbox-payments\"\x7d\x7d", "\x7d",
    "\x7d"].flatMap fun content => ("2024-01-01T00:00:13Z " ++ content ++ "\n").toList

theorem toOption_ok {α : Type} {r : Except Fault α} {a : α} (h : r.toOption = some a) : r = .ok a := by
  cases r with
  | error x => cases h
  | ok b => exact congrArg Except.ok (Option.some.inj h)

/-- **What is parsed** of a text, by what is counted of its framing. -/
theorem parseConsoleLog_of {text : List Char} {scope : TraceScope} {spans partials count : ℕ}
    (hbytes : utf8Length text ≤ MAX_LOG_BYTES) (hlines : (splitLines [] text).length ≤ MAX_LOG_LINES)
    (hframed : (((splitLines [] text).mapM stampedLine).toOption.bind fun lines =>
      (lines.foldlM (frame scope) {}).toOption.map fun st =>
        (st.spans.length, st.partials, st.candidate == [], lines.length)) = some (spans, partials, true, count))
    (hbounds : spans ≤ MAX_SPANS ∧ count ≤ MAX_LOG_LINES) :
    ∃ log, parseConsoleLog (Text.encodeUtf8 text) scope = .ok log ∧ log.spans.length = spans ∧
      log.partialCandidates = partials := by
  obtain ⟨lines, hread, hframed⟩ := Option.bind_eq_some_iff.mp hframed
  obtain ⟨st, hst, hcounted⟩ := Option.map_eq_some_iff.mp hframed
  simp only [Prod.mk.injEq, beq_iff_eq] at hcounted
  obtain ⟨rfl, rfl, hcandidate, rfl⟩ := hcounted
  have hlog : logLines (Text.encodeUtf8 text) = .ok lines := by
    rw [logLines_encodeUtf8 hbytes, if_neg (not_lt.mpr hlines)]
    exact toOption_ok hread
  have hraw : (Text.encodeUtf8 text).length ≤ MAX_LOG_BYTES := by
    rw [Text.length_encodeUtf8]
    exact hbytes
  refine ⟨_, bind_eq_ok.mpr ⟨lines, hlog, bind_eq_ok.mpr ⟨st, toOption_ok hst,
    dif_pos ⟨hbounds.1, hraw, hbounds.2⟩⟩⟩, rfl, ?_⟩
  rw [if_pos hcandidate, Nat.add_zero]

/-- The sizes of the sample log. -/
theorem consoleText_small :
    utf8Length consoleText ≤ MAX_LOG_BYTES ∧ (splitLines [] consoleText).length ≤ MAX_LOG_LINES := by
  delta consoleText
  simp only [List.flatMap_cons, List.flatMap_nil, String.toList_append]
  -- the characters of the literals are written out before the kernel reads them
  repeat rw [String.toList_ofList]
  decide +kernel

/-- What is counted of the framing of the sample log. -/
theorem consoleText_framed : (((splitLines [] consoleText).mapM stampedLine).toOption.bind fun lines =>
    (lines.foldlM (frame consoleScope) {}).toOption.map fun st =>
      (st.spans.length, st.partials, st.candidate == [], lines.length)) = some (1, 1, true, 8) := by
  delta consoleText
  simp only [List.flatMap_cons, List.flatMap_nil, String.toList_append]
  repeat rw [String.toList_ofList]
  decide +kernel

/-- The census of the sample log: one span, and one partial candidate. -/
theorem console_census_sample :
    ∃ log, parseConsoleLog (Text.encodeUtf8 consoleText) consoleScope = .ok log ∧
      (log.spans.length, log.partialCandidates) = (1, 1) ∧
      ∃ lines, logLines (Text.encodeUtf8 consoleText) = .ok lines ∧
        lines.countP (fun line => line.2 == opening) + outsideFragments (lines.map Prod.snd) =
          log.spans.length + log.malformedCandidates + log.excludedSpans + log.partialCandidates := by
  obtain ⟨log, hlog, hspans, hpartials⟩ :=
    parseConsoleLog_of consoleText_small.1 consoleText_small.2 consoleText_framed (by decide)
  obtain ⟨lines, hlines, hcensus, -⟩ := console_census _ _ log hlog
  exact ⟨log, hlog, by rw [hspans, hpartials], lines, hlines, hcensus⟩

end PayOps.Evidence.Trace
