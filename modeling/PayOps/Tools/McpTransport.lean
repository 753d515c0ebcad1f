import PayOps.Evidence.FileStore
import PayOps.Faults
import PayOps.JsonText

/-!
# The wire of the MCP server

`_BoundedPipe.reader` and `_BoundedPipe._deliver_lines` of `payops.tools.mcp_transport`: the bytes that a server
writes arrive in chunks, and each of their lines is a message.

## The model

`reader` takes the chunks up to the end of the stream. A `Pipe` holds the variables of the pipe and the messages that
were sent to the SDK. `session` says what is read of a stream, and knows no chunks: it takes the stream line by line.

## What is proved

* `deliverLines_spec` — what is left to read after the complete lines of the buffer were delivered.
* `reader_session` — the reader reads of its chunks what is read of the stream.
* `framing_chunks` — **main result**: the chunks do not matter, and of the lines the short ones are messages.

## Honest scope

The consumer receives what is sent to it; a pipe whose streams its host closes is left out.
-/

namespace PayOps.Tools.McpTransport

open Evidence.FileStore (Bytes)

/-- What `json.loads` and the SDK make of a frame. -/
class Wire (M : Type) where
  /-- The text of a frame, as `json.loads` decodes it. -/
  decode : Bytes → Option (List Char)
  /-- `mcp_types.jsonrpc_message_adapter.validate_python(value, by_name=False)`. -/
  validate : Json → Option M

/-- `MAX_FRAME`. -/
def MAX_FRAME : ℕ := 270336

/-- `MAX_SESSION_BYTES`. -/
def MAX_SESSION_BYTES : ℕ := 8388608

/-- `MAX_SESSION_MESSAGES`. -/
def MAX_SESSION_MESSAGES : ℕ := 1024

/-- `b"\n"`. -/
def NEWLINE : UInt8 := 10

/-- `_BoundedPipe.failure`. -/
inductive Failure where
  /-- `OSError("MCP server closed")`. -/
  | closed
  /-- `OSError("MCP truncated frame")`. -/
  | truncated
  /-- `OSError("MCP invalid or oversized wire data")`. -/
  | invalid
  deriving DecidableEq

/-- `_BoundedPipe`, with the buffer of its reader. -/
structure Pipe (M : Type) where
  /-- `buffer`. -/
  buffer : Bytes := []
  /-- `total_bytes`. -/
  totalBytes : ℕ := 0
  /-- `messages`. -/
  messages : ℕ := 0
  /-- What was sent to `output`. -/
  output : List M := []

section Reader

variable {M : Type} [Platform] [Wire M]

/-- The message of a frame; none where `json.loads` or the SDK raises. -/
def parse (frame : Bytes) : Option M :=
  (Wire.decode M frame).bind fun text => (Json.loads text).bind Wire.validate

/-- `_deliver_lines`, and what it raises. -/
def deliverLines (pipe : Pipe M) : Pipe M × Option Fault :=
  match _hnewline : pipe.buffer.findIdx? (· == NEWLINE) with
  | none => (pipe, none)
  | some newline =>
    let counted := { pipe with messages := pipe.messages + 1 }
    if MAX_FRAME < newline ∨ MAX_SESSION_MESSAGES < counted.messages then
      (counted, some (.os "MCP wire frame budget exceeded"))
    else
      let cut := { counted with buffer := pipe.buffer.drop (newline + 1) }
      match parse (pipe.buffer.take newline) with
      | none => (cut, some (.value "invalid MCP frame"))
      | some message => deliverLines { cut with output := cut.output ++ [message] }
termination_by pipe.buffer.length
decreasing_by
  have hlt := (List.findIdx?_eq_some_iff_getElem.mp _hnewline).1
  simp only [List.length_drop]
  omega

/-- `reader`, of the chunks up to the end of the stream. -/
def reader (pipe : Pipe M) : List Bytes → Pipe M × Failure
  | [] => (pipe, if pipe.buffer = [] then .closed else .truncated)
  | chunk :: chunks =>
    let counted := { pipe with totalBytes := pipe.totalBytes + chunk.length }
    if MAX_SESSION_BYTES < counted.totalBytes then (counted, .invalid)
    else
      match deliverLines { counted with buffer := counted.buffer ++ chunk } with
      | (pipe, some _) => (pipe, .invalid)
      | (pipe, none) => if MAX_FRAME < pipe.buffer.length then (pipe, .invalid) else reader pipe chunks

/-! ### A stream without chunks -/

/-- What is read of a stream after `count` messages, from its lines. The last one is what follows the last newline. -/
def session (count : ℕ) : List Bytes → List M × Failure
  | [] => ([], .closed)
  | [rest] => ([], if MAX_FRAME < rest.length then .invalid else if rest = [] then .closed else .truncated)
  | frame :: line :: lines =>
    if MAX_FRAME < frame.length ∨ MAX_SESSION_MESSAGES ≤ count then ([], .invalid)
    else
      match parse frame with
      | none => ([], .invalid)
      | some message => ((session (count + 1) (line :: lines)).1.cons message, (session (count + 1) (line :: lines)).2)

/-- What a pipe makes of the bytes that follow those in its buffer. -/
def Pipe.resume (pipe : Pipe M) (stream : Bytes) : List M × Failure :=
  let (messages, failure) := session pipe.messages ((pipe.buffer ++ stream).splitOn NEWLINE)
  (pipe.output ++ messages, failure)

/-- The frames of a stream: its lines, each of them ended by a newline. -/
def frames (stream : Bytes) : List Bytes := (stream.splitOn NEWLINE).dropLast

omit [Platform] in
/-- The frame that `find` has found. -/
theorem find_newline {buffer : Bytes} {newline : ℕ} (h : buffer.findIdx? (· == NEWLINE) = some newline) :
    buffer = buffer.take newline ++ NEWLINE :: buffer.drop (newline + 1) ∧ NEWLINE ∉ buffer.take newline ∧
      (buffer.take newline).length = newline := by
  obtain ⟨hlt, hfound, hbefore⟩ := List.findIdx?_eq_some_iff_getElem.mp h
  refine ⟨?_, fun hmem => ?_, by simp; omega⟩
  · rw [← beq_iff_eq.mp hfound, List.getElem_cons_drop, List.take_append_drop]
  · obtain ⟨i, hi, hget⟩ := List.getElem_of_mem hmem
    simp only [List.length_take, lt_min_iff] at hi
    exact hbefore i hi.1 (by simpa using hget)

omit [Platform] in
/-- A frame is cut off the stream. -/
theorem splitOn_frame {frame : Bytes} (h : NEWLINE ∉ frame) (stream : Bytes) :
    ∃ line lines, stream.splitOn NEWLINE = line :: lines ∧
      (frame ++ NEWLINE :: stream).splitOn NEWLINE = frame :: line :: lines := by
  obtain ⟨line, lines, hlines⟩ := List.exists_cons_of_ne_nil (List.splitOn_ne_nil NEWLINE stream)
  exact ⟨line, lines, hlines, by rw [List.splitOn_append_cons_self_of_not_mem h, hlines]⟩

theorem deliverLines_none {pipe : Pipe M} (h : pipe.buffer.findIdx? (· == NEWLINE) = none) :
    deliverLines pipe = (pipe, none) := by
  unfold deliverLines
  split
  · rfl
  · rename_i newline hnewline
    exact absurd (h.symm.trans hnewline) (by simp)

theorem deliverLines_some {pipe : Pipe M} {newline : ℕ}
    (h : pipe.buffer.findIdx? (· == NEWLINE) = some newline) :
    deliverLines pipe =
      if MAX_FRAME < newline ∨ MAX_SESSION_MESSAGES < pipe.messages + 1 then
        ({ pipe with messages := pipe.messages + 1 }, some (.os "MCP wire frame budget exceeded"))
      else
        let cut := { pipe with messages := pipe.messages + 1, buffer := pipe.buffer.drop (newline + 1) }
        match parse (pipe.buffer.take newline) with
        | none => (cut, some (.value "invalid MCP frame"))
        | some message => deliverLines { cut with output := cut.output ++ [message] } := by
  conv_lhs => unfold deliverLines
  split
  · rename_i hnewline
    exact absurd (h.symm.trans hnewline) (by simp)
  · rename_i newline' hnewline
    obtain rfl : newline' = newline := Option.some.inj (hnewline.symm.trans h)
    rfl

/-- The first step of a session, at a frame in the buffer. -/
theorem resume_frame {pipe : Pipe M} {newline : ℕ}
    (h : pipe.buffer.findIdx? (· == NEWLINE) = some newline) (stream : Bytes) :
    pipe.resume stream =
      if MAX_FRAME < newline ∨ MAX_SESSION_MESSAGES < pipe.messages + 1 then (pipe.output, .invalid)
      else
        match parse (pipe.buffer.take newline) with
        | none => (pipe.output, .invalid)
        | some message =>
          ({ pipe with messages := pipe.messages + 1, buffer := pipe.buffer.drop (newline + 1),
                       output := pipe.output ++ [message] } : Pipe M).resume stream := by
  obtain ⟨hsplit, hnot, hlen⟩ := find_newline h
  obtain ⟨line, lines, hrest, hlines⟩ := splitOn_frame hnot (pipe.buffer.drop (newline + 1) ++ stream)
  have hstream : pipe.buffer ++ stream =
      pipe.buffer.take newline ++ NEWLINE :: (pipe.buffer.drop (newline + 1) ++ stream) := by
    conv_lhs => rw [hsplit]
    simp
  simp only [Pipe.resume, hstream, hlines, hrest, session, hlen, Nat.lt_succ_iff]
  split_ifs with hbudget
  · simp
  · cases parse (M := M) (pipe.buffer.take newline) with
    | none => simp
    | some message => simp

/-- **What `_deliver_lines` has read**, and what it leaves to be read. -/
theorem deliverLines_spec (pipe : Pipe M) (stream : Bytes) :
    ((deliverLines pipe).2 = none ∧ NEWLINE ∉ (deliverLines pipe).1.buffer ∧
        (deliverLines pipe).1.totalBytes = pipe.totalBytes ∧
        pipe.resume stream = (deliverLines pipe).1.resume stream) ∨
      ((∃ fault, (deliverLines pipe).2 = some fault) ∧
        pipe.resume stream = ((deliverLines pipe).1.output, .invalid)) := by
  induction hsize : pipe.buffer.length using Nat.strong_induction_on generalizing pipe with
  | _ size ih =>
    cases hnewline : pipe.buffer.findIdx? (· == NEWLINE) with
    | none =>
      rw [deliverLines_none hnewline]
      refine .inl ⟨rfl, fun hmem => ?_, rfl, rfl⟩
      simpa using List.findIdx?_eq_none_iff.mp hnewline _ hmem
    | some newline =>
      rw [deliverLines_some hnewline, resume_frame hnewline]
      split_ifs with hbudget
      · exact .inr ⟨⟨_, rfl⟩, rfl⟩
      · cases hparse : parse (M := M) (pipe.buffer.take newline) with
        | none => exact .inr ⟨⟨_, rfl⟩, rfl⟩
        | some message =>
          have hlt := (List.findIdx?_eq_some_iff_getElem.mp hnewline).1
          refine ih _ ?_ _ rfl
          simp only [List.length_drop]
          omega

/-- A line that is too long ends a session, wherever it ends. -/
theorem resume_oversized {pipe : Pipe M} (hnot : NEWLINE ∉ pipe.buffer) (hlong : MAX_FRAME < pipe.buffer.length)
    (stream : Bytes) : pipe.resume stream = (pipe.output, .invalid) := by
  by_cases hmem : NEWLINE ∈ stream
  · obtain ⟨pre, post, rfl, hpre⟩ := List.eq_append_cons_of_mem hmem
    have hline : NEWLINE ∉ pipe.buffer ++ pre := by simp [hnot, hpre]
    obtain ⟨line, lines, -, hlines⟩ := splitOn_frame hline post
    have hframe : MAX_FRAME < (pipe.buffer ++ pre).length := by
      rw [List.length_append]
      omega
    rw [List.append_assoc] at hlines
    simp only [Pipe.resume, hlines, session, hframe, true_or, if_true, List.append_nil]
  · have hframe : MAX_FRAME < (pipe.buffer ++ stream).length := by
      rw [List.length_append]
      omega
    have hline : NEWLINE ∉ pipe.buffer ++ stream := by simp [hnot, hmem]
    simp only [Pipe.resume, List.splitOn_eq_singleton hline, session, hframe, if_true, List.append_nil]

/-- **The reader reads of its chunks what is read of the stream**, of which it holds a part of a line. -/
theorem reader_session (pipe : Pipe M) (chunks : List Bytes) (hnot : NEWLINE ∉ pipe.buffer)
    (hshort : pipe.buffer.length ≤ MAX_FRAME)
    (hbytes : pipe.totalBytes + chunks.flatten.length ≤ MAX_SESSION_BYTES) :
    ((reader pipe chunks).1.output, (reader pipe chunks).2) = pipe.resume chunks.flatten := by
  induction chunks generalizing pipe with
  | nil =>
    simp only [reader, Pipe.resume, List.flatten_nil, List.append_nil, List.splitOn_eq_singleton hnot, session,
      not_lt.mpr hshort, if_false]
  | cons chunk chunks ih =>
    rw [List.flatten_cons, List.length_append] at hbytes
    have hbudget : ¬MAX_SESSION_BYTES < pipe.totalBytes + chunk.length := by omega
    have hchunk : pipe.resume (chunk :: chunks).flatten =
        ({ pipe with totalBytes := pipe.totalBytes + chunk.length, buffer := pipe.buffer ++ chunk } :
          Pipe M).resume chunks.flatten := by
      simp [Pipe.resume]
    rw [hchunk]
    have hspec := deliverLines_spec ({ pipe with
      totalBytes := pipe.totalBytes + chunk.length, buffer := pipe.buffer ++ chunk } : Pipe M) chunks.flatten
    simp only [reader, hbudget, if_false]
    generalize deliverLines (M := M) _ = delivered at hspec ⊢
    obtain ⟨pipe', fault⟩ := delivered
    rcases hspec with ⟨hfault, hnot', htotal, hresume⟩ | ⟨⟨fault', hfault⟩, hresume⟩
    · simp only at hfault htotal hnot' hresume
      subst hfault
      rw [hresume]
      dsimp only
      split_ifs with hlong
      · rw [resume_oversized hnot' hlong]
      · exact ih pipe' hnot' (not_lt.mp hlong) (by omega)
    · simp only at hfault hresume
      subst hfault
      rw [hresume]

/-- The frames up to one of them are messages: it is delivered. -/
theorem session_delivers (count k : ℕ) (lines : List Bytes) {frame : Bytes} (hframe : lines.dropLast[k]? = some frame)
    (hgood : ∀ f ∈ lines.dropLast.take (k + 1), f.length ≤ MAX_FRAME ∧ (parse (M := M) f).isSome)
    (hbudget : count + k < MAX_SESSION_MESSAGES) :
    (session (M := M) count lines).1[k]? = parse frame := by
  induction lines generalizing count k with
  | nil => simp at hframe
  | cons first lines ih =>
    cases lines with
    | nil => simp at hframe
    | cons line lines =>
      simp only [List.dropLast_cons_cons] at hframe hgood
      obtain ⟨hshort, hparse⟩ := hgood first (by simp)
      obtain ⟨message, hmessage⟩ := Option.isSome_iff_exists.mp hparse
      have hfits : ¬(MAX_FRAME < first.length ∨ MAX_SESSION_MESSAGES ≤ count) := by omega
      simp only [session, hfits, if_false, hmessage]
      cases k with
      | zero =>
        obtain rfl : first = frame := by simpa using hframe
        simp [hmessage]
      | succ k =>
        simp only [List.getElem?_cons_succ] at hframe ⊢
        apply ih (count + 1) k hframe
        · intro f hf
          exact hgood f (by simp [hf])
        · omega

/-- A message that is delivered is that of a frame which is not too long. -/
theorem session_delivered (count k : ℕ) (lines : List Bytes) {message : M}
    (h : (session count lines).1[k]? = some message) :
    ∃ frame, lines.dropLast[k]? = some frame ∧ frame.length ≤ MAX_FRAME ∧ parse frame = some message := by
  induction lines generalizing count k with
  | nil => simp [session] at h
  | cons first lines ih =>
    cases lines with
    | nil => simp [session] at h
    | cons line lines =>
      simp only [session] at h
      split_ifs at h with hbudget
      · simp at h
      · cases hmessage : parse (M := M) first with
        | none => simp [hmessage] at h
        | some message' =>
          simp only [hmessage] at h
          cases k with
          | zero =>
            obtain rfl : message' = message := by simpa using h
            exact ⟨first, by simp, by omega, hmessage⟩
          | succ k =>
            obtain ⟨frame, hframe, hrest⟩ := ih (count + 1) k (by simpa using h)
            exact ⟨frame, by simpa using hframe, hrest⟩

/-- What a pipe has read when its reader ends: the messages it delivered, and its failure. -/
def received (chunks : List Bytes) : List M × Failure :=
  ((reader ({} : Pipe M) chunks).1.output, (reader ({} : Pipe M) chunks).2)

/-- **The framing does not depend on the chunks.** Two readers of one stream deliver the same messages and fail in the
same way. A frame is delivered if it is not too long, and those before it were delivered; one that is too long is never
delivered. -/
theorem framing_chunks (stream : Bytes) (hstream : stream.length ≤ MAX_SESSION_BYTES) (chunks chunks' : List Bytes)
    (hchunks : chunks.flatten = stream) (hchunks' : chunks'.flatten = stream) :
    received (M := M) chunks = received chunks' ∧
      received (M := M) chunks = session 0 (stream.splitOn NEWLINE) ∧
      (∀ k frame, (frames stream)[k]? = some frame →
        (∀ f ∈ (frames stream).take (k + 1), f.length ≤ MAX_FRAME ∧ (parse (M := M) f).isSome) →
        k < MAX_SESSION_MESSAGES → (received (M := M) chunks).1[k]? = parse frame) ∧
      ∀ (k : ℕ) (message : M), (received chunks).1[k]? = some message →
        ∃ frame, (frames stream)[k]? = some frame ∧ frame.length ≤ MAX_FRAME ∧ parse frame = some message := by
  have hreader : ∀ parts : List Bytes, parts.flatten = stream →
      received (M := M) parts = session 0 (stream.splitOn NEWLINE) := by
    rintro parts rfl
    have h := reader_session ({} : Pipe M) parts (by simp) (by simp) (by simpa using hstream)
    simpa [received, Pipe.resume] using h
  refine ⟨(hreader chunks hchunks).trans (hreader chunks' hchunks').symm, hreader chunks hchunks, ?_, ?_⟩
  · intro k frame hframe hgood hbudget
    rw [hreader chunks hchunks]
    exact session_delivers 0 k _ hframe hgood (by omega)
  · intro k message hmessage
    rw [hreader chunks hchunks] at hmessage
    exact session_delivered 0 k _ hmessage

end Reader

/-! ### A session -/

/-- A platform for the sample session. -/
@[reducible] def wirePlatform : Platform where
  sha256 text := text
  patternWord _ := false
  reWord _ := false
  nesting := 8
  floatRepr text := text

/-- A wire on which every JSON text in ASCII is a message. -/
@[reducible] def asciiWire : Wire Json where
  decode frame := if frame.all (· < 128) then some (frame.map fun b => Char.ofNat b.toNat) else none
  validate value := some value

/-- A mapping and the beginning of a list, in two chunks and in four. -/
theorem framing_chunks_sample :
    letI := wirePlatform
    letI := asciiWire
    received (M := Json) [[123, 125, 10], [91]] = received [[123], [125], [10, 91], []] ∧
      received (M := Json) [[123, 125, 10], [91]] = ([.obj []], .truncated) := by
  let _ := wirePlatform
  let _ := asciiWire
  obtain ⟨hsame, hsession, -, -⟩ := framing_chunks (M := Json) [123, 125, 10, 91] (by decide)
    [[123, 125, 10], [91]] [[123], [125], [10, 91], []] rfl rfl
  exact ⟨hsame, hsession.trans (by decide +kernel)⟩

end PayOps.Tools.McpTransport
