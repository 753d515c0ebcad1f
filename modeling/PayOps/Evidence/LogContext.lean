import PayOps.JsonText

/-!
# Structured log lines

`payops.evidence.log_context`: the lines of a log payload, each as a parsed record or as its raw
text.
-/

namespace PayOps

/-! ### Lines -/

/-- A line boundary of `str.splitlines`, beside the pair of carriage return and line feed. -/
def lineBoundary (c : Char) : Bool :=
  c.val ∈ ([0xA, 0xB, 0xC, 0xD, 0x1C, 0x1D, 0x1E, 0x85, 0x2028, 0x2029] : List UInt32)

/-- `str.splitlines`, where `line` is the line so far, in reverse. -/
def splitLines (line : List Char) : List Char → List (List Char)
  | [] => if line = [] then [] else [line.reverse]
  | '\r' :: '\n' :: cs => line.reverse :: splitLines [] cs
  | c :: cs => if lineBoundary c then line.reverse :: splitLines [] cs else splitLines (c :: line) cs

example : splitLines [] "a\r\n\nb".toList = [['a'], [], ['b']] := by decide

/-- `str.partition(" ")`: what is before the first blank, and what is after it. -/
def partitionBlank (line : List Char) : List Char × List Char :=
  (line.takeWhile (· != ' '), (line.dropWhile (· != ' ')).drop 1)

/-- `{**fields, key: value}`: an old field keeps its place. -/
def Json.set (fields : JsonObject) (key : String) (value : Json) : JsonObject :=
  if fields.any fun f => f.1 == key then
    fields.map fun f => if f.1 == key then (key, value) else f
  else fields ++ [(key, value)]

/-! ### Records -/

variable [Platform]

/-- The mapping a line parses to, with the time stamp before it, if there is one. -/
def parseLine (line : List Char) : Option (JsonObject × Option (List Char)) :=
  let (timestamp, content) := partitionBlank line
  let (candidate, stamp) :=
    if line.head? = some '{' then (line, none) else (content, some timestamp)
  match Json.loads candidate with
  | some (.obj fields) => some (fields, stamp)
  | _ => none

/-- The record of a parsed line. -/
def logRecord (parsed : JsonObject × Option (List Char)) : Json :=
  .obj [("record", .obj parsed.1),
    ("log_timestamp", (parsed.2.map fun s => Json.str (String.ofList s)).getD .null)]

/-- `log_context`: every line is kept, as a record or as its text. -/
def logContext (payload : JsonObject) : JsonObject :=
  match (Json.field payload "lines").bind Json.asStr with
  | none => payload
  | some lines =>
    let split := splitLines [] lines.toList
    let records := (split.filterMap parseLine).map logRecord
    let unparsed := (split.filter fun line => (parseLine line).isNone).map fun line =>
      Json.str (String.ofList line)
    let kept := payload.filter fun f => f.1 != "lines"
    Json.set (Json.set (Json.set kept "records" (.arr records)) "unparsed_lines" (.arr unparsed))
      "projection" (.str "structured_log_lines_v1")

end PayOps
