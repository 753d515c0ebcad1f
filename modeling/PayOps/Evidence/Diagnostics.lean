import PayOps.Evidence.PaymentWindow
import PayOps.Evidence.RecentOrder

/-!
# Diagnostic predicates

`payops.evidence.diagnostics`, `diagnostic_slices` and `diagnostic_http`: which causes the facts of one
observation support.

## The model

A set of causes is the list of its elements, perhaps with some twice. A number that is too large for `float`
and a numeral that `int` refuses raise. `Characters` gives what Python knows of characters and of datetimes.

## What is proved

* `causes_ok` — a cause that is supported is one of the three families'.
* `causes_empty` — a mapping without fields supports nothing.
* `supportIndex_ok` — what the index of several observations says of one cause.
-/

namespace PayOps.Evidence.Diagnosis

open Json (field pythonEqual)
open Payment (Floats)

/-- What the predicates take from Python's texts. -/
class Characters where
  /-- `c.isdigit()`. -/
  isDigit : Char → Bool
  /-- The value of a decimal digit, the class `\d`. -/
  decimal : Char → Option ℕ
  /-- `datetime.fromisoformat`: whether it has a time zone, and the microseconds. -/
  fromisoformat : String → Option (Bool × Time)

section Model

variable [Platform] [Numerals] [Floats] [Characters]

/-! ### Values -/

mutual

/-- `objects`. -/
def objects : Json → List JsonObject
  | .obj fields =>
    match field fields "archived" with
    | some (.bool true) => []
    | _ => fields :: objectsFields fields
  | .arr items => objectsItems items
  | _ => []

/-- The objects in the items of a list. -/
def objectsItems : List Json → List JsonObject
  | [] => []
  | x :: xs => objects x ++ objectsItems xs

/-- The objects in the values of a mapping. -/
def objectsFields : List (String × Json) → List JsonObject
  | [] => []
  | (_, x) :: xs => objects x ++ objectsFields xs

end

/-- `number`. -/
def number : Option Json → Except Fault (Option ℚ)
  | some (.int n) =>
    match Floats.ofInt n with
    | some x => .ok (some x)
    | none => .error (.other "OverflowError")
  | some (.float r) => .ok (Numerals.value r)
  | _ => .ok none

/-- `row.get(key) == text`. -/
def isText (row : JsonObject) (key text : String) : Bool :=
  match field row key with
  | some (.str s) => s == text
  | _ => false

/-- `row.get(key) == n`. -/
def isInt (row : JsonObject) (key : String) (n : ℤ) : Bool :=
  (field row key).any fun x => pythonEqual x (.int n)

/-- `row.get(key)`, if it is a string. -/
def text (row : JsonObject) (key : String) : Option String := (field row key).bind Json.asStr

/-- `duration`, in microseconds. -/
def duration (row : JsonObject) : Option Time := do
  let (zoned, first) ← Characters.fromisoformat (← text row "startedAt")
  let (zoned', last) ← Characters.fromisoformat (← text row "finishedAt")
  if zoned && zoned' then some (last - first) else none

/-! ### Direct causes -/

/-- `direct`. -/
def direct (resource : String) (row : JsonObject) : List String :=
  (if isText row "dependency" "postgres" && isText row "sqlstate" "53300" then ["DATABASE_CONNECTION_EXHAUSTION"]
    else []) ++
  (if isText row "dependency" "redis" && isText row "outcome" "unavailable" then ["CACHE_UNAVAILABLE"] else []) ++
  (if isText row "kind" "Deployment" && (field row "replicas").any (· == .int 0) &&
      (match field row "resource" with
        | some x => x == .str "processor-adapter"
        | none => resource == "processor-adapter") then ["PROCESSOR_UNAVAILABLE"] else []) ++
  (if isText row "type" "ScalingLimited" && isText row "status" "True" && isText row "reason" "TooManyReplicas" then
    ["AUTOSCALING_MAX_REPLICAS"] else []) ++
  (if isInt row "exitCode" 1 && (duration row).any (fun d => decide (0 ≤ d ∧ d ≤ seconds 5)) then
    ["STARTUP_FAILURE"] else [])

/-- `running_unready`. -/
def runningUnready (row : JsonObject) : Bool :=
  (field row "ready").any (· == .bool false) && isInt row "restartCount" 0 &&
    (match field row "state" with
      | some (.obj state) => (field state "running").isSome
      | _ => false)

/-- The word is in the message. -/
def mentions (message word : String) : Bool := decide (word.toList <:+: message.toList)

/-- `events`. -/
def events (rows : List JsonObject) : List String :=
  let pending := rows.any fun row => isText row "phase" "Pending"
  let running := rows.any runningUnready
  let pressure := rows.any fun row => isText row "type" "MemoryPressure" && isText row "status" "True"
  rows.flatMap fun row =>
    match text row "message" with
    | none => []
    | some message =>
      (if pending && isText row "reason" "FailedScheduling" && mentions message "Insufficient cpu" then
        ["INSUFFICIENT_CPU_REQUEST_CAPACITY"] else []) ++
      (if pending && isText row "reason" "FailedScheduling" && mentions message "Insufficient memory" then
        ["INSUFFICIENT_MEMORY_REQUEST_CAPACITY"] else []) ++
      (if running && isText row "reason" "Unhealthy" &&
          "Readiness probe failed:".toList.isPrefixOf message.toList then ["READINESS_PROBE_FAILURE"] else []) ++
      (if pressure && isText row "reason" "Evicted" && mentions message "memory" then ["NODE_PRESSURE_EVICTION"]
        else [])

/-! ### Memory -/

/-- Each of the values is at most the next. -/
def ascending : List ℚ → Bool
  | a :: b :: rest => decide (a ≤ b) && ascending (b :: rest)
  | _ => true

/-- `growth`. -/
def growth (rows : List JsonObject) (key : String) : Except Fault Bool := do
  let values ← (rows.filter fun row => (field row key).isSome).mapM fun row => number (field row key)
  match values.mapM id with
  | some (first :: rest) =>
    return decide (3 ≤ values.length) && ascending (first :: rest) && decide (first < (first :: rest).getLastD first)
  | _ => return false

/-- `memory`. -/
def memory (rows : List JsonObject) : Except Fault (List String) := do
  let leak ← growth rows "retained_bytes"
  let active ← growth rows "active"
  let pressure ← if active then growth rows "cgroup_current_bytes" else pure false
  return (if leak then ["MEMORY_LEAK"] else []) ++ (if pressure then ["CONCURRENCY_MEMORY_PRESSURE"] else []) ++
    (if rows.any fun row => isText row "reason" "OOMKilled" then ["MEMORY_LIMIT_BELOW_WORKING_SET"] else [])

/-! ### Throttling -/

/-- `line.split()`. -/
def words : List Char → List Char → List (List Char)
  | word, [] => if word = [] then [] else [word.reverse]
  | word, c :: cs =>
    if reSpace c then (if word = [] then words [] cs else word.reverse :: words [] cs) else words (c :: word) cs

/-- `word.isdigit()`. -/
def isDigits (word : List Char) : Bool := word != [] && word.all Characters.isDigit

/-- `int(word)`, of digits. -/
def parseInt (word : List Char) : Except Fault ℕ :=
  if 4300 < word.length then .error (.value "Exceeds the limit (4300 digits) for integer string conversion")
  else
    match word.mapM Characters.decimal with
    | some digits => .ok (digits.foldl (fun n d => 10 * n + d) 0)
    | none => .error (.value "invalid literal for int() with base 10")

/-- `cpu_counter`. -/
def cpuCounter (value : Option Json) : Except Fault (Option ℕ) :=
  match value with
  | some (.str s) =>
    let counts := ((splitLines [] s.toList).map (words [])).filterMap fun pair =>
      match pair with
      | [name, count] => if name = "throttled_usec".toList then some count else none
      | _ => none
    match counts with
    | [count] => if isDigits count then (parseInt count).map some else .ok none
    | _ => .ok none
  | _ => .ok none

/-- `part.isdigit() and int(part) > 0`. -/
def positive (part : List Char) : Except Fault Bool :=
  if isDigits part then (parseInt part).map fun n => decide (0 < n) else .ok false

/-- `throttled`. -/
def throttled (row : JsonObject) : Except Fault Bool :=
  match field row "before", field row "after" with
  | some (.obj before), some (.obj after) =>
    match text before "cpu_max" with
    | none => .ok false
    | some quota =>
      if isText after "cpu_max" quota then
        match words [] quota.toList with
        | [limit, period] => do
          let finite ← positive limit
          let finite ← if finite then positive period else pure false
          if finite then
            let first ← cpuCounter (field before "cpu_stat")
            let last ← cpuCounter (field after "cpu_stat")
            return (match first, last with
              | some first, some last => decide (first < last)
              | _, _ => false)
          else return false
        | _ => .ok false
      else .ok false
  | _, _ => .ok false

/-- `any(p(x) for x in xs)`. -/
def anyOf {α : Type} (p : α → Except Fault Bool) : List α → Except Fault Bool
  | [] => .ok false
  | x :: xs =>
    match p x with
    | .error e => .error e
    | .ok true => .ok true
    | .ok false => anyOf p xs

/-- `supported_causes`. -/
def supportedCauses (value : JsonObject) (resource : Identifier) : Except Fault (List String) := do
  let rows := objects (.obj value)
  let remembered ← memory rows
  let slowed ← anyOf throttled rows
  return rows.flatMap (direct resource.val) ++ events rows ++ remembered ++
    (if slowed then ["CPU_THROTTLING"] else [])

/-! ### Slices -/

/-- `labels`: none of them, if one is malformed or twice. -/
def labelsFrom (found : List (String × String)) : List Json → List (String × String)
  | [] => found
  | .arr [.str name, .str value] :: rest =>
    if name ∈ found.map Prod.fst then [] else labelsFrom (found ++ [(name, value)]) rest
  | _ => []

/-- `labels`. -/
def labels (row : JsonObject) : List (String × String) :=
  match field row "labels" with
  | some (.arr pairs) => labelsFrom [] pairs
  | _ => []

/-- `set(labels) == names`, where the names of both are distinct. -/
def hasNames (found : List (String × String)) (names : List String) : Bool :=
  found.length == names.length && names.all fun name => name ∈ found.map Prod.fst

/-- `combinations(xs, 2)`. -/
def pairs {α : Type} : List α → List (α × α)
  | [] => []
  | x :: xs => xs.map (Prod.mk x) ++ pairs xs

/-- The elements that are wanted, in order. -/
def filterOf {α : Type} (p : α → Except Fault Bool) : List α → Except Fault (List α)
  | [] => .ok []
  | x :: xs => do
    let wanted ← p x
    let rest ← filterOf p xs
    return if wanted then x :: rest else rest

/-- `(number(value) or 0) > 0`. -/
def isPositive (value : Option Json) : Except Fault Bool :=
  (number value).map fun x => x.any fun x => decide (0 < x)

/-- The causes of one pair of rows in `declines`. -/
def contrast (left right : JsonObject) : List String :=
  let a := labels left
  let b := labels right
  let names := ["processor", "region", "payment_method", "status"]
  if hasNames a names && hasNames b names then
    let differs (name : String) : Bool := a.lookup name != b.lookup name
    let statuses := [a.lookup "status", b.lookup "status"]
    if statuses.contains (some "accepted") && statuses.contains (some "declined") then
      (if differs "processor" && !differs "region" && !differs "payment_method" then
        ["PROCESSOR_SPECIFIC_DECLINES"] else []) ++
      (if differs "payment_method" && !differs "region" && !differs "processor" then
        ["METHOD_SPECIFIC_DECLINES"] else [])
    else []
  else []

/-- `declines`. -/
def declines (rows : List JsonObject) : Except Fault (List String) := do
  let counts ← filterOf (fun row =>
    if isText row "metric" "payment_requests_total" then isPositive (field row "value") else .ok false) rows
  return (pairs counts).flatMap fun p => contrast p.1 p.2

/-- The count and the sum of a series. -/
abbrev Latency := Option ℚ × Option ℚ

/-- `values.setdefault(key, {})[name] = value`. -/
def setLatency (key : String × String) (isSum : Bool) (value : ℚ) :
    List ((String × String) × Latency) → List ((String × String) × Latency)
  | [] => [(key, if isSum then (none, some value) else (some value, none))]
  | entry :: entries =>
    if entry.1 = key then (key, if isSum then (entry.2.1, some value) else (some value, entry.2.2)) :: entries
    else entry :: setLatency key isSum value entries

/-- The loop of `region_latency`. -/
def latencies (found : List ((String × String) × Latency)) :
    List JsonObject → Except Fault (List ((String × String) × Latency))
  | [] => .ok found
  | row :: rows => do
    let value ← number (field row "value")
    let isSum := isText row "metric" "payment_authorization_latency_seconds_sum"
    let isCount := isText row "metric" "payment_authorization_latency_seconds_count"
    let label := labels row
    match value, label.lookup "processor", label.lookup "region" with
    | some value, some processor, some region =>
      if (isSum || isCount) && hasNames label ["processor", "region"] && decide (0 < value) then
        latencies (setLatency (processor, region) isSum value found) rows
      else latencies found rows
    | _, _, _ => latencies found rows

/-- `region_latency`. -/
def regionLatency (rows : List JsonObject) : Except Fault Bool := do
  let values ← latencies [] rows
  let means := values.filterMap fun entry =>
    match entry.2 with
    | (some count, some sum) => if 5 ≤ count then some (entry.1, Floats.round (sum / count)) else none
    | _ => none
  return (pairs means).any fun p =>
    p.1.1.1 == p.2.1.1 && p.1.1.2 != p.2.1.2 && decide (2 * min p.1.2 p.2.2 ≤ max p.1.2 p.2.2)

/-- The rest of a text after another. -/
def stripPrefix (start text : List Char) : Option (List Char) :=
  if start <+: text then some (text.drop start.length) else none

/-- The class `\w`. -/
def wordChar (c : Char) : Bool := if c.val < 128 then asciiWord c else Platform.reWord c

/-- The duration in the text of a span of a call to a service: `(\d+) us; status \w+; bounded sample` after the
name of the span. -/
def spanDuration (service : String) (span : List Char) : Option (List Char) := do
  let rest ← stripPrefix ("sandbox.call." ++ service ++ ": ").toList span
  let (digits, rest) := rest.span fun c => (Characters.decimal c).isSome
  let rest ← stripPrefix " us; status ".toList rest
  let (word, rest) := rest.span wordChar
  if digits ≠ [] ∧ word ≠ [] ∧ rest = "; bounded sample".toList then some digits else none

/-- The durations of the calls to a service, in a list of spans. -/
def durationsOf (service : String) (spans : List Json) : Except Fault (List ℕ) :=
  (spans.filterMap fun span => (span.asStr).bind fun s => spanDuration service s.toList).mapM parseInt

/-- The largest of the numbers. -/
def largest (xs : List ℕ) : ℕ := xs.foldl max 0

/-- `processor_latency`. -/
def processorLatency (rows : List JsonObject) : Except Fault Bool := do
  let spans := rows.flatMap fun row =>
    match field row "spans" with
    | some (.arr spans) => spans
    | _ => []
  let processor ← durationsOf "processor" spans
  let risk ← durationsOf "risk" spans
  let ledger ← durationsOf "ledger" spans
  let webhook ← durationsOf "webhook" spans
  let peers := risk ++ ledger ++ webhook
  return decide (2 ≤ processor.length) && decide (2 ≤ peers.length) &&
    processor.all fun d => decide (3 * largest peers < d)

/-- `slice_causes`. -/
def sliceCauses (value : JsonObject) : Except Fault (List String) := do
  let rows := objects (.obj value)
  let declined ← declines rows
  let regional ← regionLatency rows
  let slow ← processorLatency rows
  return declined ++ (if regional then ["REGION_SPECIFIC_LATENCY"] else []) ++
    (if slow then ["PROCESSOR_LATENCY"] else [])

/-! ### HTTP outcomes -/

/-- `matched_control`. -/
def matchedControl (rejected accepted : JsonObject) : Bool :=
  let named (key : String) : Bool :=
    (text rejected key).any (· != "") && (text accepted key).any (· != "")
  isInt accepted "http_status" 200 && named "processor" && named "region" && named "payment_method" &&
    text rejected "processor" != text accepted "processor" && text rejected "region" == text accepted "region" &&
    text rejected "payment_method" == text accepted "payment_method"

/-- The causes of one envelope in `http_causes`. -/
def envelopeCauses (envelope : JsonObject) : Except Fault (List String) :=
  match field envelope "attempts" with
  | some (.arr attempts) => do
    let rows := attempts.filterMap fun attempt =>
      match attempt with
      | .obj row => some row
      | _ => none
    let limited ← if isText envelope "role" "payments" then
        filterOf (fun row =>
          if isInt row "http_status" 429 then isPositive (field row "latency_seconds") else .ok false) rows
      else pure []
    return (if isText envelope "role" "webhook" && rows.any (fun row =>
          isInt row "http_status" 409 && (field row "idempotency_conflict").any (· == .bool true)) then
        ["WEBHOOK_IDEMPOTENCY_CONFLICT"] else []) ++
      (if limited.any fun rejected => rows.any fun accepted => matchedControl rejected accepted then
        ["PROCESSOR_LATENCY_RATE_LIMIT"] else [])
  | _ => .ok []

/-- `http_causes`. -/
def httpCauses (value : JsonObject) : Except Fault (List String) :=
  (objects (.obj value)).foldlM (fun found envelope => (envelopeCauses envelope).map (found ++ ·)) []

/-! ### All causes -/

/-- The predicates of the source. -/
def diagnostics : Diagnostics := ⟨supportedCauses, sliceCauses, httpCauses⟩

/-- The facts alone satisfy a predicate for the cause. -/
def Satisfies (facts : JsonObject) (resource : Identifier) (cause : String) : Prop :=
  (∃ causes, supportedCauses facts resource = .ok causes ∧ cause ∈ causes) ∨
    (∃ causes, sliceCauses facts = .ok causes ∧ cause ∈ causes) ∨
    ∃ causes, httpCauses facts = .ok causes ∧ cause ∈ causes

/-- **A supported cause** is one of the three families'. -/
theorem causes_ok {facts : JsonObject} {resource : Identifier} {causes : List String}
    (h : diagnostics.causes facts resource = .ok causes) (cause : String) :
    cause ∈ causes ↔ Satisfies facts resource cause := by
  obtain ⟨supported, hsupported, h⟩ := bind_eq_ok.mp h
  obtain ⟨sliced, hsliced, h⟩ := bind_eq_ok.mp h
  obtain ⟨http, hhttp, h⟩ := bind_eq_ok.mp h
  cases h
  have hsupported' : supportedCauses facts resource = .ok supported := hsupported
  have hsliced' : sliceCauses facts = .ok sliced := hsliced
  have hhttp' : httpCauses facts = .ok http := hhttp
  simp [Satisfies, hsupported', hsliced', hhttp', List.mem_insertionSort]

theorem satisfies_of_supports {facts : JsonObject} {identifier resource : Identifier} {cause : String}
    (h : Supports diagnostics (identifier, resource, facts) cause) : Satisfies facts resource cause := by
  obtain ⟨causes, hcauses, hmem⟩ := h
  exact (causes_ok hcauses cause).mp hmem

/-- **A mapping without fields** supports nothing. -/
theorem causes_empty (resource : Identifier) : diagnostics.causes [] resource = .ok [] := by
  rfl

end Model

/-! ### The index -/

/-- Where there is an index, the causes of every observation can be read. -/
theorem supportIndex_read [Platform] {D : Diagnostics} {observations : List (Identifier × Identifier × JsonObject)}
    {index : Support} (h : supportIndex D observations = .ok index) :
    ∀ o ∈ observations, ∃ causes, D.causes o.2.2 o.2.1 = .ok causes := by
  refine (collectSupport_isOk []).mp ?_
  unfold supportIndex at h
  cases hcollected : collectSupport D [] observations with
  | error x => rw [hcollected] at h; cases h
  | ok collected => exact ⟨collected, rfl⟩

/-- **The evidence for a cause** in the index supports it, and no observation supports a more specific cause of
the same symptom. -/
theorem supportIndex_ok [Platform] {D : Diagnostics} {observations : List (Identifier × Identifier × JsonObject)}
    {index : Support} (h : supportIndex D observations = .ok index) {cause : String} {i : Identifier}
    (hi : i ∈ ((index.find? fun x => x.1 == cause).map Prod.snd).getD []) :
    (∃ o ∈ observations, o.1 = i ∧ Supports D o cause) ∧
      (cause = "MEMORY_LIMIT_BELOW_WORKING_SET" →
        ¬∃ o ∈ observations, ∃ c, Supports D o c ∧ specific c = true) := by
  unfold supportIndex at h
  cases hcollected : collectSupport D [] observations with
  | error x => rw [hcollected] at h; cases h
  | ok collected =>
    rw [hcollected] at h
    cases h
    have hall (c : String) := collectSupport_ok hcollected c
    -- The entry that is found is one of those that are not suppressed.
    have hentry : ∃ entry ∈ suppress collected, entry.1 = cause ∧ i ∈ entry.2 := by
      generalize hfound : List.find? (fun x : String × List Identifier => x.1 == cause) _ = found at hi
      cases found with
      | none => cases hi
      | some found =>
        have hkey : found.1 = cause := by simpa using List.find?_some hfound
        obtain ⟨entry, hentry, rfl⟩ := List.mem_map.mp (List.mem_of_find?_eq_some hfound)
        exact ⟨entry, (List.mem_insertionSort _).mp hentry, hkey, by simpa using hi⟩
    obtain ⟨entry, hentry, hcause, hi⟩ := hentry
    have hkept : entry ∈ collected ∧
        ((collected.any fun entry => specific entry.1) = true → entry.1 ≠ "MEMORY_LIMIT_BELOW_WORKING_SET") := by
      unfold suppress at hentry
      split_ifs at hentry with hany
      · exact ⟨List.mem_of_mem_filter hentry, fun _ => by simpa using (List.mem_filter.mp hentry).2⟩
      · exact ⟨hentry, fun h => absurd h hany⟩
    refine ⟨?_, ?_⟩
    · exact ((hall cause).1 i |>.mp ⟨entry, hkept.1, hcause, hi⟩).resolve_left (by simp [Named])
    · rintro hlimit ⟨o, ho, c, hsupports, hspecific⟩
      obtain ⟨other, hother, rfl⟩ := (hall c).2.mpr (.inr ⟨o, ho, hsupports⟩)
      exact hkept.2 (List.any_eq_true.mpr ⟨other, hother, hspecific⟩) (hcause.trans hlimit)

end PayOps.Evidence.Diagnosis
