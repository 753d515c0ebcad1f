import PayOps.Evidence.Lines
import PayOps.Orchestrator.Baseline

/-!
# Records of a log, and its lines

The collector reads a log of records that the kubelet frames by line feeds and stamps. `_log_lines`
reads it back by `str.splitlines`, which knows more boundaries than the line feed.

## What is proved

* `logLines_records` — **what the baseline reads are the contents of the fresh records exactly if
  no fresh record has another boundary in it, and no stale one has a line that is fresh itself**.
* `forged_access` — a record that is written by the application, and read as two.

## Honest scope

The law is about the text alone. Whether an application can print such a record is not modelled.
-/

namespace PayOps

/-! ### Parts -/

/-- Where no part is longer than the part it is compared with, two sequences of parts are equal part by part. -/
theorem flatMap_eq_iff {α β : Type} {f g : α → List β} {l : List α}
    (hle : ∀ a ∈ l, (g a).length ≤ (f a).length) :
    l.flatMap f = l.flatMap g ↔ ∀ a ∈ l, f a = g a := by
  induction l with
  | nil => simp
  | cons a l ih =>
    obtain ⟨ha, hl⟩ := List.forall_mem_cons.mp hle
    rw [List.flatMap_cons, List.flatMap_cons, List.forall_mem_cons, ← ih hl]
    constructor
    · intro h
      have hlength := congrArg List.length h
      have hrest : (l.flatMap g).length ≤ (l.flatMap f).length := by
        rw [List.length_flatMap, List.length_flatMap]
        exact List.sum_le_sum hl
      rw [List.length_append, List.length_append] at hlength
      exact List.append_inj h (by omega)
    · rintro ⟨h, h'⟩
      rw [h, h']

namespace Orchestrator

/-! ### Records -/

/-- A character of an RFC 3339 timestamp. -/
def stampChar (c : Char) : Bool := c.isDigit || c ∈ ['-', ':', '.', '+', 'T', 'Z']

/-- A record as the kubelet writes it. -/
structure PhysicalRecord where
  /-- The timestamp of the kubelet. -/
  stamp : List Char
  /-- What the application printed. -/
  content : List Char
  /-- A timestamp has its own characters. -/
  stamped : ∀ c ∈ stamp, stampChar c = true
  /-- Records are framed by line feeds. -/
  framed : '\n' ∉ content

namespace PhysicalRecord

/-- The text of a record. -/
def text (r : PhysicalRecord) : List Char := r.stamp ++ ' ' :: r.content

/-- The text of a log. -/
def log (records : List PhysicalRecord) : String := String.ofList (joined (records.map text))

/-- The lines after the first one that `str.splitlines` makes of a record. -/
def laterLines (r : PhysicalRecord) : List (List Char) := (splitLines [] r.text).tail

end PhysicalRecord

namespace Baseline

variable [Platform] [BaselineTexts]

/-- A timestamp is read, and it is not older than two minutes when the item is collected. -/
def freshStamp (item : EvidenceItem) (stamp : List Char) : Bool :=
  (BaselineTexts.timestamp (String.ofList stamp)).any fun observed =>
    let age := item.collectedAt - observed
    0 ≤ age ∧ age ≤ MAX_AGE_SECONDS

/-- The content of a line that is fresh. -/
def freshLine (item : EvidenceItem) (line : List Char) : Option String :=
  if ' ' ∈ line ∧ freshStamp item (partitionBlank line).1 then some (String.ofList (partitionBlank line).2)
  else none

/-- The record is fresh, by its own timestamp. -/
def fresh (item : EvidenceItem) (r : PhysicalRecord) : Bool := freshStamp item r.stamp

/-- The contents of the fresh records. -/
def freshContents (item : EvidenceItem) (records : List PhysicalRecord) : List String :=
  (records.filter (fresh item)).map fun r => String.ofList r.content

/-- No fresh record has a boundary in it, and no stale one a later line that is fresh. -/
def Unforged (item : EvidenceItem) (records : List PhysicalRecord) : Prop :=
  ∀ r ∈ records, (fresh item r = true → ∀ c ∈ r.content, lineBoundary c = false) ∧
    (fresh item r = false → ∀ line ∈ r.laterLines, freshLine item line = none)

/-! ### What is read of a record -/

theorem logLines_eq {signal : Signal} {text : String} (hsource : signal.item.source = .log)
    (hresource : signal.item.resource.val = "payments-api")
    (hlines : Json.field signal.payload "lines" = some (.str text)) :
    logLines signal = (splitLines [] text.toList).filterMap (freshLine signal.item) := by
  have hread : logLines signal = (splitLines [] text.toList).filterMap fun line =>
      if ' ' ∈ line then
        (BaselineTexts.timestamp (String.ofList (partitionBlank line).1)).bind fun observed =>
          if 0 ≤ signal.item.collectedAt - observed ∧ signal.item.collectedAt - observed ≤ MAX_AGE_SECONDS then
            some (String.ofList (partitionBlank line).2) else none
      else none := by
    simp [logLines, hsource, hresource, hlines, Json.asStr]
  rw [hread]
  congr 1
  funext line
  unfold freshLine freshStamp
  by_cases hblank : ' ' ∈ line
  · cases BaselineTexts.timestamp (String.ofList (partitionBlank line).1) <;> simp [hblank]
  · simp [hblank]

omit [Platform] [BaselineTexts] in
theorem stampChar_plain {c : Char} (h : stampChar c = true) : lineBoundary c = false ∧ c ≠ ' ' := by
  rcases Bool.or_eq_true _ _ ▸ h with hdigit | hother
  · simp only [Char.isDigit, Bool.and_eq_true, decide_eq_true_eq] at hdigit
    refine ⟨?_, by rintro rfl; exact absurd hdigit (by decide)⟩
    have hrange : 48 ≤ c.val.toNat ∧ c.val.toNat ≤ 57 := by
      simpa [UInt32.le_iff_toNat_le] using hdigit
    simp only [lineBoundary, decide_eq_false_iff_not, List.mem_cons, List.not_mem_nil, or_false]
    rintro (h | h | h | h | h | h | h | h | h | h) <;> simp [h] at hrange
  · simp only [decide_eq_true_eq, List.mem_cons, List.not_mem_nil, or_false] at hother
    rcases hother with rfl | rfl | rfl | rfl | rfl | rfl <;> decide

theorem freshLine_nil (item : EvidenceItem) : freshLine item [] = none := by simp [freshLine]

theorem freshLine_stamped (item : EvidenceItem) {stamp : List Char} (hstamp : ∀ c ∈ stamp, c ≠ ' ')
    (content : List Char) : freshLine item (stamp ++ ' ' :: content) =
      if freshStamp item stamp then some (String.ofList content) else none := by
  have htake : partitionBlank (stamp ++ ' ' :: content) = (stamp, content) := by
    unfold partitionBlank
    rw [List.takeWhile_append_of_pos, List.dropWhile_append_of_pos] <;> simp_all
  simp [freshLine, htake]

omit [Platform] [BaselineTexts] in
/-- The first line of a record ends at the first boundary in its content. -/
theorem lines_eq (r : PhysicalRecord) : splitLines [] r.text =
    (r.stamp ++ ' ' :: r.content.takeWhile fun c => !lineBoundary c) :: r.laterLines := by
  have hplain : ∀ c ∈ r.stamp ++ ' ' :: r.content.takeWhile fun c => !lineBoundary c, lineBoundary c = false := by
    intro c hc
    rcases List.mem_append.mp hc with hstamp | hrest
    · exact (stampChar_plain (r.stamped c hstamp)).1
    rcases List.mem_cons.mp hrest with rfl | hcontent
    · decide
    · simpa using List.mem_takeWhile_imp hcontent
  have hsplit : r.text = (r.stamp ++ ' ' :: r.content.takeWhile fun c => !lineBoundary c) ++
      r.content.dropWhile fun c => !lineBoundary c := by
    simp [PhysicalRecord.text]
  have hfirst : ∃ later, splitLines [] r.text =
      (r.stamp ++ ' ' :: r.content.takeWhile fun c => !lineBoundary c) :: later := by
    rw [hsplit, splitLines_plain hplain, List.append_nil]
    cases hdrop : r.content.dropWhile fun c => !lineBoundary c with
    | nil => exact ⟨[], by simp [splitLines]⟩
    | cons c cs =>
      have hc : lineBoundary c = true := by
        have := List.head?_dropWhile_not (fun c => !lineBoundary c) r.content
        simpa [hdrop] using this
      obtain ⟨later, hlater⟩ := splitLines_boundary hc (r.stamp ++ ' ' ::
        r.content.takeWhile fun c => !lineBoundary c).reverse cs
      exact ⟨later, by rw [hlater, List.reverse_reverse]⟩
  obtain ⟨later, hlater⟩ := hfirst
  rw [PhysicalRecord.laterLines, hlater, List.tail_cons]

omit [Platform] [BaselineTexts] in
/-- A record without a boundary is one line. -/
theorem laterLines_plain {r : PhysicalRecord} (hr : ∀ c ∈ r.content, lineBoundary c = false) :
    r.laterLines = [] := by
  have hplain : ∀ c ∈ r.text, lineBoundary c = false := by
    intro c hc
    rcases List.mem_append.mp hc with hstamp | hrest
    · exact (stampChar_plain (r.stamped c hstamp)).1
    · exact (List.forall_mem_cons (p := fun c => lineBoundary c = false)).mpr ⟨by decide, hr⟩ c hrest
  have hone := splitLines_plain hplain [] []
  rw [List.append_nil, List.append_nil] at hone
  rw [PhysicalRecord.laterLines, hone, splitLines]
  split <;> rfl

/-- What is read of a record: its own line, up to the first boundary, and its later lines. -/
theorem read_eq (item : EvidenceItem) (r : PhysicalRecord) :
    (splitLines [] r.text).filterMap (freshLine item) =
      (if fresh item r then [String.ofList (r.content.takeWhile fun c => !lineBoundary c)] else []) ++
        r.laterLines.filterMap (freshLine item) := by
  have hstamp : ∀ c ∈ r.stamp, c ≠ ' ' := fun c hc => (stampChar_plain (r.stamped c hc)).2
  rw [lines_eq, List.filterMap_cons, freshLine_stamped item hstamp]
  unfold fresh
  split_ifs <;> rfl

/-- A record is read as it is, or it is not read, exactly if no boundary in it makes a difference. -/
theorem read_iff (item : EvidenceItem) (r : PhysicalRecord) :
    (splitLines [] r.text).filterMap (freshLine item) =
        (if fresh item r then [String.ofList r.content] else []) ↔
      (fresh item r = true → ∀ c ∈ r.content, lineBoundary c = false) ∧
        (fresh item r = false → ∀ line ∈ r.laterLines, freshLine item line = none) := by
  rw [read_eq]
  cases hfresh : fresh item r with
  | false => simp [List.filterMap_eq_nil_iff]
  | true =>
    simp only [if_true, List.singleton_append, List.cons.injEq, forall_true_left, Bool.true_eq_false,
      false_implies, and_true]
    constructor
    · rintro ⟨hcontent, -⟩ c hc
      have hall := String.ofList_injective hcontent
      rw [← hall] at hc
      simpa using List.mem_takeWhile_imp hc
    · intro hplain
      rw [laterLines_plain hplain, List.takeWhile_eq_self_iff.mpr (by simpa using hplain)]
      exact ⟨rfl, rfl⟩

theorem freshContents_eq (item : EvidenceItem) (records : List PhysicalRecord) : freshContents item records =
    records.flatMap fun r => if fresh item r then [String.ofList r.content] else [] := by
  unfold freshContents
  induction records with
  | nil => rfl
  | cons r records ih =>
    rw [List.filter_cons, List.flatMap_cons, ← ih]
    split_ifs <;> rfl

/-- **The contents of the fresh records are read exactly if no boundary other than the line feed makes a
difference.** Of another deployment nothing is read. -/
theorem logLines_records {signal : Signal} {records : List PhysicalRecord} (hsource : signal.item.source = .log)
    (hlines : Json.field signal.payload "lines" = some (.str (PhysicalRecord.log records))) :
    logLines signal = freshContents signal.item records ↔
      if signal.item.resource.val = "payments-api" then Unforged signal.item records
      else ∀ r ∈ records, fresh signal.item r = false := by
  split_ifs with hresource
  · rw [logLines_eq hsource hresource hlines, PhysicalRecord.log, String.toList_ofList,
      splitLines_joined _ (freshLine_nil signal.item), List.flatMap_map, freshContents_eq, flatMap_eq_iff]
    · exact forall₂_congr fun r _ => read_iff signal.item r
    · intro r _
      rw [read_eq]
      split_ifs <;> simp
  · have hnone : logLines signal = [] := by simp [logLines, hresource]
    rw [hnone, freshContents, eq_comm, List.map_eq_nil_iff, List.filter_eq_nil_iff]
    simp

end Baseline

namespace Baseline

/-! ### One record that is read as two -/

/-- What a request of the payments logs when the service is unavailable. -/
def accessLine : String := "INFO: 10.0.0.1:5 - \"POST /simulate HTTP/1.1\" 503"

/-- The patterns, on the texts below. -/
@[reducible] def accessTexts : BaselineTexts where
  timestamp stamp := if stamp = "2026-07-01T00:00:00Z" then some (seconds 1782864000) else none
  str _ := ""
  paymentPodName _ := false
  configHeader _ := false
  configDetail _ := false
  accessFailure line := line == accessLine

/-- A platform whose words are those of ASCII. -/
@[reducible] def asciiPlatform : Platform where
  sha256 _ := "0"
  patternWord _ := false
  reWord _ := false
  nesting := 100
  floatRepr text := text

attribute [local instance] asciiPlatform accessTexts

/-- A timestamp. -/
def julyStamp : List Char := "2026-07-01T00:00:00Z".toList

theorem julyStamp_stamped : ∀ c ∈ julyStamp, stampChar c = true := by
  have hall : julyStamp.all stampChar = true := by decide +kernel
  exact List.all_eq_true.mp hall

/-- A record of an application that prints a carriage return, and what looks like a record of its own. -/
def carriedRecord : PhysicalRecord where
  stamp := julyStamp
  content := "note\r2026-07-01T00:00:00Z ".toList ++ accessLine.toList
  stamped := julyStamp_stamped
  framed := by decide +kernel

/-- A record that is one line. -/
def plainRecord : PhysicalRecord where
  stamp := julyStamp
  content := "ready".toList
  stamped := julyStamp_stamped
  framed := by decide +kernel

theorem logs_summary : strippedOk 4000 "logs" = true := by decide

/-- A log of the payments, collected when it was written. -/
def logSignal (records : List PhysicalRecord) : Signal where
  item :=
    { evidenceId := ⟨"logs", by decide⟩
      incidentId := ⟨"inc-1", by decide⟩
      source := .log
      observedAt := seconds 1782864000
      collectedAt := seconds 1782864000
      query := ⟨"logs.5m.100", by decide⟩
      resource := ⟨"payments-api", by decide⟩
      artifactUri := ⟨"sha256://0", by decide⟩
      artifactSha256 := ⟨"00000000000000000000000000000000000000000000000000000000000000c4", by decide⟩
      summary := ⟨"logs", logs_summary⟩ }
  payload := [("lines", .str (PhysicalRecord.log records))]

/-- **A failed access is read where no record reports one.** -/
theorem forged_access : ∃ records : List PhysicalRecord,
    logLines (logSignal records) ≠ freshContents (logSignal records).item records ∧
      accessFailed (logSignal records) = true ∧
      ∀ r ∈ records, BaselineTexts.accessFailure (String.ofList r.content) = false := by
  refine ⟨[carriedRecord], ?_⟩
  decide +kernel

/-- A log of one plain record is read as it is. -/
theorem logLines_plain :
    logLines (logSignal [plainRecord]) = freshContents (logSignal [plainRecord]).item [plainRecord] := by
  have hexact := logLines_records (show (logSignal [plainRecord]).item.source = .log from rfl) rfl
  have hplain : plainRecord.content.all (fun c => !lineBoundary c) = true := by decide +kernel
  have hfresh : fresh (logSignal [plainRecord]).item plainRecord = true := by decide +kernel
  rw [if_pos (by decide +kernel)] at hexact
  refine hexact.mpr fun r hr => ?_
  rw [List.mem_singleton.mp hr, hfresh]
  exact ⟨fun _ => by simpa using hplain, fun hstale => by cases hstale⟩

end Baseline

end Orchestrator

end PayOps
