import PayOps.Evidence.LogContext
import PayOps.Evidence.TraceLog

/-!
# CPU counters

`payops.scenarios.cpu_counters`: the kernel's counters of a container in two snapshots, and what it used between them.

## What is proved

* `counters_ok` — counters that were read are of distinct names, none is out of bounds, and none of the required ones
  is missing.
* `delta_ok` — exactly when a delta is derived, and what it is.
* `deltas_compose` — **main result**: along a chain of snapshots the deltas add up to that of its ends, however the
  snapshots in between were chosen.
-/

namespace PayOps.Scenarios.CpuCounters

open Json (digitsValue)

/-! ### Reading the kernel's files -/

/-- The largest counter. -/
def LIMIT : ℕ := 9223372036854775807

/-- `REQUIRED`. -/
def REQUIRED : List String :=
  ["usage_usec", "user_usec", "system_usec", "nr_periods", "nr_throttled", "throttled_usec"]

/-- `raise ValueError(message)` if `c` holds. -/
def refuse (c : Prop) [Decidable c] (message : String) : Except Fault Unit :=
  if c then .error (.value message) else .ok ()

@[simp] theorem refuse_ok {c : Prop} [Decidable c] {message : String} {u : Unit} : refuse c message = .ok u ↔ ¬c := by
  unfold refuse
  split_ifs with hc <;> simp [hc]

/-- The counters of a file, by name. -/
abbrev Counters := List (String × ℕ)

/-- A counter; one that is missing counts for nothing. -/
def Counters.at (found : Counters) (name : String) : ℕ := (found.lookup name).getD 0

/-- `re.fullmatch(r"([a-z_]+) ([0-9]{1,19})", line)`. -/
def counterLine (line : List Char) : Option (String × ℕ) :=
  match line.span fun c => c.isLower || c == '_' with
  | (name, ' ' :: digits) =>
    if name ≠ [] ∧ (1 ≤ digits.length ∧ digits.length ≤ 19) ∧ digits.all Char.isDigit = true then
      some (String.ofList name, digitsValue digits)
    else none
  | _ => none

/-- One more line of the counters. -/
def counterStep (found : Counters) (line : List Char) : Except Fault Counters :=
  match counterLine line with
  | none => .error (.value "CPU counter source is malformed or duplicated")
  | some (name, value) =>
    if (found.lookup name).isSome = true ∨ LIMIT < value then
      .error (.value "CPU counter source is malformed or duplicated")
    else .ok (found ++ [(name, value)])

/-- `counters`. -/
def counters (raw : String) : Except Fault Counters := do
  let lines := splitLines [] raw.toList
  refuse (4096 < Text.utf8Length raw.toList ∨ ¬(1 ≤ lines.length ∧ lines.length ≤ 32))
    "CPU counter source exceeds bounds"
  let found ← lines.foldlM counterStep []
  refuse (¬∀ name ∈ REQUIRED, (found.lookup name).isSome = true) "CPU bandwidth counters are missing"
  return found

/-- `re.fullmatch(r"([0-9]{1,10}) ([0-9]{1,7})\n?", raw)`. -/
def quotaLine (raw : List Char) : Option (ℕ × ℕ) :=
  let body := if raw.getLast? = some '\n' then raw.dropLast else raw
  match body.span Char.isDigit with
  | (maximum, ' ' :: period) =>
    if (1 ≤ maximum.length ∧ maximum.length ≤ 10) ∧ (1 ≤ period.length ∧ period.length ≤ 7) ∧
        period.all Char.isDigit = true then
      some (digitsValue maximum, digitsValue period)
    else none
  | _ => none

/-- `quota`: the maximum, and the period. -/
def quota (raw : String) : Except Fault (ℕ × ℕ) :=
  match quotaLine raw.toList with
  | none => .error (.value "finite CPU quota and period are required")
  | some (maximum, period) =>
    if maximum < 1000 ∨ ¬(1000 ≤ period ∧ period ≤ 1000000) then
      .error (.value "CPU quota or period outside kernel bounds")
    else .ok (maximum, period)

/-! ### What was read -/

theorem mem_of_at {found : Counters} {name : String} (h : (found.lookup name).isSome = true) :
    (name, found.at name) ∈ found := by
  induction found with
  | nil => cases h
  | cons f found ih =>
    unfold Counters.at at ih ⊢
    rw [List.lookup_cons] at h ⊢
    cases hname : name == f.1 with
    | true =>
      obtain rfl := eq_of_beq hname
      simp
    | false =>
      rw [hname] at h
      exact List.mem_cons_of_mem _ (ih h)

/-- One more line keeps the counters in bounds. -/
theorem counterStep_ok {found found' : Counters} {line : List Char} (h : counterStep found line = .ok found')
    (hbound : ∀ f ∈ found, f.2 ≤ LIMIT) : ∀ f ∈ found', f.2 ≤ LIMIT := by
  unfold counterStep at h
  split at h
  · cases h
  · split_ifs at h with hbad
    cases h
    intro f hf
    rcases List.mem_append.mp hf with hf | hf
    · exact hbound f hf
    · obtain rfl := List.mem_singleton.mp hf
      exact not_lt.mp (not_or.mp hbad).2

theorem counterSteps_ok {lines : List (List Char)} {found found' : Counters}
    (h : lines.foldlM counterStep found = .ok found') (hbound : ∀ f ∈ found, f.2 ≤ LIMIT) :
    ∀ f ∈ found', f.2 ≤ LIMIT := by
  induction lines generalizing found with
  | nil =>
    cases h
    exact hbound
  | cons line lines ih =>
    rw [List.foldlM_cons] at h
    obtain ⟨next, hnext, hrest⟩ := bind_eq_ok.mp h
    exact ih hrest (counterStep_ok hnext hbound)

/-- **Counters that were read** are in bounds, and none of the required ones is missing. -/
theorem counters_ok {raw : String} {found : Counters} (h : counters raw = .ok found) :
    (∀ name, found.at name ≤ LIMIT) ∧ ∀ name ∈ REQUIRED, (found.lookup name).isSome = true := by
  obtain ⟨_, -, h⟩ := bind_eq_ok.mp h
  obtain ⟨found', hfound, h⟩ := bind_eq_ok.mp h
  obtain ⟨_, hrequired, h⟩ := bind_eq_ok.mp h
  cases h
  refine ⟨fun name => ?_, not_not.mp (refuse_ok.mp hrequired)⟩
  cases hname : found.lookup name with
  | none => simp [Counters.at, hname]
  | some value => exact counterSteps_ok hfound nofun _ (mem_of_at (by rw [hname]; rfl))

/-! ### What is counted between two readings -/

/-- `CpuDelta`. -/
structure CpuDelta where
  /-- CPU time. -/
  usageUsec : ℕ
  /-- Periods. -/
  nrPeriods : ℕ
  /-- Throttled periods. -/
  nrThrottled : ℕ
  /-- Throttled time. -/
  throttledUsec : ℕ
  deriving DecidableEq

/-- `CpuDelta.model_validate`: every field is a `Counter`. -/
def CpuDelta.validate (d : CpuDelta) : Except Fault CpuDelta :=
  if d.usageUsec ≤ LIMIT ∧ d.nrPeriods ≤ LIMIT ∧ d.nrThrottled ≤ LIMIT ∧ d.throttledUsec ≤ LIMIT then .ok d
  else .error (.value "ValidationError")

/-- The names are the same, and no counter falls. -/
def Grows (first last : Counters) : Prop :=
  ((∀ f ∈ first, (last.lookup f.1).isSome = true) ∧ ∀ f ∈ last, (first.lookup f.1).isSome = true) ∧
    ∀ f ∈ first, f.2 ≤ last.at f.1

instance (first last : Counters) : Decidable (Grows first last) := inferInstanceAs (Decidable (_ ∧ _))

/-- What was counted between two readings. -/
def difference (first last : Counters) : CpuDelta where
  usageUsec := last.at "usage_usec" - first.at "usage_usec"
  nrPeriods := last.at "nr_periods" - first.at "nr_periods"
  nrThrottled := last.at "nr_throttled" - first.at "nr_throttled"
  throttledUsec := last.at "throttled_usec" - first.at "throttled_usec"

section Grows

variable {first mid last : Counters}

theorem Grows.rise {name : String} (h : Grows first last) (hname : (first.lookup name).isSome = true) :
    first.at name ≤ last.at name := h.2 _ (mem_of_at hname)

/-- **Growth is transitive**, whatever the names are. -/
theorem Grows.trans (h : Grows first mid) (h' : Grows mid last) : Grows first last := by
  refine ⟨⟨fun f hf => ?_, fun f hf => ?_⟩, fun f hf => ?_⟩
  · exact h'.1.1 (f.1, mid.at f.1) (mem_of_at (h.1.1 f hf))
  · exact h.1.2 (f.1, mid.at f.1) (mem_of_at (h'.1.2 f hf))
  · exact (h.2 f hf).trans (h'.rise (h.1.1 f hf))

/-- The delta of two stretches. -/
def CpuDelta.add (d d' : CpuDelta) : CpuDelta :=
  ⟨d.usageUsec + d'.usageUsec, d.nrPeriods + d'.nrPeriods, d.nrThrottled + d'.nrThrottled,
    d.throttledUsec + d'.throttledUsec⟩

/-- **What is counted adds up.** -/
theorem difference_add (h : Grows first mid) (h' : Grows mid last)
    (hfirst : ∀ name ∈ REQUIRED, (first.lookup name).isSome = true)
    (hmid : ∀ name ∈ REQUIRED, (mid.lookup name).isSome = true) :
    difference first last = (difference first mid).add (difference mid last) := by
  have hadd (name : String) (hname : name ∈ REQUIRED) :
      last.at name - first.at name = (mid.at name - first.at name) + (last.at name - mid.at name) := by
    have hrise := h.rise (hfirst name hname)
    have hrise' := h'.rise (hmid name hname)
    omega
  unfold difference CpuDelta.add
  rw [hadd "usage_usec" (by decide), hadd "nr_periods" (by decide), hadd "nr_throttled" (by decide),
    hadd "throttled_usec" (by decide)]

/-- A difference of counters is a counter. -/
theorem validate_difference (h : ∀ name, last.at name ≤ LIMIT) :
    (difference first last).validate = .ok (difference first last) :=
  if_pos ⟨(Nat.sub_le _ _).trans (h _), (Nat.sub_le _ _).trans (h _), (Nat.sub_le _ _).trans (h _),
    (Nat.sub_le _ _).trans (h _)⟩

end Grows

/-! ### Snapshots -/

section Model

variable [Platform]

deriving instance DecidableEq for Evidence.Trace.PodIdentity

/-- `CpuSnapshot`, as it may be copied without validation. -/
structure CpuSnapshot where
  /-- The incident. -/
  incidentId : Identifier
  /-- The container. -/
  identity : Evidence.Trace.PodIdentity
  /-- Before the files were read. -/
  startedAt : Time
  /-- After they were read. -/
  completedAt : Time
  /-- `cpu.stat`. -/
  cpuStat : String
  /-- `cpu.max`. -/
  cpuMax : String

/-- A text of `Raw`. -/
def rawOk (raw : String) : Bool := 1 ≤ raw.toList.length && raw.toList.length ≤ 4096

/-- Validation of a snapshot: `Raw`, and `bounded`. -/
def CpuSnapshot.bounded (s : CpuSnapshot) : Except Fault Unit := do
  refuse (¬(rawOk s.cpuStat = true ∧ rawOk s.cpuMax = true)) "ValidationError"
  refuse (¬(0 ≤ s.completedAt - s.startedAt ∧ s.completedAt - s.startedAt ≤ seconds 2))
    "CPU snapshot acquisition exceeds two seconds"
  let _ ← counters s.cpuStat
  let _ ← quota s.cpuMax
  return ()

/-- The second snapshot is of the same container, under the same quota, after the first one, and soon. -/
def Continues (before after : CpuSnapshot) : Prop :=
  before.incidentId = after.incidentId ∧ before.identity = after.identity ∧ before.completedAt ≤ after.startedAt ∧
    (0 < after.completedAt - before.startedAt ∧ after.completedAt - before.startedAt ≤ seconds 30)

instance (before after : CpuSnapshot) : Decidable (Continues before after) := inferInstanceAs (Decidable (_ ∧ _))

/-- `delta`. -/
def delta (before after : CpuSnapshot) : Except Fault CpuDelta := do
  -- both are validated again, as a copy may have bypassed their validation
  before.bounded
  after.bounded
  let limits ← quota before.cpuMax
  let limits' ← quota after.cpuMax
  refuse (¬Continues before after ∨ limits ≠ limits') "CPU measurement scope, time or quota changed"
  let first ← counters before.cpuStat
  let last ← counters after.cpuStat
  refuse (¬Grows first last) "CPU counters reset or their fields changed"
  refuse ((difference first last).nrPeriods < (difference first last).nrThrottled)
    "throttled period delta exceeds elapsed periods"
  (difference first last).validate

/-- **A delta that was derived**, and when it is. -/
theorem delta_ok {before after : CpuSnapshot} {d : CpuDelta} :
    delta before after = .ok d ↔ before.bounded = .ok () ∧ after.bounded = .ok () ∧ Continues before after ∧
      (∃ limits, quota before.cpuMax = .ok limits ∧ quota after.cpuMax = .ok limits) ∧
      ∃ first last, counters before.cpuStat = .ok first ∧ counters after.cpuStat = .ok last ∧ Grows first last ∧
        d = difference first last ∧ d.nrThrottled ≤ d.nrPeriods := by
  constructor
  · intro h
    obtain ⟨_, hbefore, h⟩ := bind_eq_ok.mp h
    obtain ⟨_, hafter, h⟩ := bind_eq_ok.mp h
    obtain ⟨limits, hlimits, h⟩ := bind_eq_ok.mp h
    obtain ⟨limits', hlimits', h⟩ := bind_eq_ok.mp h
    obtain ⟨_, hscope, h⟩ := bind_eq_ok.mp h
    obtain ⟨first, hfirst, h⟩ := bind_eq_ok.mp h
    obtain ⟨last, hlast, h⟩ := bind_eq_ok.mp h
    obtain ⟨_, hgrows, h⟩ := bind_eq_ok.mp h
    obtain ⟨_, hthrottled, h⟩ := bind_eq_ok.mp h
    rw [validate_difference (counters_ok hlast).1] at h
    cases h
    obtain ⟨hcontinues, hsame⟩ := not_or.mp (refuse_ok.mp hscope)
    obtain rfl := not_not.mp hsame
    exact ⟨hbefore, hafter, not_not.mp hcontinues, ⟨limits, hlimits, hlimits'⟩, first, last, hfirst, hlast,
      not_not.mp (refuse_ok.mp hgrows), rfl, not_lt.mp (refuse_ok.mp hthrottled)⟩
  · rintro ⟨hbefore, hafter, hcontinues, ⟨limits, hlimits, hlimits'⟩, first, last, hfirst, hlast, hgrows, rfl,
      hthrottled⟩
    refine bind_eq_ok.mpr ⟨(), hbefore, bind_eq_ok.mpr ⟨(), hafter, bind_eq_ok.mpr ⟨limits, hlimits, ?_⟩⟩⟩
    refine bind_eq_ok.mpr ⟨limits, hlimits', bind_eq_ok.mpr ⟨(), refuse_ok.mpr ?_, ?_⟩⟩
    · exact not_or.mpr ⟨not_not.mpr hcontinues, not_not.mpr rfl⟩
    refine bind_eq_ok.mpr ⟨first, hfirst, bind_eq_ok.mpr ⟨last, hlast, ?_⟩⟩
    refine bind_eq_ok.mpr ⟨(), refuse_ok.mpr (not_not.mpr hgrows), ?_⟩
    exact bind_eq_ok.mpr ⟨(), refuse_ok.mpr (not_lt.mpr hthrottled), validate_difference (counters_ok hlast).1⟩

/-- The deltas of a chain of snapshots, each the first of the next stretch. -/
inductive Chain : CpuSnapshot → List CpuDelta → CpuSnapshot → Prop where
  /-- One stretch. -/
  | one {before after : CpuSnapshot} {d : CpuDelta} : delta before after = .ok d → Chain before [d] after
  /-- One stretch before the others. -/
  | cons {before mid after : CpuSnapshot} {d : CpuDelta} {ds : List CpuDelta} :
      delta before mid = .ok d → Chain mid ds after → Chain before (d :: ds) after

/-- The sum of deltas. -/
def total (ds : List CpuDelta) : CpuDelta := ds.foldr CpuDelta.add ⟨0, 0, 0, 0⟩

theorem bounded_span {s : CpuSnapshot} (h : s.bounded = .ok ()) :
    0 ≤ s.completedAt - s.startedAt ∧ s.completedAt - s.startedAt ≤ seconds 2 := by
  obtain ⟨_, -, h⟩ := bind_eq_ok.mp h
  obtain ⟨_, hspan, -⟩ := bind_eq_ok.mp h
  exact not_not.mp (refuse_ok.mp hspan)

/-- **Deltas compose.** Along any chain of snapshots whose ends are at most thirty seconds apart, the delta of the ends
is derived, and it is the sum of the chain's. -/
theorem deltas_compose {before after : CpuSnapshot} {ds : List CpuDelta} (h : Chain before ds after)
    (hsoon : after.completedAt - before.startedAt ≤ seconds 30) : delta before after = .ok (total ds) := by
  induction h with
  | one hd => exact hd
  | @cons before mid after d ds hd _ ih =>
    obtain ⟨hbefore, hmid, hcontinues, ⟨limits, hlimits, hlimits'⟩, first, reading, hfirst, hreading, hgrows, hdiff,
      hle⟩ := delta_ok.mp hd
    obtain ⟨hincident, hidentity, horder, hpositive, -⟩ := hcontinues
    have hstart : before.startedAt ≤ mid.startedAt := (sub_nonneg.mp (bounded_span hbefore).1).trans horder
    have hrest : after.completedAt - mid.startedAt ≤ after.completedAt - before.startedAt := sub_le_sub_left hstart _
    have hread : mid.startedAt ≤ mid.completedAt := sub_nonneg.mp (bounded_span hmid).1
    obtain ⟨-, hafter, hcontinues', ⟨limits', hquota, hquota'⟩, reading', last, hreading', hlast, hgrows', hdiff',
      hle'⟩ := delta_ok.mp (ih (hrest.trans hsoon))
    obtain ⟨hincident', hidentity', horder', hpositive', -⟩ := hcontinues'
    obtain rfl : limits = limits' := Except.ok.inj (hlimits'.symm.trans hquota)
    obtain rfl : reading = reading' := Except.ok.inj (hreading.symm.trans hreading')
    have hadd := difference_add hgrows hgrows' (counters_ok hfirst).2 (counters_ok hreading).2
    rw [← hdiff, ← hdiff'] at hadd
    have hends : Continues before after := ⟨hincident.trans hincident', hidentity.trans hidentity',
      (horder.trans hread).trans horder', hpositive'.trans_le hrest, hsoon⟩
    refine delta_ok.mpr ⟨hbefore, hafter, hends, ⟨limits, hlimits, hquota'⟩, first, last, hfirst, hlast,
      hgrows.trans hgrows', hadd.symm, ?_⟩
    exact Nat.add_le_add hle hle'

end Model

/-! ### A container that is throttled -/

section Sample

/-- An instance of the parameters; the sample has ASCII texts only. -/
@[reducible] def countersPlatform : Platform where
  sha256 text := text
  patternWord _ := false
  reWord _ := false
  nesting := 64
  floatRepr text := text

attribute [local instance] countersPlatform

/-- The container of the sample. -/
def sampleContainer : Evidence.Trace.PodIdentity :=
  ⟨⟨"payments-api-cpu", by decide⟩, ⟨"pod-cpu", by decide⟩, ⟨"deployment-cpu", by decide⟩, ⟨"rs-cpu", by decide⟩,
    ⟨"containerd://cpu", by decide⟩, 17, by decide⟩

/-- A snapshot at a second, which takes no time. -/
def sampleSnapshot (second : ℕ) (cpuStat : String) : CpuSnapshot :=
  ⟨⟨"cpu-test", by decide⟩, sampleContainer, seconds second, seconds second, cpuStat, "10000 100000\n"⟩

/-- Before the load. -/
def idle : CpuSnapshot := sampleSnapshot 0
  "usage_usec 1000\nuser_usec 900\nsystem_usec 100\nnr_periods 10\nnr_throttled 2\nthrottled_usec 500\n"

/-- Under the load. -/
def loaded : CpuSnapshot := sampleSnapshot 2
  "usage_usec 201000\nuser_usec 190900\nsystem_usec 10100\nnr_periods 30\nnr_throttled 20\nthrottled_usec 1500500\n"

/-- After the load. -/
def settled : CpuSnapshot := sampleSnapshot 4
  "usage_usec 201000\nuser_usec 190900\nsystem_usec 10100\nnr_periods 50\nnr_throttled 20\nthrottled_usec 1500500\n"

/-- What the kernel counted before the load. -/
theorem idle_read : rawOk idle.cpuStat = true ∧ counters idle.cpuStat = .ok [("usage_usec", 1000), ("user_usec", 900),
    ("system_usec", 100), ("nr_periods", 10), ("nr_throttled", 2), ("throttled_usec", 500)] := by
  unfold rawOk counters
  delta idle sampleSnapshot
  dsimp only
  -- the characters of the literal are written out before the kernel reads them
  rw [String.toList_ofList]
  decide +kernel

/-- What it counted under the load. -/
theorem loaded_read : rawOk loaded.cpuStat = true ∧ counters loaded.cpuStat = .ok [("usage_usec", 201000),
    ("user_usec", 190900), ("system_usec", 10100), ("nr_periods", 30), ("nr_throttled", 20),
    ("throttled_usec", 1500500)] := by
  unfold rawOk counters
  delta loaded sampleSnapshot
  dsimp only
  rw [String.toList_ofList]
  decide +kernel

/-- What it counted after the load. -/
theorem settled_read : rawOk settled.cpuStat = true ∧ counters settled.cpuStat = .ok [("usage_usec", 201000),
    ("user_usec", 190900), ("system_usec", 10100), ("nr_periods", 50), ("nr_throttled", 20),
    ("throttled_usec", 1500500)] := by
  unfold rawOk counters
  delta settled sampleSnapshot
  dsimp only
  rw [String.toList_ofList]
  decide +kernel

theorem sample_limits : rawOk "10000 100000\n" = true ∧ quota "10000 100000\n" = .ok (10000, 100000) := by
  unfold rawOk quota
  rw [String.toList_ofList]
  decide +kernel

theorem sample_bounded {second : ℕ} {cpuStat : String} {found : Counters}
    (hread : rawOk cpuStat = true ∧ counters cpuStat = .ok found) : (sampleSnapshot second cpuStat).bounded = .ok () := by
  have hspan : 0 ≤ seconds second - seconds second ∧ seconds second - seconds second ≤ seconds 2 := by
    rw [sub_self]
    exact ⟨le_rfl, by decide⟩
  refine bind_eq_ok.mpr ⟨(), refuse_ok.mpr (not_not.mpr ⟨hread.1, sample_limits.1⟩), ?_⟩
  refine bind_eq_ok.mpr ⟨(), refuse_ok.mpr (not_not.mpr hspan), ?_⟩
  exact bind_eq_ok.mpr ⟨_, hread.2, bind_eq_ok.mpr ⟨_, sample_limits.2, rfl⟩⟩

theorem sample_deltas : delta idle loaded = .ok ⟨200000, 20, 18, 1500000⟩ ∧ delta loaded settled = .ok ⟨0, 20, 0, 0⟩ ∧
    settled.completedAt - idle.startedAt ≤ seconds 30 := by
  refine ⟨delta_ok.mpr ⟨sample_bounded idle_read, sample_bounded loaded_read, ⟨rfl, rfl, by decide⟩,
    ⟨_, sample_limits.2, sample_limits.2⟩, _, _, idle_read.2, loaded_read.2, by decide, by decide, by decide⟩,
    delta_ok.mpr ⟨sample_bounded loaded_read, sample_bounded settled_read, ⟨rfl, rfl, by decide⟩,
    ⟨_, sample_limits.2, sample_limits.2⟩, _, _, loaded_read.2, settled_read.2, by decide, by decide, by decide⟩,
    by decide⟩

/-- The delta over both stretches. -/
theorem deltas_compose_sample : delta idle settled = .ok (total [⟨200000, 20, 18, 1500000⟩, ⟨0, 20, 0, 0⟩]) :=
  deltas_compose (.cons sample_deltas.1 (.one sample_deltas.2.1)) sample_deltas.2.2

end Sample

end PayOps.Scenarios.CpuCounters
