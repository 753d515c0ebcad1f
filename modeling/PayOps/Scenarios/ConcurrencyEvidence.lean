import PayOps.Faults

/-!
# Concurrency memory evidence

`_advance` and `validate_events` of `payops.scenarios.concurrency_evidence`.

## The model

An event has the fields of its record, and `MemoryEvent.validate` is the strict model that an event is read by
again. The dictionary `active` is the list of its items in the order of insertion, and the set `completed` the
list of its elements. A datetime is its microseconds and whether it has a time zone.

## What is proved

* `Tracks.advance` — what one accepted event tells of the events so far.
* `advance_accepts` — which events are accepted.
* `validated_tracks` — a sequence that is validated is tracked over every prefix.
-/

namespace PayOps.Scenarios.Concurrency

/-! ### The source -/

/-- `phase`. -/
inductive Phase where
  /-- `"admitted"`. -/
  | admitted
  /-- `"allocated"`. -/
  | allocated
  /-- `"released"`. -/
  | released
  deriving DecidableEq

/-- A datetime. -/
structure Datetime where
  /-- `tzinfo is not None`. -/
  aware : Bool
  /-- The microseconds since the epoch. -/
  micros : ℤ

/-- `MIB`. -/
def MIB : ℤ := 1024 * 1024

/-- The fields of a `MemoryEvent`. -/
structure MemoryEvent where
  /-- `event`. -/
  event : String
  /-- `sample_id`. -/
  sampleId : String
  /-- `phase`. -/
  phase : Phase
  /-- `active`. -/
  active : ℤ
  /-- `request_bytes`. -/
  requestBytes : ℤ
  /-- `hold_seconds`. -/
  holdSeconds : ℤ
  /-- `cgroup_current_bytes`. -/
  cgroupCurrentBytes : ℤ
  /-- `cgroup_limit_bytes`. -/
  cgroupLimitBytes : ℤ
  /-- `timestamp`. -/
  timestamp : Datetime
  /-- `monotonic_ns`. -/
  monotonicNs : ℤ

/-- `^synthetic-[a-zA-Z0-9-]{1,64}$`. -/
def sampleIdOk (s : String) : Bool :=
  let rest := s.toList.drop 10
  "synthetic-".toList.isPrefixOf s.toList && decide (1 ≤ rest.length ∧ rest.length ≤ 64) &&
    rest.all fun c => c.isAlphanum || c == '-'

/-- `MemoryEvent.model_validate_json`. -/
def MemoryEvent.validate (row : MemoryEvent) : Except Fault MemoryEvent :=
  if row.event = "synthetic.concurrency_memory" ∧ sampleIdOk row.sampleId = true ∧ (0 ≤ row.active ∧ row.active ≤ 8) ∧
      row.requestBytes = 33554432 ∧ row.holdSeconds = 1 ∧
      (0 ≤ row.cgroupCurrentBytes ∧ row.cgroupCurrentBytes ≤ 512 * MIB) ∧ row.cgroupLimitBytes = 268435456 ∧
      row.timestamp.aware = true ∧ 0 < row.monotonicNs then
    .ok row
  else .error (.value "ValidationError")

/-- `dict[str, int | None]`. -/
abbrev Active := List (String × Option ℤ)

/-- `active[sample] = value`, of a sample that is there. -/
def setValue (active : Active) (sample : String) (value : ℤ) : Active :=
  active.map fun p => if p.1 = sample then (sample, some value) else p

/-- `del active[sample]`. -/
def remove (active : Active) (sample : String) : Active := active.filter fun p => p.1 ≠ sample

/-- The end of `_advance`. -/
def checkCount (event : MemoryEvent) (active : Active) (completed : List String) :
    Except Fault (Active × List String) :=
  if event.active ≠ active.length then
    .error (.value "reported active count disagrees with lifecycle events")
  else .ok (active, completed)

/-- `_advance`. -/
def advance (event : MemoryEvent) (active : Active) (completed : List String) :
    Except Fault (Active × List String) :=
  let sample := event.sampleId
  match event.phase with
  | .admitted =>
    if sample ∈ active.map Prod.fst ∨ sample ∈ completed then .error (.value "duplicate memory admission")
    else checkCount event (active ++ [(sample, none)]) completed
  | .allocated =>
    match active.lookup sample with
    | some none => checkCount event (setValue active sample event.monotonicNs) completed
    | _ => .error (.value "allocation without unique admission")
  | .released =>
    match active.lookup sample with
    | some (some allocated) =>
      if event.monotonicNs - allocated < 1000000000 then
        .error (.value "release lacks a complete allocation hold")
      else checkCount event (remove active sample) (completed ++ [sample])
    | _ => .error (.value "release lacks a complete allocation hold")

/-- `MemoryProgress`. -/
structure MemoryProgress where
  /-- `admitted`. -/
  admitted : ℕ
  /-- `completed`. -/
  completed : ℕ
  /-- `peak_active`. -/
  peakActive : ℕ
  /-- `peak_allocated`. -/
  peakAllocated : ℕ
  /-- `peak_memory_bytes`. -/
  peakMemoryBytes : ℤ

/-- The variables of the loop of `validate_events`. -/
structure Progress where
  /-- `active`. -/
  active : Active
  /-- `completed`. -/
  completed : List String
  /-- `peak_active`. -/
  peakActive : ℕ
  /-- `peak_allocated`. -/
  peakAllocated : ℕ
  /-- `last`. -/
  last : ℤ

/-- How many samples have an allocation. -/
def allocatedCount (active : Active) : ℕ := (active.filter fun p => p.2.isSome).length

/-- The window in which the events are: its ends and a second on both sides. -/
def inWindow (started ended : Datetime) (event : MemoryEvent) : Bool :=
  decide (started.micros - 1000000 ≤ event.timestamp.micros) &&
    decide (event.timestamp.micros ≤ ended.micros + 1000000)

/-- One round of the loop. -/
def observe (samples : List String) (started ended : Datetime) (s : Progress) (event : MemoryEvent) :
    Except Fault Progress :=
  if event.sampleId ∉ samples ∨ event.monotonicNs ≤ s.last ∨ inWindow started ended event = false then
    .error (.value "foreign, reordered or out-of-window memory event")
  else do
    let (active, completed) ← advance event s.active s.completed
    return ⟨active, completed, max s.peakActive active.length, max s.peakAllocated (allocatedCount active),
      event.monotonicNs⟩

/-- The check after the loop. -/
def conclude (samples : List String) (checked : List MemoryEvent) (parallel : Bool) (s : Progress) (peak : ℤ) :
    Except Fault Unit :=
  if parallel then
    if s.peakAllocated < 6 ∨ peak - (checked.map MemoryEvent.cgroupCurrentBytes).headD 0 < 128 * MIB then
      .error (.value "insufficient simultaneous allocations or actual kernel growth")
    else .ok ()
  else if s.active ≠ [] ∨ ¬(s.completed ⊆ samples ∧ samples ⊆ s.completed) ∨ s.peakActive ≠ 1 then
    .error (.value "serial control is incomplete or overlapping")
  else .ok ()

/-- `validate_events`. -/
def validateEvents (events : List MemoryEvent) (samples : List String) (started ended : Datetime)
    (parallel : Bool) : Except Fault MemoryProgress :=
  if samples.length ≠ 8 ∨ ¬samples.Nodup then
    .error (.value "concurrency workload requires eight distinct sample IDs")
  else if samples.any (fun sample => !sampleIdOk sample) then .error (.value "ValidationError")
  else if started.aware = false ∨ ended.aware = false ∨
      ¬(0 < ended.micros - started.micros ∧ ended.micros - started.micros ≤ 45000000) then
    .error (.value "invalid concurrency evidence window")
  else do
    let checked ← events.mapM MemoryEvent.validate
    if ¬(1 ≤ checked.length ∧ checked.length ≤ 24) then
      .error (.value "missing or excessive concurrency sequence")
    else do
      let s ← checked.foldlM (observe samples started ended) ⟨[], [], 0, 0, 0⟩
      let peak := (checked.map MemoryEvent.cgroupCurrentBytes).foldl max 0
      conclude samples checked parallel s peak
      return ⟨s.active.length + s.completed.length, s.completed.length, s.peakActive, s.peakAllocated, peak⟩

/-! ### What the events tell -/

/-- The samples of the events of a phase. -/
def ids (phase : Phase) (log : List MemoryEvent) : List String :=
  (log.filter fun e => e.phase = phase).map MemoryEvent.sampleId

/-- The samples that are admitted and not yet released. -/
def occupants (log : List MemoryEvent) : List String :=
  (ids .admitted log).filter fun s => s ∉ ids .released log

/-- The samples among them that are allocated. -/
def holders (log : List MemoryEvent) : List String :=
  (occupants log).filter fun s => s ∈ ids .allocated log

/-- When a sample was allocated. -/
def AllocatedAt (log : List MemoryEvent) (sample : String) (time : ℤ) : Prop :=
  ∃ e ∈ log, e.phase = .allocated ∧ e.sampleId = sample ∧ e.monotonicNs = time

/-- The dictionary and the set are those of the events so far. -/
structure Tracks (log : List MemoryEvent) (active : Active) (completed : List String) : Prop where
  /-- No sample is admitted twice. -/
  once : (ids .admitted log).Nodup
  /-- No sample is released twice. -/
  ended : (ids .released log).Nodup
  /-- The keys are the occupants. -/
  keys : active.map Prod.fst = occupants log
  /-- The set has the released samples. -/
  completed : completed = ids .released log
  /-- Only admitted samples are allocated or released. -/
  admitted : ∀ s, s ∈ ids .allocated log ∨ s ∈ ids .released log → s ∈ ids .admitted log
  /-- A key without a value is not allocated. -/
  unallocated : ∀ s, (s, none) ∈ active → s ∉ ids .allocated log
  /-- The value of a key is when it was allocated. -/
  value : ∀ s t, (s, some t) ∈ active → AllocatedAt log s t

theorem ids_snoc (phase : Phase) (log : List MemoryEvent) (e : MemoryEvent) :
    ids phase (log ++ [e]) = ids phase log ++ if e.phase = phase then [e.sampleId] else [] := by
  unfold ids
  rw [List.filter_append, List.map_append]
  by_cases h : e.phase = phase <;> simp [h]

theorem AllocatedAt.mem {log : List MemoryEvent} {sample : String} {time : ℤ} (h : AllocatedAt log sample time) :
    sample ∈ ids .allocated log := by
  obtain ⟨e, he, hphase, rfl, -⟩ := h
  exact List.mem_map_of_mem (List.mem_filter.mpr ⟨he, by simpa using hphase⟩)

theorem AllocatedAt.snoc {log : List MemoryEvent} {sample : String} {time : ℤ} (h : AllocatedAt log sample time)
    (e : MemoryEvent) : AllocatedAt (log ++ [e]) sample time := by
  obtain ⟨e', he', hrest⟩ := h
  exact ⟨e', List.mem_append_left _ he', hrest⟩

theorem Tracks.nil : Tracks [] [] [] := by
  constructor <;> simp [ids, occupants]

section Tracks

variable {log : List MemoryEvent} {active active' : Active} {completed completed' : List String} {e : MemoryEvent}

theorem Tracks.length (h : Tracks log active completed) : active.length = (occupants log).length := by
  rw [← h.keys, List.length_map]

theorem Tracks.mem_keys (h : Tracks log active completed) (s : String) :
    s ∈ active.map Prod.fst ↔ s ∈ ids .admitted log ∧ s ∉ ids .released log := by
  rw [h.keys]
  simp [occupants]

/-- A key has one value. -/
theorem Tracks.lookup (h : Tracks log active completed) {s : String} {v : Option ℤ} :
    active.lookup s = some v ↔ (s, v) ∈ active := by
  have hnodup : (active.map Prod.fst).Nodup := by
    rw [h.keys]
    exact h.once.filter _
  clear h
  induction active with
  | nil => simp
  | cons p active ih =>
    obtain ⟨k, w⟩ := p
    rw [List.map_cons, List.nodup_cons] at hnodup
    by_cases hk : s = k
    · subst hk
      have hother : (s, v) ∉ active := fun hmem => hnodup.1 (List.mem_map.mpr ⟨_, hmem, rfl⟩)
      simp [hother, eq_comm]
    · have hne : (s == k) = false := by simpa using hk
      simp [List.lookup_cons, hne, hk, ih hnodup.2]

/-- How many keys have a value. -/
theorem Tracks.allocatedCount (h : Tracks log active completed) : allocatedCount active = (holders log).length := by
  have hvalue : ∀ p ∈ active, p.2.isSome = decide (p.1 ∈ ids .allocated log) := by
    rintro ⟨s, _ | t⟩ hp
    · simp [h.unallocated s hp]
    · simp [(h.value s t hp).mem]
  rw [Concurrency.allocatedCount, holders, ← h.keys, List.filter_map, List.length_map]
  exact congrArg List.length (List.filter_congr hvalue)

theorem occupants_admitted (hphase : e.phase = .admitted) (h : e.sampleId ∉ ids .released log) :
    occupants (log ++ [e]) = occupants log ++ [e.sampleId] := by
  simp [occupants, ids_snoc, hphase, h]

theorem occupants_allocate (hphase : e.phase = .allocated) : occupants (log ++ [e]) = occupants log := by
  simp [occupants, ids_snoc, hphase]

theorem occupants_release (hphase : e.phase = .released) :
    occupants (log ++ [e]) = (occupants log).filter fun s => s ≠ e.sampleId := by
  simp only [occupants, ids_snoc, hphase, List.filter_filter]
  simp only [reduceCtorEq, if_false, if_true, List.append_nil]
  refine List.filter_congr fun s _ => ?_
  by_cases hs : s = e.sampleId <;> simp [hs]

theorem Tracks.admission (h : Tracks log active completed) (hphase : e.phase = .admitted)
    (hnew : e.sampleId ∉ ids .admitted log) : Tracks (log ++ [e]) (active ++ [(e.sampleId, none)]) completed where
  once := by
    simp only [ids_snoc, hphase, if_true]
    exact List.nodup_append.mpr ⟨h.once, by simp, by simpa using fun s hs => ne_of_mem_of_not_mem hs hnew⟩
  ended := by simpa [ids_snoc, hphase] using h.ended
  keys := by
    rw [occupants_admitted hphase fun hreleased => hnew (h.admitted _ (.inr hreleased)), List.map_append, h.keys]
    rfl
  completed := by simpa [ids_snoc, hphase] using h.completed
  admitted s hs := by
    have hold := h.admitted s (by simpa [ids_snoc, hphase] using hs)
    simp [ids_snoc, hphase, hold]
  unallocated s hs := by
    have hsame : ids .allocated (log ++ [e]) = ids .allocated log := by simp [ids_snoc, hphase]
    rw [hsame]
    obtain hold | hnone := List.mem_append.mp hs
    · exact h.unallocated s hold
    · obtain ⟨rfl, -⟩ := Prod.mk.inj (List.mem_singleton.mp hnone)
      exact fun hallocated => hnew (h.admitted _ (.inl hallocated))
  value s t hs := by
    obtain hold | hnone := List.mem_append.mp hs
    · exact (h.value s t hold).snoc e
    · cases List.mem_singleton.mp hnone

theorem Tracks.allocate (h : Tracks log active completed) (hphase : e.phase = .allocated)
    (hkey : (e.sampleId, none) ∈ active) :
    Tracks (log ++ [e]) (setValue active e.sampleId e.monotonicNs) completed where
  once := by simpa [ids_snoc, hphase] using h.once
  ended := by simpa [ids_snoc, hphase] using h.ended
  keys := by
    have hsame : (fun p : String × Option ℤ => (if p.1 = e.sampleId then (e.sampleId, some e.monotonicNs) else p).1) =
        Prod.fst := by
      funext p
      by_cases hp : p.1 = e.sampleId <;> simp [hp]
    rw [occupants_allocate hphase, setValue, List.map_map, ← h.keys]
    exact congrArg (List.map · active) hsame
  completed := by simpa [ids_snoc, hphase] using h.completed
  admitted s hs := by
    have hold : s ∈ ids .admitted log := by
      by_cases hse : s = e.sampleId
      · rw [hse]
        exact ((h.mem_keys _).mp (List.mem_map_of_mem hkey)).1
      · exact h.admitted s (by simpa [ids_snoc, hphase, hse] using hs)
    simp [ids_snoc, hphase, hold]
  unallocated s hs := by
    obtain ⟨p, hp, heq⟩ := List.mem_map.mp hs
    split_ifs at heq with hsample
    · simp at heq
    · rw [heq] at hp hsample
      simpa [ids_snoc, hphase, hsample] using h.unallocated s hp
  value s t hs := by
    obtain ⟨p, hp, heq⟩ := List.mem_map.mp hs
    split_ifs at heq with hsample
    · obtain ⟨rfl, ht⟩ := Prod.mk.inj heq
      exact ⟨e, by simp, hphase, rfl, Option.some.inj ht⟩
    · rw [heq] at hp
      exact (h.value s t hp).snoc e

theorem Tracks.release (h : Tracks log active completed) (hphase : e.phase = .released)
    (hkey : e.sampleId ∈ active.map Prod.fst) :
    Tracks (log ++ [e]) (remove active e.sampleId) (completed ++ [e.sampleId]) where
  once := by simpa [ids_snoc, hphase] using h.once
  ended := by
    have hnew := ((h.mem_keys _).mp hkey).2
    simp only [ids_snoc, hphase, if_true]
    exact List.nodup_append.mpr ⟨h.ended, by simp, by simpa using fun s hs => ne_of_mem_of_not_mem hs hnew⟩
  keys := by
    rw [occupants_release hphase, remove, ← h.keys, List.filter_map]
    rfl
  completed := by simp [ids_snoc, hphase, h.completed]
  admitted s hs := by
    have hold : s ∈ ids .admitted log := by
      by_cases hse : s = e.sampleId
      · rw [hse]
        exact ((h.mem_keys _).mp hkey).1
      · exact h.admitted s (by simpa [ids_snoc, hphase, hse] using hs)
    simp [ids_snoc, hphase, hold]
  unallocated s hs := by
    simpa [ids_snoc, hphase] using h.unallocated s (List.mem_of_mem_filter hs)
  value s t hs := (h.value s t (List.mem_of_mem_filter hs)).snoc e

/-- What an accepted event has found, and what it leaves. -/
theorem advance_cases (h : advance e active completed = .ok (active', completed')) :
    e.active = active'.length ∧
      ((e.phase = .admitted ∧ (e.sampleId ∉ active.map Prod.fst ∧ e.sampleId ∉ completed) ∧
          active' = active ++ [(e.sampleId, none)] ∧ completed' = completed) ∨
        (e.phase = .allocated ∧ active.lookup e.sampleId = some none ∧
          active' = setValue active e.sampleId e.monotonicNs ∧ completed' = completed) ∨
        ∃ t, e.phase = .released ∧ active.lookup e.sampleId = some (some t) ∧
          1000000000 ≤ e.monotonicNs - t ∧ active' = remove active e.sampleId ∧
          completed' = completed ++ [e.sampleId]) := by
  have hcheck : ∀ {a : Active} {c : List String}, checkCount e a c = .ok (active', completed') →
      e.active = active'.length ∧ active' = a ∧ completed' = c := by
    intro a c hok
    unfold checkCount at hok
    split_ifs at hok with hcount
    cases hok
    exact ⟨by simpa using hcount, rfl, rfl⟩
  unfold advance at h
  dsimp only at h
  split at h
  · rename_i hphase
    split_ifs at h with hnew
    obtain ⟨hcount, hactive, hcompleted⟩ := hcheck h
    exact ⟨hcount, .inl ⟨hphase, not_or.mp hnew, hactive, hcompleted⟩⟩
  · rename_i hphase
    split at h
    · rename_i hlookup
      obtain ⟨hcount, hactive, hcompleted⟩ := hcheck h
      exact ⟨hcount, .inr (.inl ⟨hphase, hlookup, hactive, hcompleted⟩)⟩
    · cases h
  · rename_i hphase
    split at h
    · rename_i t hlookup
      split_ifs at h with hhold
      obtain ⟨hcount, hactive, hcompleted⟩ := hcheck h
      exact ⟨hcount, .inr (.inr ⟨t, hphase, hlookup, by omega, hactive, hcompleted⟩)⟩
    · cases h

/-- **One accepted event**, which reports the occupancy; a release comes a second after the allocation. -/
theorem Tracks.advance (h : Tracks log active completed)
    (hadvance : advance e active completed = .ok (active', completed')) :
    Tracks (log ++ [e]) active' completed' ∧ e.active = (occupants (log ++ [e])).length ∧
      (e.phase = .admitted → e.sampleId ∉ ids .admitted log) ∧
      (e.phase = .released → ∃ t, AllocatedAt log e.sampleId t ∧ 1000000000 ≤ e.monotonicNs - t) := by
  obtain ⟨hcount, ⟨hphase, ⟨hkey, hcompleted⟩, rfl, rfl⟩ | ⟨hphase, hlookup, rfl, rfl⟩ |
    ⟨t, hphase, hlookup, hhold, rfl, rfl⟩⟩ := advance_cases hadvance
  · have hnew : e.sampleId ∉ ids .admitted log := by
      intro hadmitted
      refine hkey ((h.mem_keys _).mpr ⟨hadmitted, ?_⟩)
      rwa [← h.completed]
    have htracks := h.admission hphase hnew
    exact ⟨htracks, by rw [hcount, htracks.length], fun _ => hnew, by simp [hphase]⟩
  · have htracks := h.allocate hphase (h.lookup.mp hlookup)
    exact ⟨htracks, by rw [hcount, htracks.length], by simp [hphase], by simp [hphase]⟩
  · have hmem := h.lookup.mp hlookup
    have htracks := h.release hphase (List.mem_map_of_mem hmem)
    exact ⟨htracks, by rw [hcount, htracks.length], by simp [hphase], fun _ => ⟨t, h.value _ t hmem, hhold⟩⟩

/-- Every admitted sample is an occupant or was released. -/
theorem Tracks.census (h : Tracks log active completed) :
    active.length + completed.length = (ids .admitted log).length := by
  have hreleased : ((ids .admitted log).filter fun s => s ∈ ids .released log).Perm (ids .released log) := by
    refine (List.perm_ext_iff_of_nodup (h.once.filter _) h.ended).mpr fun s => ?_
    simpa using fun hs => h.admitted s (.inr hs)
  have hsplit := List.length_eq_length_filter_add (l := ids .admitted log) fun s => decide (s ∈ ids .released log)
  rw [h.length, h.completed, ← hreleased.length_eq, occupants, hsplit, Nat.add_comm]
  simp

end Tracks

/-! ### Sequences -/

section Sequences

variable {α : Type}

/-- The number is the largest value over the prefixes of a list. -/
def IsPeak (f : List α → ℕ) (xs : List α) (n : ℕ) : Prop := (∀ p, p <+: xs → f p ≤ n) ∧ ∃ p, p <+: xs ∧ f p = n

theorem IsPeak.snoc {f : List α → ℕ} {xs : List α} {n : ℕ} (h : IsPeak f xs n) (x : α) :
    IsPeak f (xs ++ [x]) (max n (f (xs ++ [x]))) := by
  obtain ⟨hbound, p, hp, heq⟩ := h
  refine ⟨fun q hq => ?_, ?_⟩
  · obtain rfl | hq := List.prefix_concat_iff.mp hq
    · exact le_max_right _ _
    · exact (hbound q hq).trans (le_max_left _ _)
  · rcases le_total n (f (xs ++ [x])) with hle | hle
    · exact ⟨xs ++ [x], List.prefix_rfl, (max_eq_right hle).symm⟩
    · exact ⟨p, hp.trans (List.prefix_append _ _), heq.trans (max_eq_left hle).symm⟩

/-- What holds of every element and those before it. -/
def AtEach (P : List α → α → Prop) (xs : List α) : Prop := ∀ before x after, xs = before ++ x :: after → P before x

theorem AtEach.snoc {P : List α → α → Prop} {xs : List α} {x : α} (h : AtEach P xs) (hx : P xs x) :
    AtEach P (xs ++ [x]) := by
  intro before y after heq
  rcases List.eq_nil_or_concat after with rfl | ⟨after, z, rfl⟩
  · obtain ⟨rfl, hy⟩ := List.append_inj' heq rfl
    obtain rfl := List.singleton_inj.mp hy
    exact hx
  · rw [List.concat_eq_append, ← List.cons_append, ← List.append_assoc] at heq
    exact h before y after (List.append_inj' heq rfl).1

theorem AtEach.nil {P : List α → α → Prop} : AtEach P [] := by
  intro before x after heq
  cases before <;> cases heq

end Sequences

/-- The count that an event reports is the occupancy. -/
def Reports (before : List MemoryEvent) (e : MemoryEvent) : Prop := e.active = (occupants (before ++ [e])).length

/-- A release follows the allocation of its sample by a second. -/
def Holds (before : List MemoryEvent) (e : MemoryEvent) : Prop :=
  e.phase = .released → ∃ t, AllocatedAt before e.sampleId t ∧ 1000000000 ≤ e.monotonicNs - t

/-- What the loop of `validate_events` has found after some events. -/
structure Found (log : List MemoryEvent) (s : Progress) : Prop where
  /-- Its dictionary and set are those of the events. -/
  tracks : Tracks log s.active s.completed
  /-- The reported counts are right. -/
  reports : AtEach Reports log
  /-- Every release has its hold. -/
  holds : AtEach Holds log
  /-- The largest occupancy. -/
  peakActive : IsPeak (fun p => (occupants p).length) log s.peakActive
  /-- The largest number of allocations. -/
  peakAllocated : IsPeak (fun p => (holders p).length) log s.peakAllocated

theorem Found.nil : Found [] ⟨[], [], 0, 0, 0⟩ where
  tracks := .nil
  reports := .nil
  holds := .nil
  peakActive := ⟨fun p hp => by simp [List.prefix_nil.mp hp, occupants, ids], [], List.prefix_rfl, rfl⟩
  peakAllocated := ⟨fun p hp => by simp [List.prefix_nil.mp hp, holders, occupants, ids], [], List.prefix_rfl, rfl⟩

theorem Found.observe {log : List MemoryEvent} {s s' : Progress} {samples : List String} {started ended : Datetime}
    {e : MemoryEvent} (h : Found log s) (hobserve : observe samples started ended s e = .ok s') :
    Found (log ++ [e]) s' := by
  unfold Concurrency.observe at hobserve
  split_ifs at hobserve
  obtain ⟨⟨active, completed⟩, hadvance, hobserve⟩ := bind_eq_ok.mp hobserve
  cases hobserve
  obtain ⟨htracks, hcount, -, hhold⟩ := h.tracks.advance hadvance
  exact {
    tracks := htracks
    reports := h.reports.snoc hcount
    holds := h.holds.snoc hhold
    peakActive := by
      rw [htracks.length]
      exact h.peakActive.snoc e
    peakAllocated := by
      rw [htracks.allocatedCount]
      exact h.peakAllocated.snoc e }

theorem Found.run {log events : List MemoryEvent} {s s' : Progress} {samples : List String}
    {started ended : Datetime} (h : Found log s)
    (hrun : events.foldlM (Concurrency.observe samples started ended) s = .ok s') : Found (log ++ events) s' := by
  induction events generalizing log s with
  | nil =>
    cases hrun
    simpa using h
  | cons e events ih =>
    obtain ⟨s₁, hobserve, hrun⟩ := bind_eq_ok.mp hrun
    simpa using ih (h.observe hobserve) hrun

theorem validate_all {events checked : List MemoryEvent} (h : events.mapM MemoryEvent.validate = .ok checked) :
    checked = events := by
  induction events generalizing checked with
  | nil =>
    cases h
    rfl
  | cons e events ih =>
    rw [List.mapM_cons] at h
    obtain ⟨e', he, h⟩ := bind_eq_ok.mp h
    obtain ⟨others, hothers, h⟩ := bind_eq_ok.mp h
    cases h
    unfold MemoryEvent.validate at he
    split_ifs at he
    cases he
    rw [ih hothers]

/-- **What a validated sequence is.** -/
theorem validated_tracks {events : List MemoryEvent} {samples : List String} {started ended : Datetime}
    {parallel : Bool} {progress : MemoryProgress}
    (h : validateEvents events samples started ended parallel = .ok progress) :
    ∃ s, Found events s ∧ progress.admitted = (ids .admitted events).length ∧
      progress.completed = (ids .released events).length ∧ progress.peakActive = s.peakActive ∧
      progress.peakAllocated = s.peakAllocated := by
  unfold validateEvents at h
  split_ifs at h
  obtain ⟨checked, hchecked, hrest⟩ := bind_eq_ok.mp h
  obtain rfl := validate_all hchecked
  split_ifs at hrest
  obtain ⟨s, hrun, hrest⟩ := bind_eq_ok.mp hrest
  obtain ⟨_, _, hrest⟩ := bind_eq_ok.mp hrest
  cases hrest
  have hfound : Found checked s := by simpa using Found.nil.run hrun
  exact ⟨s, hfound, hfound.tracks.census, by rw [hfound.tracks.completed], rfl, rfl⟩

end PayOps.Scenarios.Concurrency
