import PayOps.Scenarios.ConcurrencyEvidence

/-!
# Concurrent memory

`ConcurrentMemory` of `payops.sandbox.concurrency_memory`, and the records that its calls leave.

## The model

One event loop runs the calls, and a call gives it up only where it sleeps: it enters in one step, with its
first two records, and leaves in another one with its last. A call that is refused, for whatever reason, leaves
nothing. A step is given the readings of its records: the clocks and the memory of the container.

## What is proved

* `Inv.step` — what every step keeps.
* `concurrency_refined` — the validator follows every run, and what it accepts is what has happened.
-/

namespace PayOps.Sandbox.ConcurrencyMemory

open Scenarios.Concurrency

/-! ### The source -/

/-- `MAX_ACTIVE`. -/
def MAX_ACTIVE : ℕ := 8

/-- What a record reads: `memory_value`, `datetime.now` and `monotonic_ns`. -/
structure Reading where
  /-- `memory.current`. -/
  current : ℤ
  /-- `memory.max`. -/
  limit : ℤ
  /-- `datetime.now(UTC)`. -/
  now : Datetime
  /-- `monotonic_ns()`. -/
  monotonicNs : ℤ

/-- `ConcurrentMemory`, the calls that sleep with the time of their allocation, and the records so far. -/
structure ConcurrentMemory where
  /-- `enabled`. -/
  enabled : Bool
  /-- `closed`. -/
  closed : Bool
  /-- `active`. -/
  active : ℕ
  /-- The calls that sleep. -/
  sleeping : List (String × ℤ)
  /-- The sample ids of the calls so far. -/
  called : List String
  /-- The records. -/
  log : List MemoryEvent

/-- `_record`. -/
def ConcurrentMemory.record (s : ConcurrentMemory) (sampleId : String) (phase : Phase) (r : Reading) :
    ConcurrentMemory :=
  { s with log := s.log ++ [⟨"synthetic.concurrency_memory", sampleId, phase, s.active, 32 * 1024 * 1024, 1,
      r.current, r.limit, r.now, r.monotonicNs⟩] }

/-- `run`, up to its sleep. -/
def ConcurrentMemory.enter (s : ConcurrentMemory) (sampleId : String) (first second : Reading) : ConcurrentMemory :=
  let entered := { s with active := s.active + 1 }
  let recorded := (entered.record sampleId .admitted first).record sampleId .allocated second
  { recorded with sleeping := s.sleeping ++ [(sampleId, second.monotonicNs)], called := s.called ++ [sampleId] }

/-- `run`, from the end of its sleep. -/
def ConcurrentMemory.leave (s : ConcurrentMemory) (sampleId : String) (r : Reading) : ConcurrentMemory :=
  let left := { s with active := s.active - 1, sleeping := s.sleeping.filter fun p => p.1 ≠ sampleId }
  left.record sampleId .released r

/-- The clock is past the records so far. -/
def Past (log : List MemoryEvent) (r : Reading) : Prop := ∀ e ∈ log, e.monotonicNs < r.monotonicNs

/-- One step of the event loop. The clock goes on from record to record, a sleep takes a second, and every call
has a sample id of its own. -/
inductive Step : ConcurrentMemory → ConcurrentMemory → Prop where
  /-- A call is admitted. -/
  | enter {s : ConcurrentMemory} {sampleId : String} {first second : Reading} :
      s.closed = false → s.enabled = true → Scenarios.Concurrency.sampleIdOk sampleId = true → s.active < MAX_ACTIVE →
      sampleId ∉ s.called → Past s.log first → first.monotonicNs < second.monotonicNs →
      Step s (s.enter sampleId first second)
  /-- A call is refused, or returns at once. -/
  | refuse {s : ConcurrentMemory} {sampleId : String} : sampleId ∉ s.called →
      Step s { s with called := s.called ++ [sampleId] }
  /-- A call has slept. -/
  | leave {s : ConcurrentMemory} {sampleId : String} {allocated : ℤ} {r : Reading} :
      (sampleId, allocated) ∈ s.sleeping → Past s.log r → allocated + 1000000000 ≤ r.monotonicNs →
      Step s (s.leave sampleId r)
  /-- `close`. -/
  | close {s : ConcurrentMemory} : Step s { s with closed := true }

/-- The states that a run may come to. -/
inductive Reachable (enabled : Bool) : ConcurrentMemory → Prop where
  /-- `ConcurrentMemory(enabled)`. -/
  | new : Reachable enabled ⟨enabled, false, 0, [], [], []⟩
  /-- One more step. -/
  | step {s s' : ConcurrentMemory} : Reachable enabled s → Step s s' → Reachable enabled s'

/-! ### The validator over the records -/

/-- `_advance`, event by event. -/
def replay (log : List MemoryEvent) : Except Fault (Active × List String) :=
  log.foldlM (fun p e => advance e p.1 p.2) ([], [])

theorem replay_snoc {log : List MemoryEvent} {active : Active} {completed : List String}
    (h : replay log = .ok (active, completed)) (e : MemoryEvent) :
    replay (log ++ [e]) = advance e active completed := by
  unfold replay at h ⊢
  rw [List.foldlM_append, h]
  show (advance e active completed >>= fun p => .ok p) = _
  cases advance e active completed <;> rfl

/-- What is accepted as a whole is accepted event by event. -/
theorem replay_prefix {log : List MemoryEvent} {result : Active × List String} (h : replay log = .ok result)
    {p : List MemoryEvent} (hp : p <+: log) : ∃ found, replay p = .ok found := by
  obtain ⟨rest, rfl⟩ := hp
  unfold replay at h ⊢
  rw [List.foldlM_append] at h
  obtain ⟨found, hfound, -⟩ := bind_eq_ok.mp h
  exact ⟨found, hfound⟩

theorem replay_tracks {log : List MemoryEvent} {active : Active} {completed : List String}
    (h : replay log = .ok (active, completed)) : Tracks log active completed := by
  induction log using List.reverseRecOn generalizing active completed with
  | nil =>
    cases h
    exact .nil
  | append_singleton log e ih =>
    obtain ⟨⟨before, done⟩, hbefore⟩ := replay_prefix h (List.prefix_append log [e])
    rw [replay_snoc hbefore] at h
    exact ((ih hbefore).advance h).1

/-- What every step keeps: the dictionary of the validator has the calls that sleep. -/
structure Inv (s : ConcurrentMemory) : Prop where
  /-- The validator accepts the records. -/
  accepted : ∃ completed, replay s.log = .ok (s.sleeping.map fun p => (p.1, some p.2), completed)
  /-- The counter is the number of calls that sleep. -/
  active : s.active = s.sleeping.length
  /-- There is room for them. -/
  bound : s.active ≤ MAX_ACTIVE
  /-- Only calls are admitted. -/
  called : ∀ sampleId, sampleId ∈ ids .admitted s.log → sampleId ∈ s.called
  /-- There always was room. -/
  room : ∀ p, p <+: s.log → (occupants p).length ≤ MAX_ACTIVE

/-- One item of a dictionary is removed with its key. -/
theorem length_remove {β : Type} {items : List (String × β)} {key : String} {value : β}
    (hkeys : (items.map Prod.fst).Nodup) (h : (key, value) ∈ items) :
    (items.filter fun p => p.1 ≠ key).length + 1 = items.length := by
  induction items with
  | nil => cases h
  | cons p items ih =>
    rw [List.map_cons, List.nodup_cons] at hkeys
    by_cases hp : p.1 = key
    · have hothers : items.filter (fun p => p.1 ≠ key) = items := by
        refine List.filter_eq_self.mpr fun q hq => ?_
        have hne : q.1 ≠ key := fun heq => hkeys.1 (hp ▸ heq ▸ List.mem_map_of_mem hq)
        simpa using hne
      simp only [ne_eq, decide_not] at hothers
      simp [hp, hothers]
    · have hmem : (key, value) ∈ items := by
        rcases List.mem_cons.mp h with heq | hmem
        · exact absurd (by rw [← heq]) hp
        · exact hmem
      have hlength := ih hkeys.2 hmem
      simp only [ne_eq, decide_not] at hlength
      simp [hp, hlength]

section Steps

variable {s s' : ConcurrentMemory} {sampleId : String}

theorem Inv.new (enabled : Bool) : Inv ⟨enabled, false, 0, [], [], []⟩ where
  accepted := ⟨[], rfl⟩
  active := rfl
  bound := Nat.zero_le _
  called sampleId h := by simp [ids] at h
  room p hp := by simp [List.prefix_nil.mp hp, occupants, ids]

/-- The room after one more record. -/
theorem room_snoc {log : List MemoryEvent} {e : MemoryEvent} {n : ℕ}
    (h : ∀ p, p <+: log → (occupants p).length ≤ n) (he : (occupants (log ++ [e])).length ≤ n) :
    ∀ p, p <+: log ++ [e] → (occupants p).length ≤ n := by
  intro p hp
  obtain rfl | hp := List.prefix_concat_iff.mp hp
  · exact he
  · exact h p hp

/-- An allocation is noted where the sample is the last one admitted. -/
theorem setValue_last {active : Active} {sample : String} (h : sample ∉ active.map Prod.fst) (value : ℤ) :
    setValue (active ++ [(sample, none)]) sample value = active ++ [(sample, some value)] := by
  have hothers : (active.map fun p => if p.1 = sample then (sample, some value) else p) = active := by
    refine (List.map_congr_left fun p hp => if_neg ?_).trans (List.map_id active)
    rintro rfl
    exact h (List.mem_map_of_mem hp)
  rw [setValue, List.map_append, hothers]
  simp

theorem Inv.enter (h : Inv s) {first second : Reading} (hroom : s.active < MAX_ACTIVE) (hnew : sampleId ∉ s.called) :
    Inv (s.enter sampleId first second) := by
  obtain ⟨completed, haccepted⟩ := h.accepted
  have htracks := replay_tracks haccepted
  have hadmitted : sampleId ∉ ids .admitted s.log := fun hmem => hnew (h.called sampleId hmem)
  have hcompleted : sampleId ∉ completed := by
    rw [htracks.completed]
    exact fun hmem => hadmitted (htracks.admitted sampleId (.inr hmem))
  have hkey : sampleId ∉ (s.sleeping.map fun p => (p.1, some p.2)).map Prod.fst :=
    fun hmem => hadmitted ((htracks.mem_keys sampleId).mp hmem).1
  -- The two records.
  obtain ⟨e, he⟩ : ∃ e : MemoryEvent, e = ⟨"synthetic.concurrency_memory", sampleId, .admitted, (s.active + 1 : ℕ),
    32 * 1024 * 1024, 1, first.current, first.limit, first.now, first.monotonicNs⟩ := ⟨_, rfl⟩
  obtain ⟨e', he'⟩ : ∃ e : MemoryEvent, e = ⟨"synthetic.concurrency_memory", sampleId, .allocated, (s.active + 1 : ℕ),
    32 * 1024 * 1024, 1, second.current, second.limit, second.now, second.monotonicNs⟩ := ⟨_, rfl⟩
  have hlog : (s.enter sampleId first second).log = s.log ++ [e] ++ [e'] := by rw [he, he']; rfl
  have hfirst : replay (s.log ++ [e]) =
      .ok ((s.sleeping.map fun p => (p.1, some p.2)) ++ [(sampleId, none)], completed) := by
    rw [replay_snoc haccepted, he]
    simp only [advance]
    rw [if_neg (not_or.mpr ⟨hkey, hcompleted⟩)]
    simp [checkCount, h.active]
  have htracks₁ := replay_tracks hfirst
  have hsecond : replay (s.log ++ [e] ++ [e']) =
      .ok ((s.sleeping.map fun p => (p.1, some p.2)) ++ [(sampleId, some second.monotonicNs)], completed) := by
    have hlookup := htracks₁.lookup.mpr (show (sampleId, none) ∈ _ by simp)
    rw [replay_snoc hfirst, he']
    simp only [advance, hlookup, setValue_last hkey]
    simp [checkCount, h.active]
  have htracks₂ := replay_tracks hsecond
  exact {
    accepted := ⟨completed, by rw [hlog, hsecond]; simp [ConcurrentMemory.enter]⟩
    active := by simp [ConcurrentMemory.enter, ConcurrentMemory.record, h.active]
    bound := hroom
    called := fun other hother => by
      rw [hlog] at hother
      simp only [ids_snoc, he, he', if_true, reduceCtorEq, if_false, List.append_nil, List.mem_append,
        List.mem_singleton] at hother
      show other ∈ s.called ++ [sampleId]
      rcases hother with hold | rfl
      · exact List.mem_append_left _ (h.called other hold)
      · simp
    room := by
      rw [hlog]
      refine room_snoc (room_snoc h.room ?_) ?_
      · rw [← htracks₁.length]
        simpa [← h.active] using hroom
      · rw [← htracks₂.length]
        simpa [← h.active] using hroom }

theorem Inv.leave (h : Inv s) {allocated : ℤ} {r : Reading} (hmem : (sampleId, allocated) ∈ s.sleeping)
    (hhold : allocated + 1000000000 ≤ r.monotonicNs) : Inv (s.leave sampleId r) := by
  obtain ⟨completed, haccepted⟩ := h.accepted
  have htracks := replay_tracks haccepted
  have hkey : (sampleId, some allocated) ∈ s.sleeping.map fun p => (p.1, some p.2) :=
    List.mem_map.mpr ⟨_, hmem, rfl⟩
  have hlookup := htracks.lookup.mpr hkey
  have hremove : remove (s.sleeping.map fun p => (p.1, some p.2)) sampleId =
      (s.sleeping.filter fun p => p.1 ≠ sampleId).map fun p => (p.1, some p.2) := by
    rw [remove, List.filter_map]
    rfl
  -- One key goes, because a sample is admitted once.
  have hlength : (s.sleeping.filter fun p => p.1 ≠ sampleId).length + 1 = s.sleeping.length := by
    have hnodup : (s.sleeping.map Prod.fst).Nodup := by
      have hkeys := htracks.keys
      rw [List.map_map] at hkeys
      exact (show s.sleeping.map Prod.fst = occupants s.log from hkeys) ▸ htracks.once.filter _
    exact length_remove hnodup hmem
  obtain ⟨e, he⟩ : ∃ e : MemoryEvent, e = ⟨"synthetic.concurrency_memory", sampleId, .released, (s.active - 1 : ℕ),
    32 * 1024 * 1024, 1, r.current, r.limit, r.now, r.monotonicNs⟩ := ⟨_, rfl⟩
  have hlog : (s.leave sampleId r).log = s.log ++ [e] := by rw [he]; rfl
  have hreplay : replay (s.log ++ [e]) =
      .ok ((s.sleeping.filter fun p => p.1 ≠ sampleId).map fun p => (p.1, some p.2), completed ++ [sampleId]) := by
    have hlong : ¬ r.monotonicNs - allocated < 1000000000 := by omega
    rw [replay_snoc haccepted, he]
    simp only [advance, hlookup, hremove, if_neg hlong, checkCount, List.length_map]
    have hcount : ((s.active - 1 : ℕ) : ℤ) = (s.sleeping.filter fun p => p.1 ≠ sampleId).length := by
      rw [h.active]
      omega
    rw [if_neg (not_not.mpr hcount)]
  have htracks' := replay_tracks hreplay
  exact {
    accepted := ⟨completed ++ [sampleId], by rw [hlog, hreplay]; rfl⟩
    active := by
      show s.active - 1 = (s.sleeping.filter fun p => p.1 ≠ sampleId).length
      rw [h.active]
      omega
    bound := (Nat.sub_le _ _).trans h.bound
    called := fun other hother => by
      rw [hlog] at hother
      exact h.called other (by simpa [ids_snoc, he] using hother)
    room := by
      rw [hlog]
      refine room_snoc h.room ?_
      rw [← htracks'.length, List.length_map]
      have hbound := h.bound
      rw [h.active] at hbound
      omega }

theorem Inv.step (h : Inv s) (hstep : Step s s') : Inv s' := by
  cases hstep with
  | enter _ _ _ hroom hnew _ _ => exact h.enter hroom hnew
  | refuse _ => exact { h with called := fun other hother => List.mem_append_left _ (h.called other hother) }
  | leave hmem _ hhold => exact h.leave hmem hhold
  | close => exact { h with }

theorem Reachable.inv {enabled : Bool} (h : Reachable enabled s) : Inv s := by
  induction h with
  | new => exact .new enabled
  | step _ hstep ih => exact ih.step hstep

end Steps

/-- **Concurrency memory traces match the occupancy.** -/
theorem concurrency_refined :
    (∀ enabled s, Reachable enabled s → s.active = (occupants s.log).length ∧
      ∀ p, p <+: s.log → ∃ active completed, replay p = .ok (active, completed) ∧
        active.length = (occupants p).length ∧ (occupants p).length ≤ 8) ∧
      ∀ events samples started ended parallel progress,
        validateEvents events samples started ended parallel = .ok progress →
          (ids .admitted events).Nodup ∧ AtEach Scenarios.Concurrency.Holds events ∧ AtEach Reports events ∧
            progress.admitted = (ids .admitted events).length ∧
            progress.completed = (ids .released events).length ∧
            IsPeak (fun p => (occupants p).length) events progress.peakActive ∧
            IsPeak (fun p => (holders p).length) events progress.peakAllocated := by
  refine ⟨fun enabled s hs => ?_, fun events samples started ended parallel progress h => ?_⟩
  · have h := hs.inv
    obtain ⟨completed, haccepted⟩ := h.accepted
    refine ⟨?_, fun p hp => ?_⟩
    · rw [h.active, ← (replay_tracks haccepted).length, List.length_map]
    · obtain ⟨⟨active, done⟩, hreplay⟩ := replay_prefix haccepted hp
      exact ⟨active, done, hreplay, (replay_tracks hreplay).length, h.room p hp⟩
  · obtain ⟨s, hfound, hadmitted, hcompleted, hactive, hallocated⟩ := validated_tracks h
    exact ⟨hfound.tracks.once, hfound.holds, hfound.reports, hadmitted, hcompleted, hactive ▸ hfound.peakActive,
      hallocated ▸ hfound.peakAllocated⟩

end PayOps.Sandbox.ConcurrencyMemory
