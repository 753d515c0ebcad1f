import Mathlib

/-!
# The single slot of CPU work

`CpuWork` of `payops.sandbox.cpu`: a call takes the slot and submits its work under a lock, and the worker gives
the slot back when the work is over, whatever became of the call.

## The model

`Step` interleaves any number of calls of `run`, cancellations, the worker, failing submissions and calls of
`close`. A call holds the lock from its check until its work is submitted; the sections of the worker and of
`close` are one assignment each, and wait for the lock. A submission fails once the pool is shut down, and may
fail before. Whether a work returns or raises makes no difference to the slot. The log tells what happened.

## What is proved

* `Inv.step` — what every step keeps.
* `rank_step` — what every step leaves of an admitted work.
* `cpu_single_slot` — the slot over every run, and that a worker which goes on executes what was admitted.

## Honest scope

`pool.submit` schedules the work and returns its future, or raises and schedules nothing.
-/

namespace PayOps.Sandbox.Cpu

/-! ### The source -/

/-- Where a call of `run` is. -/
inductive Call where
  /-- It waits for the lock. -/
  | entering
  /-- It holds the lock and is before the check. -/
  | checking
  /-- It has set `busy` and submits its work. -/
  | submitting
  /-- It waits for the shielded future. -/
  | awaiting
  /-- It has returned or raised. -/
  | over
  deriving DecidableEq

/-- Where the worker is. -/
inductive Worker (ι : Type) where
  /-- It waits for work. -/
  | idle
  /-- It executes the work of a call. -/
  | executing (i : ι)
  /-- The work has returned or raised; the `finally` waits for the lock. -/
  | leaving (i : ι)

/-- What happened. -/
inductive Event (ι : Type) where
  /-- The work of a call was submitted. -/
  | admitted (i : ι)
  /-- The worker has begun it. -/
  | started (i : ι)
  /-- `_execute` is over. -/
  | ended (i : ι)
  /-- `close`. -/
  | closed
  deriving DecidableEq

/-- `CpuWork`. -/
structure CpuWork (ι : Type) where
  /-- The call that holds `lock`. -/
  lock : Option ι
  /-- `busy`. -/
  busy : Bool
  /-- `closed`. -/
  closed : Bool
  /-- The pool is shut down. -/
  shutdown : Bool
  /-- The queue of the pool. -/
  queue : List ι
  /-- The thread of the pool. -/
  worker : Worker ι
  /-- The calls of `run`. -/
  calls : ι → Call
  /-- What happened so far. -/
  log : List (Event ι)

/-- `CpuWork(rounds)`. -/
def CpuWork.new {ι : Type} : CpuWork ι := ⟨none, false, false, false, [], .idle, fun _ => .entering, []⟩

/-- A step. -/
inductive Action (ι : Type) where
  /-- A call takes the lock. -/
  | acquire (i : ι)
  /-- It is refused: 503. -/
  | refuse (i : ι)
  /-- It returns at once, because there is no pool. -/
  | skip (i : ι)
  /-- It sets `busy`. -/
  | occupy (i : ι)
  /-- Its work is submitted. -/
  | submit (i : ι)
  /-- `pool.submit` raises. -/
  | fail (i : ι)
  /-- The worker takes the next work. -/
  | start
  /-- The work returns or raises. -/
  | finish (raised : Bool)
  /-- The `finally` of `_execute`. -/
  | release
  /-- A call gets what became of its work. -/
  | deliver (i : ι)
  /-- A call is cancelled where it awaits. -/
  | cancel (i : ι)
  /-- `close`. -/
  | close

/-- The worker's own steps. -/
def Action.ofWorker {ι : Type} : Action ι → Bool
  | start => true
  | finish _ => true
  | release => true
  | _ => false

section Model

variable {ι : Type} [DecidableEq ι] (enabled : Bool)

/-- The call `i` goes to another place. -/
def CpuWork.at (s : CpuWork ι) (i : ι) (place : Call) : ι → Call := Function.update s.calls i place

/-- The steps; `enabled` tells that there is a pool. -/
inductive Step : CpuWork ι → Action ι → CpuWork ι → Prop where
  /-- `with self.lock`. -/
  | acquire {s : CpuWork ι} {i : ι} : s.calls i = .entering → s.lock = none →
      Step s (.acquire i) { s with lock := some i, calls := s.at i .checking }
  /-- `if self.closed or self.busy`. -/
  | refuse {s : CpuWork ι} {i : ι} : s.calls i = .checking → s.closed = true ∨ s.busy = true →
      Step s (.refuse i) { s with lock := none, calls := s.at i .over }
  /-- `if self.pool is None`. -/
  | skip {s : CpuWork ι} {i : ι} : s.calls i = .checking → s.closed = false → s.busy = false → enabled = false →
      Step s (.skip i) { s with lock := none, calls := s.at i .over }
  /-- `self.busy = True`. -/
  | occupy {s : CpuWork ι} {i : ι} : s.calls i = .checking → s.closed = false → s.busy = false → enabled = true →
      Step s (.occupy i) { s with busy := true, calls := s.at i .submitting }
  /-- `future = self.pool.submit(…)`, and the lock is let go. -/
  | submit {s : CpuWork ι} {i : ι} : s.calls i = .submitting → s.shutdown = false →
      Step s (.submit i) { s with
        lock := none, queue := s.queue ++ [i], calls := s.at i .awaiting, log := s.log ++ [.admitted i] }
  /-- `except BaseException`. -/
  | fail {s : CpuWork ι} {i : ι} : s.calls i = .submitting →
      Step s (.fail i) { s with lock := none, busy := false, calls := s.at i .over }
  /-- A work is taken from the queue. -/
  | start {s : CpuWork ι} {i : ι} {rest : List ι} : s.worker = .idle → s.queue = i :: rest →
      Step s .start { s with queue := rest, worker := .executing i, log := s.log ++ [.started i] }
  /-- `hash_work` or `observed_work` is over. -/
  | finish {s : CpuWork ι} {i : ι} {raised : Bool} : s.worker = .executing i →
      Step s (.finish raised) { s with worker := .leaving i }
  /-- `self.busy = False`. -/
  | release {s : CpuWork ι} {i : ι} : s.worker = .leaving i → s.lock = none →
      Step s .release { s with busy := false, worker := .idle, log := s.log ++ [.ended i] }
  /-- The future is done. -/
  | deliver {s : CpuWork ι} {i : ι} : s.calls i = .awaiting → .ended i ∈ s.log →
      Step s (.deliver i) { s with calls := s.at i .over }
  /-- The task is cancelled before it has run, or at its `await`; the shield keeps the work. -/
  | cancel {s : CpuWork ι} {i : ι} : s.calls i = .entering ∨ s.calls i = .awaiting →
      Step s (.cancel i) { s with calls := s.at i .over }
  /-- `close`; works that are queued stay in the queue. -/
  | close {s : CpuWork ι} : s.lock = none →
      Step s .close { s with closed := true, shutdown := enabled || s.shutdown, log := s.log ++ [.closed] }

/-- The states that a run may come to. -/
inductive Reachable : CpuWork ι → Prop where
  /-- The beginning. -/
  | new : Reachable CpuWork.new
  /-- One more step. -/
  | step {s s' : CpuWork ι} {a : Action ι} : Reachable s → Step enabled s a s' → Reachable s'

/-! ### Outstanding work -/

/-- The work that the worker has taken. -/
def Worker.works : Worker ι → List ι
  | idle => []
  | executing i => [i]
  | leaving i => [i]

/-- The work that is pending or executing. -/
def CpuWork.outstanding (s : CpuWork ι) : List ι := s.queue ++ s.worker.works

/-- Nothing is admitted after a call of `close`. -/
def Late (log : List (Event ι)) : Prop := log.Pairwise fun a b => a = .closed → ∀ i, b ≠ .admitted i

/-- What every step keeps. -/
structure Inv (s : CpuWork ι) : Prop where
  /-- The lock is held from the check to the submission. -/
  holder : ∀ i, s.calls i = .checking ∨ s.calls i = .submitting → s.lock = some i
  /-- Only there. -/
  held : ∀ i, s.lock = some i → s.calls i = .checking ∨ s.calls i = .submitting
  /-- There is one slot. -/
  single : s.outstanding.length ≤ 1
  /-- The slot is taken by outstanding work, or by a call that submits its own. -/
  busy : s.busy = true ↔ s.outstanding ≠ [] ∨ ∃ i, s.calls i = .submitting
  /-- A call submits only where the slot was free and the pool is open. -/
  submitting : ∀ i, s.calls i = .submitting → s.outstanding = [] ∧ s.closed = false
  /-- What is admitted is pending or was started. -/
  pending : ∀ i, s.log.count (.admitted i) = s.queue.count i + s.log.count (.started i)
  /-- What was started is executing or has ended. -/
  executing : ∀ i, s.log.count (.started i) = s.worker.works.count i + s.log.count (.ended i)
  /-- A call has at most one work. -/
  once : ∀ i, s.log.count (.admitted i) ≤ 1
  /-- A call that is not yet done with the lock has none. -/
  fresh : ∀ i, s.calls i = .entering ∨ s.calls i = .checking ∨ s.calls i = .submitting →
    s.log.count (.admitted i) = 0
  /-- `closed` tells whether `close` was called. -/
  closed : s.closed = true ↔ .closed ∈ s.log
  /-- Nothing is admitted after that. -/
  late : Late s.log

section Steps

variable {enabled} {s s' : CpuWork ι}

omit [DecidableEq ι] in
theorem Late.snoc {log : List (Event ι)} (h : Late log) {e : Event ι}
    (he : .closed ∈ log → ∀ i, e ≠ .admitted i) : Late (log ++ [e]) := by
  refine List.pairwise_append.mpr ⟨h, List.pairwise_singleton _ _, fun a ha b hb hclosed => ?_⟩
  rw [List.mem_singleton.mp hb]
  exact he (hclosed ▸ ha)

theorem Inv.new : Inv (CpuWork.new : CpuWork ι) where
  holder i h := by simp [CpuWork.new] at h
  held i h := by simp [CpuWork.new] at h
  single := Nat.zero_le 1
  busy := by simp [CpuWork.new, CpuWork.outstanding, Worker.works]
  submitting i h := by simp [CpuWork.new] at h
  pending i := rfl
  executing i := rfl
  once i := Nat.zero_le 1
  fresh i _ := rfl
  closed := by simp [CpuWork.new]
  late := List.Pairwise.nil

/-- No other call holds the lock. -/
theorem Inv.others (h : Inv s) {i j : ι} (hi : s.calls i = .checking ∨ s.calls i = .submitting) (hj : j ≠ i) :
    ¬(s.calls j = .checking ∨ s.calls j = .submitting) := by
  intro hlock
  exact hj (Option.some.inj ((h.holder j hlock).symm.trans (h.holder i hi)))

/-- A call goes on, and nothing but the lock changes with it. -/
theorem Inv.move (h : Inv s) {i : ι} {place : Call} {lock : Option ι} (hplace : place ≠ .submitting)
    (hfrom : s.calls i ≠ .submitting)
    (hown : place = .checking → lock = some i ∧ s.calls i = .entering)
    (hentering : place ≠ .entering)
    (hothers : ∀ j, j ≠ i → s.calls j = .checking ∨ s.calls j = .submitting → lock = some j)
    (hheld : ∀ j, lock = some j → j = i ∧ place = .checking ∨
      j ≠ i ∧ (s.calls j = .checking ∨ s.calls j = .submitting)) :
    Inv { s with lock := lock, calls := s.at i place } where
  held j hj := by
    obtain ⟨rfl, rfl⟩ | ⟨hji, hcall⟩ := hheld j hj
    · exact .inl (Function.update_self _ _ _)
    · simpa [CpuWork.at, hji] using hcall
  holder j hj := by
    by_cases hji : j = i
    · subst hji
      simp only [CpuWork.at, Function.update_self] at hj
      exact (hown (hj.resolve_right hplace)).1
    · simp only [CpuWork.at, Function.update_of_ne hji] at hj
      exact hothers j hji hj
  single := h.single
  busy := by
    have hsame : (∃ j, s.at i place j = .submitting) ↔ ∃ j, s.calls j = .submitting := by
      refine exists_congr fun j => ?_
      by_cases hji : j = i
      · subst hji
        simp [CpuWork.at, hplace, hfrom]
      · simp [CpuWork.at, hji]
    exact h.busy.trans (or_congr_right hsame.symm)
  submitting j hj := by
    by_cases hji : j = i
    · subst hji
      exact absurd (by simpa [CpuWork.at] using hj) hplace
    · exact h.submitting j (by simpa [CpuWork.at, hji] using hj)
  pending := h.pending
  executing := h.executing
  once := h.once
  fresh j hj := by
    by_cases hji : j = i
    · subst hji
      simp only [CpuWork.at, Function.update_self] at hj
      obtain hj | hj | hj := hj
      · exact absurd hj hentering
      · exact h.fresh j (.inl (hown hj).2)
      · exact absurd hj hplace
    · exact h.fresh j (by simpa [CpuWork.at, hji] using hj)
  closed := h.closed
  late := h.late

/-- A call leaves without the slot. -/
theorem Inv.leave (h : Inv s) {i : ι} (hi : s.calls i = .checking) :
    Inv { s with lock := none, calls := s.at i .over } :=
  h.move (by simp) (by simp [hi]) (by simp) (by simp) (fun _ hji hj => absurd hj (h.others (.inl hi) hji))
    fun _ hj => by cases hj

/-- A call ends where it has no part in the slot. -/
theorem Inv.retire (h : Inv s) {i : ι} (hi : s.calls i = .entering ∨ s.calls i = .awaiting) :
    Inv { s with calls := s.at i .over } := by
  have hout : ¬(s.calls i = .checking ∨ s.calls i = .submitting) := by rcases hi with hi | hi <;> simp [hi]
  refine h.move (by simp) (fun hsubmit => hout (.inr hsubmit)) (by simp) (by simp)
    (fun j _ hj => h.holder j hj) fun j hj => .inr ⟨?_, h.held j hj⟩
  rintro rfl
  exact hout (h.held j hj)

theorem Inv.occupy (h : Inv s) {i : ι} (hi : s.calls i = .checking) (hclosed : s.closed = false)
    (hbusy : s.busy = false) : Inv { s with busy := true, calls := s.at i .submitting } := by
  -- The slot is free, so that nothing is outstanding.
  have hfree : s.outstanding = [] := by
    by_contra hne
    exact absurd (h.busy.mpr (.inl hne)) (by simp [hbusy])
  have hother : ∀ j, j ≠ i → s.at i .submitting j = s.calls j := fun j hj => Function.update_of_ne hj _ _
  exact {
    holder := fun j hj => by
      by_cases hji : j = i
      · rw [hji]
        exact h.holder i (.inl hi)
      · exact h.holder j (by rwa [← hother j hji])
    held := fun j hj => by
      by_cases hji : j = i
      · rw [hji]
        exact .inr (Function.update_self i _ _)
      · show s.at i .submitting j = .checking ∨ s.at i .submitting j = .submitting
        rw [hother j hji]
        exact h.held j hj
    single := h.single
    busy := by
      simp only [true_iff]
      exact .inr ⟨i, Function.update_self i _ _⟩
    submitting := fun _ _ => ⟨hfree, hclosed⟩
    pending := h.pending
    executing := h.executing
    once := h.once
    fresh := fun j hj => by
      by_cases hji : j = i
      · rw [hji]
        exact h.fresh i (.inr (.inl hi))
      · exact h.fresh j (by rwa [← hother j hji])
    closed := h.closed
    late := h.late }

theorem Inv.submit (h : Inv s) {i : ι} (hi : s.calls i = .submitting) :
    Inv { s with
      lock := none, queue := s.queue ++ [i], calls := s.at i .awaiting, log := s.log ++ [.admitted i] } := by
  obtain ⟨hfree, hopen⟩ := h.submitting i hi
  have hqueue : s.queue = [] := (List.append_eq_nil_iff.mp hfree).1
  have hworker : s.worker.works = [] := (List.append_eq_nil_iff.mp hfree).2
  have hnew : s.log.count (.admitted i) = 0 := h.fresh i (.inr (.inr hi))
  have hno : ∀ j, s.at i .awaiting j ≠ .checking ∧ s.at i .awaiting j ≠ .submitting := by
    intro j
    by_cases hji : j = i
    · subst hji
      simp [CpuWork.at]
    · simpa [CpuWork.at, hji] using h.others (.inr hi) hji
  exact {
    holder := fun j hj => absurd hj (not_or.mpr (hno j))
    held := fun j hj => by cases hj
    single := by simp [CpuWork.outstanding, hqueue, hworker]
    busy := by
      have hbusy : s.busy = true := h.busy.mpr (.inr ⟨i, hi⟩)
      simp [CpuWork.outstanding, hbusy]
    submitting := fun j hj => absurd hj (hno j).2
    pending := fun j => by
      have hj := h.pending j
      simp only [List.count_append, List.count_singleton]
      by_cases hji : i = j
      · subst hji
        simp
        omega
      · simp [hji]
        omega
    executing := fun j => by
      have hj := h.executing j
      simpa [List.count_append, List.count_singleton] using hj
    once := fun j => by
      by_cases hji : i = j
      · subst hji
        simp [List.count_append, hnew]
      · simpa [List.count_append, List.count_singleton, hji] using h.once j
    fresh := fun j hj => by
      by_cases hji : i = j
      · subst hji
        simp [CpuWork.at] at hj
      · have hold := h.fresh j (by simpa [CpuWork.at, Ne.symm hji] using hj)
        simpa [List.count_append, List.count_singleton, hji] using hold
    closed := by simpa using h.closed
    late := h.late.snoc fun hclosed => absurd (h.closed.mpr hclosed) (by simp [hopen]) }

theorem Inv.fail (h : Inv s) {i : ι} (hi : s.calls i = .submitting) :
    Inv { s with lock := none, busy := false, calls := s.at i .over } := by
  obtain ⟨hfree, -⟩ := h.submitting i hi
  have hno : ∀ j, s.at i .over j ≠ .checking ∧ s.at i .over j ≠ .submitting := by
    intro j
    by_cases hji : j = i
    · subst hji
      simp [CpuWork.at]
    · simpa [CpuWork.at, hji] using h.others (.inr hi) hji
  exact {
    holder := fun j hj => absurd hj (not_or.mpr (hno j))
    held := fun j hj => by cases hj
    single := h.single
    busy := by
      have hnone : ¬∃ j, s.at i .over j = .submitting := fun ⟨j, hj⟩ => (hno j).2 hj
      have hfree' : s.queue ++ s.worker.works = [] := hfree
      simp [CpuWork.outstanding, hfree', hnone]
    submitting := fun j hj => absurd hj (hno j).2
    pending := h.pending
    executing := h.executing
    once := h.once
    fresh := fun j hj => by
      by_cases hji : j = i
      · subst hji
        simp [CpuWork.at] at hj
      · exact h.fresh j (by simpa [CpuWork.at, hji] using hj)
    closed := h.closed
    late := h.late }

theorem Inv.start (h : Inv s) {i : ι} {rest : List ι} (hidle : s.worker = .idle) (hqueue : s.queue = i :: rest) :
    Inv { s with queue := rest, worker := .executing i, log := s.log ++ [.started i] } := by
  have hsame : (rest ++ [i]).length = s.outstanding.length := by
    simp [CpuWork.outstanding, hidle, hqueue, Worker.works]
  have htaken : s.outstanding ≠ [] := by simp [CpuWork.outstanding, hqueue]
  exact {
    holder := h.holder
    held := h.held
    single := hsame.trans_le h.single
    busy := by
      have hbusy : s.busy = true := h.busy.mpr (.inl htaken)
      simp [CpuWork.outstanding, Worker.works, hbusy]
    submitting := fun j hj => absurd (h.submitting j hj).1 htaken
    pending := fun j => by
      have hj := h.pending j
      rw [hqueue] at hj
      simp only [List.count_append, List.count_cons] at hj ⊢
      simp at hj ⊢
      omega
    executing := fun j => by
      have hj := h.executing j
      rw [hidle] at hj
      simp only [List.count_append, List.count_singleton, Worker.works] at hj ⊢
      simp at hj ⊢
      omega
    once := fun j => by simpa [List.count_append, List.count_singleton] using h.once j
    fresh := fun j hj => by simpa [List.count_append, List.count_singleton] using h.fresh j hj
    closed := by simpa using h.closed
    late := h.late.snoc fun _ j => by simp }

theorem Inv.finish (h : Inv s) {i : ι} (hi : s.worker = .executing i) : Inv { s with worker := .leaving i } := by
  have hworks : s.worker.works = (Worker.leaving i).works := by
    rw [hi]
    rfl
  have hsame : ({ s with worker := .leaving i } : CpuWork ι).outstanding = s.outstanding := by
    rw [CpuWork.outstanding, CpuWork.outstanding, hworks]
  exact {
    holder := h.holder
    held := h.held
    single := by
      rw [hsame]
      exact h.single
    busy := by
      rw [hsame]
      exact h.busy
    submitting := fun j hj => by
      rw [hsame]
      exact h.submitting j hj
    pending := h.pending
    executing := fun j => hworks ▸ h.executing j
    once := h.once
    fresh := h.fresh
    closed := h.closed
    late := h.late }

theorem Inv.release (h : Inv s) {i : ι} (hi : s.worker = .leaving i) (hlock : s.lock = none) :
    Inv { s with busy := false, worker := .idle, log := s.log ++ [.ended i] } := by
  have hsingle := h.single
  have hqueue : s.queue = [] := by
    rw [CpuWork.outstanding, hi] at hsingle
    simpa [Worker.works] using hsingle
  have hno : ∀ j, s.calls j ≠ .submitting := by
    intro j hj
    exact absurd ((h.holder j (.inr hj)).symm.trans hlock) (by simp)
  exact {
    holder := h.holder
    held := h.held
    single := by simp [CpuWork.outstanding, hqueue, Worker.works]
    busy := by simp [CpuWork.outstanding, hqueue, Worker.works, hno]
    submitting := fun j hj => absurd hj (hno j)
    pending := fun j => by simpa [List.count_append, List.count_singleton] using h.pending j
    executing := fun j => by
      have hj := h.executing j
      rw [hi] at hj
      simp only [List.count_append, List.count_singleton, Worker.works] at hj ⊢
      simp at hj ⊢
      omega
    once := fun j => by simpa [List.count_append, List.count_singleton] using h.once j
    fresh := fun j hj => by simpa [List.count_append, List.count_singleton] using h.fresh j hj
    closed := by simpa using h.closed
    late := h.late.snoc fun _ j => by simp }

theorem Inv.close (h : Inv s) (hlock : s.lock = none) (shutdown : Bool) :
    Inv { s with closed := true, shutdown := shutdown, log := s.log ++ [.closed] } where
  holder := h.holder
  held := h.held
  single := h.single
  busy := h.busy
  submitting j hj := absurd ((h.holder j (.inr hj)).symm.trans hlock) (by simp)
  pending j := by simpa [List.count_append, List.count_singleton] using h.pending j
  executing j := by simpa [List.count_append, List.count_singleton] using h.executing j
  once j := by simpa [List.count_append, List.count_singleton] using h.once j
  fresh j hj := by simpa [List.count_append, List.count_singleton] using h.fresh j hj
  closed := by simp
  late := h.late.snoc fun _ j => by simp

theorem Inv.step {a : Action ι} (h : Inv s) (hstep : Step enabled s a s') : Inv s' := by
  cases hstep with
  | @acquire i hi hlock =>
    refine h.move (by simp) (by simp [hi]) (fun _ => ⟨rfl, hi⟩) (by simp) (fun j _ hj => ?_) fun j hj => ?_
    · exact absurd ((h.holder j hj).symm.trans hlock) (by simp)
    · exact .inl ⟨(Option.some.inj hj).symm, rfl⟩
  | refuse hi _ => exact h.leave hi
  | skip hi _ _ _ => exact h.leave hi
  | occupy hi hclosed hbusy _ => exact h.occupy hi hclosed hbusy
  | submit hi _ => exact h.submit hi
  | fail hi => exact h.fail hi
  | start hidle hqueue => exact h.start hidle hqueue
  | finish hi => exact h.finish hi
  | release hi hlock => exact h.release hi hlock
  | deliver hi _ => exact h.retire (.inr hi)
  | cancel hi => exact h.retire hi
  | close hlock => exact h.close hlock _

theorem Reachable.inv (h : Reachable enabled s) : Inv s := by
  induction h with
  | new => exact .new
  | step _ hstep ih => exact ih.step hstep

/-! ### Progress -/

/-- How many steps of the worker a work is away from its end. -/
def CpuWork.rank (s : CpuWork ι) (i : ι) : ℕ :=
  3 * s.queue.count i + match s.worker with
    | .idle => 0
    | .executing j => if j = i then 2 else 0
    | .leaving j => if j = i then 1 else 0

/-- What is admitted and has not ended is away from its end. -/
theorem Inv.rank_pos (h : Inv s) {i : ι} (hadmitted : .admitted i ∈ s.log) (hended : .ended i ∉ s.log) :
    0 < s.rank i := by
  have hpending := h.pending i
  have hexecuting := h.executing i
  rw [List.count_eq_zero_of_not_mem hended] at hexecuting
  have hcount := List.count_pos_iff.mpr hadmitted
  unfold CpuWork.rank
  cases hworker : s.worker with
  | idle =>
    rw [hworker, Worker.works, List.count_nil] at hexecuting
    show 0 < 3 * s.queue.count i + 0
    omega
  | executing j =>
    rw [hworker, Worker.works] at hexecuting
    simp only [List.count_singleton, beq_iff_eq] at hexecuting
    show 0 < 3 * s.queue.count i + if j = i then 2 else 0
    split_ifs at hexecuting ⊢ <;> omega
  | leaving j =>
    rw [hworker, Worker.works] at hexecuting
    simp only [List.count_singleton, beq_iff_eq] at hexecuting
    show 0 < 3 * s.queue.count i + if j = i then 1 else 0
    split_ifs at hexecuting ⊢ <;> omega

omit [DecidableEq ι] in
/-- Work that is executing leaves no other in the queue. -/
theorem queue_of_works {i : ι} (hsingle : s.outstanding.length ≤ 1) (hworks : s.worker.works = [i]) :
    s.queue = [] := by
  simpa [CpuWork.outstanding, hworks] using hsingle

/-- A step of the worker brings an outstanding work nearer to its end; no other step changes how far it is. -/
theorem rank_step {a : Action ι} (h : Inv s) (hstep : Step enabled s a s') {i : ι} (hi : 0 < s.rank i) :
    (a.ofWorker = false → s'.rank i = s.rank i) ∧ (a.ofWorker = true → s'.rank i < s.rank i) := by
  cases hstep with
  | submit hj hshutdown =>
    -- There is nothing outstanding where a work is submitted.
    obtain ⟨hfree, -⟩ := h.submitting _ hj
    obtain ⟨hqueue, hworks⟩ := List.append_eq_nil_iff.mp hfree
    cases hworker : s.worker with
    | idle => simp [CpuWork.rank, hqueue, hworker] at hi
    | executing j => simp [hworker, Worker.works] at hworks
    | leaving j => simp [hworker, Worker.works] at hworks
  | @start j rest hidle hqueue =>
    refine ⟨fun hno => (by cases hno), fun _ => ?_⟩
    simp only [CpuWork.rank, hidle, hqueue, List.count_cons, beq_iff_eq] at hi ⊢
    have hrest : rest = [] := by
      simpa [CpuWork.outstanding, hqueue, hidle, Worker.works] using h.single
    rw [hrest] at hi ⊢
    split_ifs at hi ⊢ <;> simp at hi ⊢
  | @finish j raised hj =>
    have hqueue := queue_of_works h.single (by rw [hj]; rfl)
    refine ⟨fun hno => (by cases hno), fun _ => ?_⟩
    simp only [CpuWork.rank, hj, hqueue] at hi ⊢
    split_ifs at hi ⊢ <;> simp at hi ⊢
  | @release j hj hlock =>
    have hqueue := queue_of_works h.single (by rw [hj]; rfl)
    refine ⟨fun hno => (by cases hno), fun _ => ?_⟩
    simp only [CpuWork.rank, hj, hqueue] at hi ⊢
    split_ifs at hi ⊢ <;> simp at hi ⊢
  | acquire => exact ⟨fun _ => rfl, fun hyes => (by cases hyes)⟩
  | refuse => exact ⟨fun _ => rfl, fun hyes => (by cases hyes)⟩
  | skip => exact ⟨fun _ => rfl, fun hyes => (by cases hyes)⟩
  | occupy => exact ⟨fun _ => rfl, fun hyes => (by cases hyes)⟩
  | fail => exact ⟨fun _ => rfl, fun hyes => (by cases hyes)⟩
  | deliver => exact ⟨fun _ => rfl, fun hyes => (by cases hyes)⟩
  | cancel => exact ⟨fun _ => rfl, fun hyes => (by cases hyes)⟩
  | close => exact ⟨fun _ => rfl, fun hyes => (by cases hyes)⟩

/-- Nothing is taken out of the log. -/
theorem log_step {a : Action ι} (hstep : Step enabled s a s') : s.log <+: s'.log := by
  cases hstep <;> first | exact List.prefix_rfl | exact List.prefix_append _ _

/-- Outstanding work goes on: the worker's next step is possible, if only the call that holds the lock is
refused. -/
theorem Inv.progress (h : Inv s) (hout : s.outstanding ≠ []) :
    ∃ a s', Step enabled s a s' ∧ (a.ofWorker = true ∨ ∃ i, a = .refuse i) := by
  cases hworker : s.worker with
  | idle =>
    cases hqueue : s.queue with
    | nil => exact absurd (by simp [CpuWork.outstanding, hworker, hqueue, Worker.works]) hout
    | cons i rest => exact ⟨_, _, .start hworker hqueue, .inl rfl⟩
  | executing i => exact ⟨.finish true, _, .finish hworker, .inl rfl⟩
  | leaving i =>
    cases hlock : s.lock with
    | none => exact ⟨_, _, .release hworker hlock, .inl rfl⟩
    | some j =>
      rcases h.held j hlock with hj | hj
      · exact ⟨_, _, .refuse hj (.inr (h.busy.mpr (.inl hout))), .inr ⟨j, rfl⟩⟩
      · exact absurd (h.submitting j hj).1 hout

end Steps

/-! ### Runs -/

/-- A run that goes on, where at some times nothing happens. -/
structure Run (ι : Type) [DecidableEq ι] (enabled : Bool) where
  /-- The states. -/
  states : ℕ → CpuWork ι
  /-- The steps. -/
  actions : ℕ → Option (Action ι)
  /-- It begins at the beginning. -/
  start : states 0 = CpuWork.new
  /-- Each step is one. -/
  next : ∀ n, match actions n with
    | none => states (n + 1) = states n
    | some a => Step enabled (states n) a (states (n + 1))

namespace Run

variable {enabled} (r : Run ι enabled)

/-- While work is outstanding the worker goes on. -/
def Fair : Prop := ∀ n, (r.states n).outstanding ≠ [] → ∃ m, n ≤ m ∧ ∃ a, r.actions m = some a ∧ a.ofWorker = true

theorem reachable (n : ℕ) : Reachable enabled (r.states n) := by
  induction n with
  | zero =>
    rw [r.start]
    exact .new
  | succ n ih =>
    have hnext := r.next n
    split at hnext
    · rwa [hnext]
    · exact ih.step hnext

theorem log_mono {n m : ℕ} (h : n ≤ m) : (r.states n).log <+: (r.states m).log := by
  induction m, h using Nat.le_induction with
  | base => exact List.prefix_rfl
  | succ m _ ih =>
    have hnext := r.next m
    split at hnext
    · rwa [hnext]
    · exact ih.trans (log_step hnext)

/-- An outstanding work keeps its place until the worker acts, and comes nearer to its end then. -/
theorem rank_next {n : ℕ} {i : ι} (hi : 0 < (r.states n).rank i) :
    (r.states (n + 1)).rank i ≤ (r.states n).rank i ∧
      ∀ a, r.actions n = some a → a.ofWorker = true → (r.states (n + 1)).rank i < (r.states n).rank i := by
  have hnext := r.next n
  split at hnext
  · rename_i hnone
    exact ⟨by rw [hnext], fun a ha => by rw [hnone] at ha; cases ha⟩
  · rename_i a ha
    have hstep := rank_step (r.reachable n).inv hnext hi
    refine ⟨?_, fun a' ha' hworker => hstep.2 ?_⟩
    · cases hworker : a.ofWorker with
      | false => exact (hstep.1 hworker).le
      | true => exact (hstep.2 hworker).le
    · obtain rfl := Option.some.inj (ha.symm.trans ha')
      exact hworker

theorem rank_le {n m : ℕ} (h : n ≤ m) {i : ι} (hi : ∀ k, n ≤ k → k < m → 0 < (r.states k).rank i) :
    (r.states m).rank i ≤ (r.states n).rank i := by
  induction m, h using Nat.le_induction with
  | base => exact le_rfl
  | succ m hnm ih =>
    have hm := ih fun k hk hkm => hi k hk (by omega)
    exact (r.rank_next (hi m hnm (by omega))).1.trans hm

theorem outstanding_of_rank {s : CpuWork ι} {i : ι} (h : 0 < s.rank i) : s.outstanding ≠ [] := by
  intro hout
  obtain ⟨hqueue, hworks⟩ := List.append_eq_nil_iff.mp hout
  cases hworker : s.worker with
  | idle => simp [CpuWork.rank, hqueue, hworker] at h
  | executing j => simp [hworker, Worker.works] at hworks
  | leaving j => simp [hworker, Worker.works] at hworks

/-- An outstanding work comes to its end. -/
theorem rank_zero (hfair : r.Fair) (n : ℕ) (i : ι) : ∃ m, n ≤ m ∧ (r.states m).rank i = 0 := by
  generalize hk : (r.states n).rank i = k
  induction k using Nat.strong_induction_on generalizing n with
  | _ k ih =>
    by_contra hnever
    push Not at hnever
    have hpos : ∀ m, n ≤ m → 0 < (r.states m).rank i := fun m hm => Nat.pos_of_ne_zero (hnever m hm)
    obtain ⟨m, hm, a, ha, hworker⟩ := hfair n (outstanding_of_rank (hpos n le_rfl))
    have hle := r.rank_le hm fun l hl _ => hpos l hl
    have hlt := (r.rank_next (hpos m hm)).2 a ha hworker
    obtain ⟨l, hl, hzero⟩ := ih _ (by omega) (m + 1) rfl
    exact hnever l (by omega) hzero

end Run

/-- **CPU work holds a single slot.** -/
theorem cpu_single_slot :
    (∀ s : CpuWork ι, Reachable enabled s →
      s.outstanding.length ≤ 1 ∧
        (s.outstanding ≠ [] → s.busy = true) ∧ (s.outstanding = [] → s.lock = none → s.busy = false) ∧
        (∀ i, .admitted i ∈ s.log →
          (i ∈ s.queue ∧ s.log.count (.started i) = 0 ∧ s.log.count (.ended i) = 0) ∨
          (i ∈ s.worker.works ∧ s.log.count (.started i) = 1 ∧ s.log.count (.ended i) = 0) ∨
          (i ∉ s.outstanding ∧ s.log.count (.started i) = 1 ∧ s.log.count (.ended i) = 1)) ∧
        Late s.log ∧
        (s.outstanding ≠ [] → ∃ a s', Step enabled s a s' ∧ (a.ofWorker = true ∨ ∃ i, a = .refuse i)) ∧
        (∀ i s', Step enabled s (.cancel i) s' → s'.outstanding = s.outstanding ∧ s'.busy = s.busy) ∧
        ∀ a s' i, Step enabled s a s' → .ended i ∉ s.log → .ended i ∈ s'.log →
          s'.busy = false ∧ s'.outstanding = []) ∧
      ∀ r : Run ι enabled, r.Fair → ∀ n i, .admitted i ∈ (r.states n).log →
        ∃ m, n ≤ m ∧ (r.states m).log.count (.started i) = 1 ∧ (r.states m).log.count (.ended i) = 1 := by
  refine ⟨fun s hs => ?_, fun r hfair n i hadmitted => ?_⟩
  · have h := hs.inv
    refine ⟨h.single, fun hout => h.busy.mpr (.inl hout), fun hout hlock => ?_, fun i hi => ?_, h.late,
      h.progress, fun i s' hstep => ?_, fun a s' i hstep hbefore hafter => ?_⟩
    · by_contra hbusy
      obtain hout' | ⟨i, hi⟩ := h.busy.mp (by simpa using hbusy)
      · exact hout' hout
      · exact absurd ((h.holder i (.inr hi)).symm.trans hlock) (by simp)
    · have hpending := h.pending i
      have hexecuting := h.executing i
      have honce := h.once i
      have hcount := List.count_pos_iff.mpr hi
      by_cases hqueue : i ∈ s.queue
      · have hpos := List.count_pos_iff.mpr hqueue
        exact .inl ⟨hqueue, by omega, by omega⟩
      · rw [List.count_eq_zero_of_not_mem hqueue] at hpending
        by_cases hworks : i ∈ s.worker.works
        · have hpos := List.count_pos_iff.mpr hworks
          exact .inr (.inl ⟨hworks, by omega, by omega⟩)
        · rw [List.count_eq_zero_of_not_mem hworks] at hexecuting
          refine .inr (.inr ⟨?_, by omega, by omega⟩)
          rw [CpuWork.outstanding, List.mem_append]
          exact not_or.mpr ⟨hqueue, hworks⟩
    · cases hstep
      exact ⟨rfl, rfl⟩
    · cases hstep with
      | release hj hlock =>
        have hqueue := queue_of_works h.single (by rw [hj]; rfl)
        exact ⟨rfl, by simp [CpuWork.outstanding, hqueue, Worker.works]⟩
      | submit => simp [hbefore] at hafter
      | start => simp [hbefore] at hafter
      | close => simp [hbefore] at hafter
      | _ => exact absurd hafter hbefore
  · obtain ⟨m, hm, hzero⟩ := r.rank_zero hfair n i
    have h := (r.reachable m).inv
    have hadmitted' := (r.log_mono hm).subset hadmitted
    have hended : .ended i ∈ (r.states m).log := by
      by_contra hended
      exact absurd (h.rank_pos hadmitted' hended) (by omega)
    have hpending := h.pending i
    have hexecuting := h.executing i
    have honce := h.once i
    have hpos := List.count_pos_iff.mpr hended
    exact ⟨m, hm, by omega, by omega⟩

end Model

end PayOps.Sandbox.Cpu
