import PayOps.Traffic.Attempt

/-!
# The receipts of synthetic traffic

`record_attempt`, and `_dispatch` and `_execute` of `TrafficDriver`: attempts share a semaphore, and whatever becomes of
them, of the batch and of its deadline, one receipt is written.

## The model

`Step` interleaves the attempts with the deadline, a cancellation from outside and the failure of an attempt. An attempt
is queued, holds a slot while it is admitted, and then sends its request; it is over once its `finally` has kept the
record. A task that is cancelled before its first step keeps none. In a probe the attempts come one after the other in
the main task; otherwise each is a task of a group, and the group waits for all of them. The log tells what was sent and
received.

## What is proved

* `Inv.step` — what every step keeps.
* `rank_step`, `Inv.progress` — a run goes on until the receipt is written, and ends.
* `receipts_account` — **main result**: the receipt over every run.

## Honest scope

The output directory is writable. A semaphore counts its free slots; who waits first is not modelled, and neither is the
moment at which a cancellation arrives: after it is asked for, an attempt may still go on. A latency is not rounded.
-/

namespace PayOps.Traffic.Batch

open Sandbox (SimulationResult)

/-! ### The source -/

/-- What is raised where an attempt waits. -/
inductive Raised where
  /-- `TimeoutError` or `httpx.TimeoutException`. -/
  | timeout
  /-- Another `httpx.RequestError`. -/
  | request (className : String)
  /-- Another `Exception`. -/
  | unexpected (className : String)
  /-- `CancelledError`. -/
  | cancelled

/-- The outcome and the `error_type` that the handlers set. -/
def Raised.handled : Raised → AttemptOutcome × Option String
  | timeout => (.timedOut, some "TimeoutError")
  | request className => (.requestError, some className)
  | unexpected className => (.failed, some className)
  | cancelled => (.cancelled, none)

/-- Where an attempt is. -/
inductive Place where
  /-- It has not begun. -/
  | created
  /-- It waits for the semaphore. -/
  | queued
  /-- It holds a slot and waits for its admission. -/
  | admitting
  /-- Its request is in flight, since a time and a reading of the counter. -/
  | sending (started : Time) (clock : ℚ)
  /-- Its record is kept. -/
  | recorded
  /-- Its task was cancelled before it began. -/
  | dropped

/-- The attempt has the slot that it acquired. -/
def Place.holds : Place → Bool
  | admitting => true
  | sending _ _ => true
  | _ => false

/-- The request is in flight. -/
def Place.inFlight : Place → Bool
  | sending _ _ => true
  | _ => false

/-- The attempt waits, or its request is in flight. -/
def Place.active : Place → Bool
  | queued => true
  | p => p.holds

/-- Nothing is left of the attempt. -/
def Place.settled : Place → Bool
  | recorded => true
  | dropped => true
  | _ => false

/-- When the request was sent. -/
def Place.start : Place → Option (Time × ℚ)
  | sending started clock => some (started, clock)
  | _ => none

/-- Where `_execute` is. -/
inductive Phase where
  /-- It opens its client. -/
  | opening
  /-- It dispatches the attempts. -/
  | dispatching
  /-- It closes the client. -/
  | closing
  /-- The block is left, with the class of what was raised. -/
  | left (raised : Option String)
  /-- The receipt is written. -/
  | written
  deriving DecidableEq

/-- What happened. -/
inductive Event where
  /-- The request of an attempt was sent. -/
  | sent (i : ℕ)
  /-- It was answered. -/
  | received (i : ℕ) (chunks : List Bytes) (status : ℕ)
  deriving DecidableEq

/-- A call of `_execute`. -/
structure Job where
  /-- `workload`. -/
  workload : Workload
  /-- `run_id`. -/
  runId : String
  /-- There is a transport that replays fixtures. -/
  fixtureReplay : Bool
  /-- There is an admission callback. -/
  admission : Bool
  /-- `plan`. -/
  plan : List PlannedAttempt
  /-- `probe`. -/
  probe : Bool
  /-- The attempts are numbered in order. -/
  indexed : plan.map PlannedAttempt.index = List.range plan.length
  /-- A probe has three. -/
  three : probe = true → plan.length = 3
  /-- `started`. -/
  startedAt : Time

/-- `run`. -/
def Job.ofRun (workload : Workload) (runId : String) (fixtureReplay admission : Bool) (shuffled : List SliceCount)
    (sampleId : ℕ → Sandbox.SampleId) (traceparent : ℕ → String) (startedAt : Time) : Job where
  workload := workload
  runId := runId
  fixtureReplay := fixtureReplay
  admission := admission
  plan := Workload.plan shuffled sampleId traceparent
  probe := false
  indexed := by
    rw [Workload.plan_index]
    simp [Workload.plan]
  three := by simp
  startedAt := startedAt

/-- `run_idempotency_probe`. -/
def Job.ofProbe (workload : Workload) (runId : String) (fixtureReplay admission : Bool)
    (sampleId : Sandbox.SampleId) (traceparent : ℕ → String) (startedAt : Time) : Job where
  workload := workload
  runId := runId
  fixtureReplay := fixtureReplay
  admission := admission
  plan := probePlan sampleId traceparent
  probe := true
  indexed := rfl
  three _ := rfl
  startedAt := startedAt

/-- A running call. -/
structure Run where
  /-- Where it is. -/
  phase : Phase
  /-- Where the attempts are. -/
  places : ℕ → Place
  /-- The free slots of the semaphore. -/
  value : ℕ
  /-- `records`. -/
  records : ℕ → Option AttemptRecord
  /-- The tasks are being cancelled. -/
  aborted : Bool
  /-- `deadline.expired()`. -/
  expired : Bool
  /-- An attempt has raised. -/
  failed : Bool
  /-- It was no cancellation. -/
  crashed : Bool
  /-- What happened so far. -/
  log : List Event
  /-- The receipts that were written. -/
  receipts : List TrafficReceipt

/-- The beginning. -/
def Run.new (job : Job) : Run :=
  ⟨.opening, fun _ => .created, job.workload.concurrency, fun _ => none, false, false, false, false, [], []⟩

/-- What the `finally` of `record_attempt` keeps. -/
def recordOf (planned : PlannedAttempt) (start : Option (Time × ℚ)) (now : Time) (counter : ℚ)
    (outcome : AttemptOutcome) (status : Option ℕ) (error : Option String) (result : Option SimulationResult)
    (conflict : Bool) : AttemptRecord where
  planned := planned
  startedAt := start.map Prod.fst
  completedAt := now
  latencySeconds := start.map fun s => counter - s.2
  outcome := outcome
  httpStatus := status
  errorType := error
  result := result
  idempotencyConflict := conflict

/-- The record of an attempt that has none. -/
def cancelledRecord (planned : PlannedAttempt) (now : Time) : AttemptRecord where
  planned := planned
  startedAt := none
  completedAt := now
  latencySeconds := none
  outcome := .cancelled
  httpStatus := none
  errorType := none
  result := none
  idempotencyConflict := false

/-- `_probe_verified`. -/
def probeVerified : List AttemptRecord → Bool
  | [first, duplicate, conflict] =>
    first.httpStatus == some 200 && duplicate.httpStatus == some 200 && first.result.isSome &&
      first.result == duplicate.result && conflict.httpStatus == some 409 && conflict.idempotencyConflict
  | _ => false

/-- The status and the failure of a batch, by what its block was left with. -/
def batchStatus (raised : Option String) (expired : Bool) : BatchStatus :=
  match raised with
  | none => .completed
  | some "TimeoutError" => if expired then .deadlineExceeded else .failed
  | some "CancelledError" => .cancelled
  | some _ => .failed

/-- `attempts`. -/
def Run.attempts (s : Run) (job : Job) (now : ℕ → Time) : List AttemptRecord :=
  job.plan.map fun item => (s.records item.index).getD (cancelledRecord item (now item.index))

/-- The receipt. -/
def Run.receipt (s : Run) (job : Job) (raised : Option String) (now : ℕ → Time) (completedAt : Time) :
    TrafficReceipt where
  runId := job.runId
  fixtureReplay := job.fixtureReplay
  role := job.workload.role
  startedAt := job.startedAt
  completedAt := completedAt
  status := batchStatus raised s.expired
  failure := raised
  attempts := s.attempts job now
  probeVerified := if job.probe then some (probeVerified (s.attempts job now)) else none

/-! ### Steps -/

/-- The attempt `i` goes to another place. -/
def Run.move (s : Run) (i : ℕ) (p : Place) : Run := { s with places := Function.update s.places i p }

/-- The attempt `i` is over, with its record; a slot that it holds is free again. -/
def Run.finish (s : Run) (i : ℕ) (record : AttemptRecord) : Run :=
  { s with
    places := Function.update s.places i .recorded
    value := s.value + if (s.places i).holds then 1 else 0
    records := Function.update s.records i (some record) }

/-- An attempt raises: the group cancels its other tasks, unless this one was cancelled. -/
def Run.raises (s : Run) (r : Raised) : Run :=
  match r with
  | .unexpected _ => { s with aborted := true, failed := true, crashed := true }
  | .cancelled => { s with failed := true }
  | _ => s

/-- The response to the attempt `i` is there. -/
def Run.answered (s : Run) (i : ℕ) (planned : PlannedAttempt) (chunks : List Bytes) (answer : Answer) (now : Time)
    (counter : ℚ) : Run :=
  { s.finish i (recordOf planned (s.places i).start now counter answer.outcome (some answer.status) none answer.result
      answer.conflict) with log := s.log ++ [.received i chunks answer.status] }

/-- The attempts of the plan are settled, or a probe has failed and waits for none. -/
def Run.joined (s : Run) (job : Job) : Prop :=
  (∀ i < job.plan.length, (s.places i).settled = true) ∨
    job.probe = true ∧ s.failed = true ∧ ∀ i < job.plan.length, (s.places i).active = false

section Model

variable [Parsing] (job : Job)

/-- A step. -/
inductive Step : Run → Run → Prop where
  /-- The client is open. -/
  | connect {s : Run} : s.phase = .opening → Step s { s with phase := .dispatching }
  /-- It could not be opened, or this was cancelled. -/
  | refuse {s : Run} (className : String) : s.phase = .opening → Step s { s with phase := .left (some className) }
  /-- The deadline passes, or `_execute` is cancelled. -/
  | cancel {s : Run} (deadline : Bool) : s.phase ≠ .written → s.aborted = false ∨ deadline = true ∧ s.expired = false →
      Step s { s with aborted := true, expired := s.expired || deadline }
  /-- An attempt begins; in a probe, after those before it, and while none has raised. -/
  | enter {s : Run} {i : ℕ} : s.phase = .dispatching → i < job.plan.length → s.places i = .created →
      (job.probe = true → s.failed = false ∧ ∀ j < i, s.places j = .recorded) → Step s (s.move i .queued)
  /-- Its task is cancelled before that. -/
  | drop {s : Run} {i : ℕ} : s.phase = .dispatching → i < job.plan.length → s.places i = .created →
      job.probe = false → s.aborted = true → Step s (s.move i .dropped)
  /-- It is cancelled in the queue. -/
  | leave {s : Run} {i : ℕ} {planned : PlannedAttempt} (now : Time) (counter : ℚ) : s.phase = .dispatching →
      job.plan[i]? = some planned → s.places i = .queued → s.aborted = true →
      Step s ((s.finish i (recordOf planned none now counter .cancelled none none none false)).raises .cancelled)
  /-- `async with semaphore`, where admission is asked for. -/
  | acquire {s : Run} {i : ℕ} : s.phase = .dispatching → i < job.plan.length → s.places i = .queued → 0 < s.value →
      job.admission = true → Step s { s.move i .admitting with value := s.value - 1 }
  /-- The same, where it is not: the request is sent. -/
  | start {s : Run} {i : ℕ} (now : Time) (counter : ℚ) : s.phase = .dispatching → i < job.plan.length →
      s.places i = .queued → 0 < s.value → job.admission = false →
      Step s { s.move i (.sending now counter) with value := s.value - 1, log := s.log ++ [.sent i] }
  /-- The attempt is admitted, and the request is sent. -/
  | admitted {s : Run} {i : ℕ} (now : Time) (counter : ℚ) : s.phase = .dispatching → i < job.plan.length →
      s.places i = .admitting → Step s { s.move i (.sending now counter) with log := s.log ++ [.sent i] }
  /-- It is not admitted. -/
  | pause {s : Run} {i : ℕ} {planned : PlannedAttempt} (now : Time) (counter : ℚ) : s.phase = .dispatching →
      job.plan[i]? = some planned → s.places i = .admitting →
      Step s (s.finish i (recordOf planned none now counter .paused none none none false))
  /-- The admission or the request raises, is out of time or is cancelled. -/
  | fail {s : Run} {i : ℕ} {planned : PlannedAttempt} (r : Raised) (now : Time) (counter : ℚ) :
      s.phase = .dispatching → job.plan[i]? = some planned → (s.places i).holds = true →
      Step s ((s.finish i (recordOf planned (s.places i).start now counter r.handled.1 none r.handled.2 none
        false)).raises r)
  /-- The response is there. -/
  | respond {s : Run} {i : ℕ} {planned : PlannedAttempt} (chunks : List Bytes) (status : ℕ) (now : Time) (counter : ℚ) :
      s.phase = .dispatching → job.plan[i]? = some planned → (s.places i).inFlight = true →
      Step s (s.answered i planned chunks (response chunks status planned.sample job.workload.role) now counter)
  /-- The attempts are through. -/
  | join {s : Run} : s.phase = .dispatching → s.joined job → Step s { s with phase := .closing }
  /-- The block is left, by an exception if an attempt has raised one. -/
  | close {s : Run} (raised : Option String) : s.phase = .closing →
      (s.crashed = true ∨ job.probe = true ∧ s.failed = true → raised ≠ none) →
      Step s { s with phase := .left raised }
  /-- The `finally` of `_execute`. -/
  | write {s : Run} {raised : Option String} (now : ℕ → Time) (completedAt : Time) : s.phase = .left raised →
      Step s { s with phase := .written, receipts := s.receipts ++ [s.receipt job raised now completedAt] }

/-- The states that a run may come to. -/
inductive Reachable : Run → Prop where
  /-- The beginning. -/
  | new : Reachable (Run.new job)
  /-- One more step. -/
  | step {s s' : Run} : Reachable s → Step job s s' → Reachable s'

/-! ### What every step keeps -/

/-- What the record of the attempt `i` says is what happened. -/
structure Sound (log : List Event) (i : ℕ) (record : AttemptRecord) : Prop where
  /-- It is the record of the planned attempt. -/
  planned : job.plan[i]? = some record.planned
  /-- It has a start time if its request was sent. -/
  started : record.startedAt.isSome = true ↔ .sent i ∈ log
  /-- Without one there is nothing of a request. -/
  unstarted : record.startedAt = none → record.latencySeconds = none ∧ record.httpStatus = none ∧
    record.result = none ∧ record.outcome ≠ .accepted ∧ record.outcome ≠ .declined
  /-- A payment that was accepted or declined has the validated result of its sample and role. -/
  result : record.outcome = .accepted ∨ record.outcome = .declined → record.httpStatus = some 200 ∧
    ∃ chunks body result, .received i chunks 200 ∈ log ∧ readBody [] chunks = some body ∧
      modelValidateJson body = some result ∧ record.result = some result ∧
      result.sampleId = record.planned.sample.sampleId.val ∧ result.role = sandboxRole job.workload.role ∧
      record.outcome = outcomeOf result

/-- How many of the attempts are at such a place. -/
def Run.number (s : Run) (f : Place → ℕ) : ℕ := ∑ i ∈ Finset.range job.plan.length, f (s.places i)

/-- What every step keeps. -/
structure Inv (s : Run) : Prop where
  /-- A slot is free or held. -/
  slots : s.value + s.number job (fun p => if p.holds then 1 else 0) = job.workload.concurrency
  /-- There are records of the attempts that have come to their `finally`. -/
  kept : ∀ i, (s.records i).isSome = true ↔ s.places i = .recorded
  /-- They are sound. -/
  sound : ∀ i record, s.records i = some record → Sound job s.log i record
  /-- Only planned attempts begin. -/
  planned : ∀ i, job.plan.length ≤ i → s.places i = .created
  /-- A probe drops none. -/
  dropped : ∀ i, s.places i = .dropped → job.probe = false
  /-- A request is sent once. -/
  once : ∀ i, s.log.count (.sent i) ≤ 1
  /-- What is in flight was sent. -/
  flying : ∀ i, (s.places i).inFlight = true → .sent i ∈ s.log
  /-- Nothing is sent before. -/
  unsent : ∀ i, .sent i ∈ s.log → (s.places i).inFlight = true ∨ s.places i = .recorded
  /-- The attempts are through when they are not dispatched. -/
  quiet : s.phase ≠ .dispatching → ∀ i < job.plan.length, (s.places i).active = false
  /-- There is no receipt before. -/
  unwritten : s.phase ≠ .written → s.receipts = []
  /-- There is one in the end. -/
  written : s.phase = .written → ∃ raised now completedAt, s.receipts = [s.receipt job raised now completedAt]

section Steps

variable {job} {s s' : Run} {i : ℕ}

omit [Parsing] in
/-- One attempt goes to another place. -/
theorem Run.number_update (s s' : Run) (hi : i < job.plan.length) (f : Place → ℕ) {p : Place}
    (h : s'.places = Function.update s.places i p) :
    s'.number job f + f (s.places i) = s.number job f + f p := by
  have hmem : i ∈ Finset.range job.plan.length := Finset.mem_range.mpr hi
  have hcomp : (fun j => f (s'.places j)) = Function.update (fun j => f (s.places j)) i (f p) := by
    funext j
    rw [h]
    by_cases hj : j = i
    · subst hj
      simp
    · simp [hj]
  rw [number, number, hcomp, Finset.sum_update_of_mem hmem,
    Finset.sum_eq_add_sum_sdiff_singleton_of_mem hmem fun j => f (s.places j)]
  omega

theorem Inv.new : Inv job (Run.new job) where
  slots := by simp [Run.new, Run.number, Place.holds]
  kept i := by simp [Run.new]
  sound i record h := by cases h
  planned i _ := rfl
  dropped i h := by cases h
  once i := by simp [Run.new]
  flying i h := by cases h
  unsent i h := by simp [Run.new] at h
  quiet _ i _ := rfl
  unwritten _ := rfl
  written h := by cases h

/-- What is set besides changes nothing of the attempts. -/
theorem Inv.flags (h : Inv job s) (hphase : s.phase ≠ .written) (aborted expired failed crashed : Bool) :
    Inv job { s with aborted := aborted, expired := expired, failed := failed, crashed := crashed } :=
  { h with written := fun hwritten => absurd hwritten hphase }

theorem Inv.raises (h : Inv job s) (hphase : s.phase ≠ .written) (r : Raised) : Inv job (s.raises r) := by
  cases r with
  | timeout => exact h
  | request className => exact h
  | unexpected className => exact h.flags hphase _ _ _ _
  | cancelled => exact h.flags hphase _ _ _ _

/-- `_execute` goes on. -/
theorem Inv.goes (h : Inv job s) {p : Phase} (hphase : s.phase ≠ .written) (hp : p ≠ .written)
    (hquiet : p ≠ .dispatching → ∀ i < job.plan.length, (s.places i).active = false) : Inv job { s with phase := p } :=
  { h with
    quiet := hquiet
    unwritten := fun _ => h.unwritten hphase
    written := fun hwritten => absurd hwritten hp }

/-- A record stays sound. -/
theorem Sound.mono {log log' events : List Event} {record : AttemptRecord} (h : Sound job log i record)
    (hlog : log' = log ++ events) (hevents : .sent i ∉ events) : Sound job log' i record where
  planned := h.planned
  started := by
    rw [h.started, hlog, List.mem_append, or_iff_left hevents]
  unstarted := h.unstarted
  result houtcome := by
    obtain ⟨hstatus, chunks, body, result, hreceived, hrest⟩ := h.result houtcome
    refine ⟨hstatus, chunks, body, result, ?_, hrest⟩
    rw [hlog]
    exact List.mem_append_left _ hreceived

/-- An attempt that is not recorded has no record. -/
theorem Inv.unrecorded (h : Inv job s) (hi : s.places i ≠ .recorded) : s.records i = none := by
  by_contra hrecord
  exact hi ((h.kept i).mp (Option.isSome_iff_ne_none.mpr hrecord))

/-- **An attempt goes on**; its request is sent where it begins to be in flight. -/
theorem Inv.moved (h : Inv job s) (hphase : s.phase = .dispatching) (hi : i < job.plan.length) {p : Place}
    (hfrom : s.places i ≠ .recorded ∧ (s.places i).inFlight = false) (hp : p ≠ .recorded) {value : ℕ}
    (hvalue : value + (if p.holds then 1 else 0) = s.value + if (s.places i).holds then 1 else 0) {log : List Event}
    (hlog : log = s.log ++ if p.inFlight then [.sent i] else []) (hdropped : p = .dropped → job.probe = false) :
    Inv job { s with places := Function.update s.places i p, value := value, log := log } := by
  have hother {j : ℕ} (hj : j ≠ i) : Function.update s.places i p j = s.places j := Function.update_of_ne hj _ _
  have hevents (j : ℕ) (hj : j ≠ i) : Event.sent j ∉ (if p.inFlight then [Event.sent i] else []) := by
    split_ifs <;> simp [hj]
  have hfresh : Event.sent i ∉ s.log := by
    intro hsent
    rcases h.unsent i hsent with hflying | hrecorded
    · rw [hfrom.2] at hflying
      cases hflying
    · exact hfrom.1 hrecorded
  exact {
    slots := by
      have hsum := Run.number_update s { s with places := Function.update s.places i p, value := value, log := log } hi
        (fun p => if p.holds then 1 else 0) rfl
      have hslots := h.slots
      simp only at hsum ⊢
      omega
    kept := fun j => by
      by_cases hj : j = i
      · subst hj
        simp [h.unrecorded hfrom.1, hp]
      · simp only [Function.update_of_ne hj]
        exact h.kept j
    sound := fun j record hrecord => by
      have hj : j ≠ i := by
        rintro rfl
        rw [h.unrecorded hfrom.1] at hrecord
        cases hrecord
      exact (h.sound j record hrecord).mono hlog (hevents j hj)
    planned := fun j hj => by
      simp only
      rw [hother (by omega)]
      exact h.planned j hj
    dropped := fun j hj => by
      by_cases hji : j = i
      · subst hji
        exact hdropped (by simpa using hj)
      · exact h.dropped j (by simpa [hji] using hj)
    once := fun j => by
      have honce := h.once j
      by_cases hj : j = i
      · subst hj
        have hnone := List.count_eq_zero_of_not_mem hfresh
        show log.count _ ≤ 1
        rw [hlog, List.count_append, hnone]
        split_ifs <;> simp
      · have hnone := List.count_eq_zero_of_not_mem (hevents j hj)
        show log.count _ ≤ 1
        rw [hlog, List.count_append, hnone]
        exact honce
    flying := fun j hflying => by
      show _ ∈ log
      rw [hlog, List.mem_append]
      by_cases hj : j = i
      · subst hj
        have hflies : p.inFlight = true := by simpa using hflying
        exact .inr (by simp [hflies])
      · exact .inl (h.flying j (by simpa [hj] using hflying))
    unsent := fun j hsent => by
      by_cases hj : j = i
      · subst hj
        have hsent' : Event.sent j ∈ s.log ++ if p.inFlight then [Event.sent j] else [] := hlog ▸ hsent
        rcases List.mem_append.mp hsent' with hold | hnew
        · exact absurd hold hfresh
        · split_ifs at hnew with hflies
          · exact .inl (by simpa using hflies)
          · cases hnew
      · have hsent' : Event.sent j ∈ s.log ++ if p.inFlight then [Event.sent i] else [] := hlog ▸ hsent
        simp only [Function.update_of_ne hj]
        exact h.unsent j ((List.mem_append.mp hsent').resolve_right (hevents j hj))
    quiet := fun hother => absurd hphase hother
    unwritten := h.unwritten
    written := fun hwritten => by simp [hphase] at hwritten }

/-- **An attempt is over**, and its record is sound. -/
theorem Inv.finished (h : Inv job s) (hphase : s.phase = .dispatching) (hi : i < job.plan.length)
    {record : AttemptRecord} {log events : List Event} (hlog : log = s.log ++ events)
    (hevents : ∀ j, Event.sent j ∉ events) (hsound : Sound job log i record) :
    Inv job { s.finish i record with log := log } := by
  have hother {j : ℕ} (hj : j ≠ i) : Function.update s.places i .recorded j = s.places j :=
    Function.update_of_ne hj _ _
  have hsent (j : ℕ) : Event.sent j ∈ log ↔ Event.sent j ∈ s.log := by
    rw [hlog, List.mem_append, or_iff_left (hevents j)]
  exact {
    slots := by
      have hsum := Run.number_update s { s.finish i record with log := log } hi (fun p => if p.holds then 1 else 0) rfl
      have hslots := h.slots
      simp only [Place.holds, Run.finish] at hsum ⊢
      simp only [Place.holds] at hslots
      simp only [Bool.false_eq_true, if_false, add_zero] at hsum
      omega
    kept := fun j => by
      by_cases hj : j = i
      · subst hj
        simp [Run.finish]
      · simp only [Run.finish, Function.update_of_ne hj]
        exact h.kept j
    sound := fun j record' hrecord => by
      by_cases hj : j = i
      · subst hj
        simp only [Run.finish, Function.update_self, Option.some.injEq] at hrecord
        exact hrecord ▸ hsound
      · simp only [Run.finish, Function.update_of_ne hj] at hrecord
        exact (h.sound j record' hrecord).mono hlog (hevents j)
    planned := fun j hj => by
      simp only [Run.finish]
      rw [hother (by omega)]
      exact h.planned j hj
    dropped := fun j hj => by
      by_cases hji : j = i
      · subst hji
        simp [Run.finish] at hj
      · exact h.dropped j (by simpa [Run.finish, hji] using hj)
    once := fun j => by
      show log.count _ ≤ 1
      rw [hlog, List.count_append, List.count_eq_zero_of_not_mem (hevents j)]
      exact h.once j
    flying := fun j hflying => by
      have hj : j ≠ i := by
        rintro rfl
        simp [Run.finish, Place.inFlight] at hflying
      exact (hsent j).mpr (h.flying j (by simpa [Run.finish, hj] using hflying))
    unsent := fun j hlogged => by
      by_cases hj : j = i
      · subst hj
        exact .inr (by simp [Run.finish])
      · simp only [Run.finish, Function.update_of_ne hj]
        exact h.unsent j ((hsent j).mp hlogged)
    quiet := fun hother => absurd hphase hother
    unwritten := h.unwritten
    written := fun hwritten => by simp [Run.finish, hphase] at hwritten }

omit [Parsing] in
theorem Place.start_isSome (p : Place) : p.start.isSome = p.inFlight := by
  cases p <;> rfl

/-- The record of an attempt without a response. -/
theorem Inv.sound_without (h : Inv job s) {planned : PlannedAttempt} (hplanned : job.plan[i]? = some planned)
    (hi : s.places i ≠ .recorded) (now : Time) (counter : ℚ) {outcome : AttemptOutcome} (error : Option String)
    (houtcome : outcome ≠ .accepted ∧ outcome ≠ .declined) :
    Sound job s.log i (recordOf planned (s.places i).start now counter outcome none error none false) where
  planned := hplanned
  started := by
    rw [recordOf, Option.isSome_map, Place.start_isSome]
    exact ⟨h.flying i, fun hsent => (h.unsent i hsent).resolve_right hi⟩
  unstarted hnone := by
    have hstart : (s.places i).start = none := by simpa [recordOf] using hnone
    exact ⟨by simp [recordOf, hstart], rfl, rfl, houtcome⟩
  result hresult := by
    rcases hresult with haccepted | hdeclined
    · exact absurd haccepted houtcome.1
    · exact absurd hdeclined houtcome.2

/-- The record of an attempt with its response. -/
theorem Inv.sound_answered (h : Inv job s) {planned : PlannedAttempt} (hplanned : job.plan[i]? = some planned)
    (hi : (s.places i).inFlight = true) (chunks : List Bytes) (status : ℕ) (now : Time) (counter : ℚ) {answer : Answer}
    (hanswer : answer = response chunks status planned.sample job.workload.role) :
    Sound job (s.log ++ [.received i chunks answer.status]) i
      (recordOf planned (s.places i).start now counter answer.outcome (some answer.status) none answer.result
        answer.conflict) where
  planned := hplanned
  started := by
    have hsent : Event.sent i ∈ s.log ++ [.received i chunks answer.status] := List.mem_append_left _ (h.flying i hi)
    rw [recordOf, Option.isSome_map, Place.start_isSome]
    exact iff_of_true hi hsent
  unstarted hnone := by
    have hstart : (s.places i).start = none := by simpa [recordOf] using hnone
    rw [← Place.start_isSome, hstart] at hi
    cases hi
  result hresult := by
    rw [hanswer] at hresult ⊢
    obtain ⟨-, body, result, hbody, hvalid, hid, hrole, hresponse⟩ := response_result hresult
    rw [hresponse]
    exact ⟨rfl, chunks, body, result, by simp, hbody, hvalid, rfl, hid, hrole, rfl⟩

omit [Parsing] in
theorem lt_of_planned {planned : PlannedAttempt} (h : job.plan[i]? = some planned) : i < job.plan.length :=
  (List.getElem?_eq_some_iff.mp h).1

omit [Parsing] in
theorem Raised.handled_outcome (r : Raised) : r.handled.1 ≠ .accepted ∧ r.handled.1 ≠ .declined := by
  cases r <;> simp [handled]

/-- **Every step keeps the invariant.** -/
theorem Inv.step (h : Inv job s) (hstep : Step job s s') : Inv job s' := by
  cases hstep with
  | connect hphase => exact h.goes (by simp [hphase]) (by simp) fun hother => absurd rfl hother
  | refuse className hphase => exact h.goes (by simp [hphase]) (by simp) fun _ => h.quiet (by simp [hphase])
  | cancel deadline hphase hnew => exact h.flags hphase _ _ _ _
  | enter hphase hi hplace hturn =>
    exact h.moved hphase hi (by simp [hplace, Place.inFlight]) (by simp) (by simp [hplace, Place.holds])
      (by simp [Place.inFlight]) (by simp)
  | drop hphase hi hplace hprobe haborted =>
    exact h.moved hphase hi (by simp [hplace, Place.inFlight]) (by simp) (by simp [hplace, Place.holds])
      (by simp [Place.inFlight]) fun _ => hprobe
  | acquire hphase hi hplace hvalue hadmission =>
    refine h.moved hphase hi (by simp [hplace, Place.inFlight]) (by simp) ?_ (by simp [Place.inFlight, Run.move])
      (by simp)
    simp only [hplace, Place.holds]
    simp only [if_true, Bool.false_eq_true, if_false]
    omega
  | start now counter hphase hi hplace hvalue hadmission =>
    refine h.moved hphase hi (by simp [hplace, Place.inFlight]) (by simp) ?_ (by simp [Place.inFlight]) (by simp)
    simp only [hplace, Place.holds]
    simp only [if_true, Bool.false_eq_true, if_false]
    omega
  | admitted now counter hphase hi hplace =>
    exact h.moved hphase hi (by simp [hplace, Place.inFlight]) (by simp) (by simp [hplace, Place.holds, Run.move])
      (by simp [Place.inFlight]) (by simp)
  | @leave i planned now counter hphase hplanned hplace haborted =>
    have hsound := h.sound_without hplanned (by simp [hplace]) now counter none
      (show AttemptOutcome.cancelled ≠ .accepted ∧ AttemptOutcome.cancelled ≠ .declined by simp)
    rw [hplace] at hsound
    have hfinished := h.finished hphase (lt_of_planned hplanned) (List.append_nil s.log).symm (by simp) hsound
    exact hfinished.raises (by simp [Run.finish, hphase]) _
  | @pause i planned now counter hphase hplanned hplace =>
    have hsound := h.sound_without hplanned (by simp [hplace]) now counter none
      (show AttemptOutcome.paused ≠ .accepted ∧ AttemptOutcome.paused ≠ .declined by simp)
    rw [hplace] at hsound
    exact h.finished hphase (lt_of_planned hplanned) (List.append_nil s.log).symm (by simp) hsound
  | @fail i planned r now counter hphase hplanned hholds =>
    have hplace : s.places i ≠ .recorded := by
      intro hrecorded
      simp [hrecorded, Place.holds] at hholds
    have hsound := h.sound_without hplanned hplace now counter r.handled.2 r.handled_outcome
    have hfinished := h.finished hphase (lt_of_planned hplanned) (List.append_nil s.log).symm (by simp) hsound
    exact hfinished.raises (by simp [Run.finish, hphase]) _
  | @respond i planned chunks status now counter hphase hplanned hflying =>
    exact h.finished hphase (lt_of_planned hplanned) rfl (by simp)
      (h.sound_answered hplanned hflying chunks status now counter rfl)
  | join hphase hjoined =>
    refine h.goes (by simp [hphase]) (by simp) fun _ i hi => ?_
    rcases hjoined with hsettled | ⟨-, -, hquiet⟩
    · have hi := hsettled i hi
      revert hi
      cases s.places i <;> simp [Place.settled, Place.active, Place.holds]
    · exact hquiet i hi
  | close raised hphase hraised => exact h.goes (by simp [hphase]) (by simp) fun _ => h.quiet (by simp [hphase])
  | @write raised now completedAt hphase =>
    have hnone := h.unwritten (by simp [hphase])
    exact {
      h with
      quiet := fun _ => h.quiet (by simp [hphase])
      unwritten := fun hother => absurd rfl hother
      written := fun _ => ⟨raised, now, completedAt, by rw [hnone]; rfl⟩ }

theorem Inv.reachable (h : Reachable job s) : Inv job s := by
  induction h with
  | new => exact .new
  | step _ hstep ih => exact ih.step hstep

/-! ### How a run ends -/

/-- How many steps an attempt may still take. -/
def Place.rank : Place → ℕ
  | created => 4
  | queued => 3
  | admitting => 2
  | sending _ _ => 1
  | _ => 0

/-- How many steps `_execute` may still take. -/
def Phase.rank : Phase → ℕ
  | opening => 4
  | dispatching => 3
  | closing => 2
  | left _ => 1
  | written => 0

/-- How many steps the call may still take. -/
def Run.rank (s : Run) (job : Job) : ℕ :=
  s.phase.rank + s.number job Place.rank + (if s.aborted then 0 else 1) + if s.expired then 0 else 1

omit [Parsing] in
theorem Run.rank_raises (s : Run) (r : Raised) : (s.raises r).rank job ≤ s.rank job := by
  cases r with
  | unexpected className =>
    refine Nat.add_le_add_right (Nat.add_le_add_left ?_ _) _
    simp [raises]
  | _ => exact le_rfl

omit [Parsing] in
/-- An attempt goes on. -/
theorem Run.rank_moved (s s' : Run) (hi : i < job.plan.length) {p : Place}
    (hplaces : s'.places = Function.update s.places i p) (hp : p.rank < (s.places i).rank)
    (hrest : s'.phase = s.phase ∧ s'.aborted = s.aborted ∧ s'.expired = s.expired) : s'.rank job < s.rank job := by
  have hsum := Run.number_update s s' hi Place.rank hplaces
  rw [rank, rank, hrest.1, hrest.2.1, hrest.2.2]
  omega

/-- **Every step leaves less to do.** -/
theorem rank_step (h : Step job s s') : s'.rank job < s.rank job := by
  cases h with
  | connect hphase => simp [Run.rank, Run.number, Phase.rank, hphase]
  | refuse className hphase => simp [Run.rank, Run.number, Phase.rank, hphase]
  | cancel deadline hphase hnew =>
    simp only [Run.rank, Run.number]
    rcases hnew with haborted | ⟨rfl, hexpired⟩
    · rw [haborted]
      cases s.expired <;> cases deadline <;> simp
    · rw [hexpired]
      cases s.aborted <;> simp
  | enter hphase hi hplace hturn => exact s.rank_moved _ hi rfl (by simp [hplace, Place.rank]) ⟨rfl, rfl, rfl⟩
  | drop hphase hi hplace hprobe haborted =>
    exact s.rank_moved _ hi rfl (by simp [hplace, Place.rank]) ⟨rfl, rfl, rfl⟩
  | acquire hphase hi hplace hvalue hadmission =>
    exact s.rank_moved _ hi rfl (by simp [hplace, Place.rank]) ⟨rfl, rfl, rfl⟩
  | start now counter hphase hi hplace hvalue hadmission =>
    exact s.rank_moved _ hi rfl (by simp [hplace, Place.rank]) ⟨rfl, rfl, rfl⟩
  | admitted now counter hphase hi hplace =>
    exact s.rank_moved _ hi rfl (by simp [hplace, Place.rank]) ⟨rfl, rfl, rfl⟩
  | leave now counter hphase hplanned hplace haborted =>
    exact (Run.rank_raises _ _).trans_lt
      (s.rank_moved _ (lt_of_planned hplanned) rfl (by simp [hplace, Place.rank]) ⟨rfl, rfl, rfl⟩)
  | pause now counter hphase hplanned hplace =>
    exact s.rank_moved _ (lt_of_planned hplanned) rfl (by simp [hplace, Place.rank]) ⟨rfl, rfl, rfl⟩
  | @fail i planned r now counter hphase hplanned hholds =>
    have hrank : Place.recorded.rank < (s.places i).rank := by
      revert hholds
      cases s.places i <;> simp [Place.holds, Place.rank]
    exact (Run.rank_raises _ _).trans_lt (s.rank_moved _ (lt_of_planned hplanned) rfl hrank ⟨rfl, rfl, rfl⟩)
  | @respond i planned chunks status now counter hphase hplanned hflying =>
    have hrank : Place.recorded.rank < (s.places i).rank := by
      revert hflying
      cases s.places i <;> simp [Place.inFlight, Place.rank]
    exact s.rank_moved _ (lt_of_planned hplanned) rfl hrank ⟨rfl, rfl, rfl⟩
  | join hphase hjoined => simp [Run.rank, Run.number, Phase.rank, hphase]
  | close raised hphase hraised => simp [Run.rank, Run.number, Phase.rank, hphase]
  | write now completedAt hphase => simp [Run.rank, Run.number, Phase.rank, hphase]

omit [Parsing] in
theorem planned_of_lt (hi : i < job.plan.length) : ∃ planned, job.plan[i]? = some planned :=
  ⟨_, List.getElem?_eq_getElem hi⟩

/-- An attempt that holds a slot may be out of time. -/
theorem step_of_holds (hphase : s.phase = .dispatching) (hi : i < job.plan.length)
    (hholds : (s.places i).holds = true) :
    ∃ s', Step job s s' := by
  obtain ⟨planned, hplanned⟩ := planned_of_lt hi
  exact ⟨_, .fail .timeout 0 0 hphase hplanned hholds⟩

/-- **An active attempt** goes on, or one that holds a slot does. -/
theorem Inv.step_of_active (h : Inv job s) (hphase : s.phase = .dispatching) (hi : i < job.plan.length)
    (hactive : (s.places i).active = true) : ∃ s', Step job s s' := by
  by_cases hholder : ∃ j < job.plan.length, (s.places j).holds = true
  · obtain ⟨j, hj, hholds⟩ := hholder
    exact step_of_holds hphase hj hholds
  · -- Nobody holds a slot, so that all of them are free.
    push Not at hholder
    have hnone : s.number job (fun p => if p.holds then 1 else 0) = 0 :=
      Finset.sum_eq_zero fun j hj => if_neg (hholder j (Finset.mem_range.mp hj))
    have hslots := h.slots
    have hlimited := job.workload.limited.1
    have hfree : 0 < s.value := by omega
    have hqueued : s.places i = .queued := by
      have hidle := hholder i hi
      revert hactive hidle
      cases s.places i <;> simp [Place.active, Place.holds]
    cases hadmission : job.admission with
    | true => exact ⟨_, .acquire hphase hi hqueued hfree hadmission⟩
    | false => exact ⟨_, .start 0 0 hphase hi hqueued hfree hadmission⟩

/-- **A run goes on** until the receipt is written. -/
theorem Inv.progress (h : Inv job s) (hphase : s.phase ≠ .written) : ∃ s', Step job s s' := by
  cases hp : s.phase with
  | opening => exact ⟨_, .connect hp⟩
  | closing => exact ⟨_, .close (some "CancelledError") hp (by simp)⟩
  | left raised => exact ⟨_, .write (fun _ => 0) 0 hp⟩
  | written => exact absurd hp hphase
  | dispatching =>
    by_cases hactive : ∃ i < job.plan.length, (s.places i).active = true
    · obtain ⟨i, hi, hactive⟩ := hactive
      exact h.step_of_active hp hi hactive
    · push Not at hactive
      by_cases hcreated : ∃ i, i < job.plan.length ∧ s.places i = .created
      · -- The first that has not begun may begin, unless a probe has failed.
        classical
        obtain ⟨hi, hplace⟩ := Nat.find_spec hcreated
        have hbefore (j : ℕ) (hj : j < Nat.find hcreated) : s.places j ≠ .created :=
          fun hplace' => Nat.find_min hcreated hj ⟨hj.trans hi, hplace'⟩
        by_cases hfailed : job.probe = true ∧ s.failed = true
        · exact ⟨_, .join hp (.inr ⟨hfailed.1, hfailed.2, fun i hi => by simpa using hactive i hi⟩)⟩
        · refine ⟨_, .enter hp hi hplace fun hprobe => ⟨by simpa [hprobe] using hfailed, fun j hj => ?_⟩⟩
          have hidle := hactive j (hj.trans hi)
          have hbegun := hbefore j hj
          have hkept : s.places j ≠ .dropped := by
            intro hdropped
            simp [h.dropped j hdropped] at hprobe
          revert hidle hbegun hkept
          cases s.places j <;> simp [Place.active, Place.holds]
      · push Not at hcreated
        refine ⟨_, .join hp (.inl fun i hi => ?_)⟩
        have hidle := hactive i hi
        have hbegun := hcreated i hi
        revert hidle hbegun
        cases s.places i <;> simp [Place.active, Place.holds, Place.settled]

/-! ### The receipt -/

omit [Parsing] in
/-- The number of an attempt is its place in the plan. -/
theorem Job.index_getElem? {planned : PlannedAttempt} (h : job.plan[i]? = some planned) : planned.index = i := by
  have hindex := congrArg (·[i]?) job.indexed
  simp only [List.getElem?_map, h, Option.map_some] at hindex
  rw [List.getElem?_range (lt_of_planned h)] at hindex
  exact Option.some.inj hindex

/-- **Each planned attempt has its record**, and it is sound. -/
theorem Inv.attempts (h : Inv job s) (hphase : s.phase ≠ .dispatching) (now : ℕ → Time) :
    (s.attempts job now).map AttemptRecord.planned = job.plan ∧
      ∀ record ∈ s.attempts job now, Sound job s.log record.planned.index record := by
  have hitem : ∀ item ∈ job.plan, ∀ record, record = (s.records item.index).getD (cancelledRecord item (now item.index)) →
      record.planned = item ∧ Sound job s.log item.index record := by
    intro item hitem record hrecord
    obtain ⟨i, hi⟩ := List.mem_iff_getElem?.mp hitem
    obtain rfl := Job.index_getElem? hi
    cases hkept : s.records item.index with
    | some record' =>
      rw [hkept, Option.getD_some] at hrecord
      subst hrecord
      have hsound := h.sound _ _ hkept
      exact ⟨(Option.some.inj (hi.symm.trans hsound.planned)).symm, hsound⟩
    | none =>
      rw [hkept, Option.getD_none] at hrecord
      subst hrecord
      have hunsent : Event.sent item.index ∉ s.log := by
        intro hsent
        rcases h.unsent _ hsent with hflying | hrecorded
        · have hidle := h.quiet hphase _ (lt_of_planned hi)
          revert hflying hidle
          cases s.places item.index <;> simp [Place.inFlight, Place.active, Place.holds]
        · have hsome := (h.kept _).mpr hrecorded
          rw [hkept] at hsome
          cases hsome
      exact ⟨rfl, hi, by simp [cancelledRecord, hunsent], fun _ => by simp [cancelledRecord],
        fun houtcome => by simp [cancelledRecord] at houtcome⟩
  constructor
  · rw [Run.attempts, List.map_map]
    refine (List.map_congr_left fun item hmem => ?_).trans (List.map_id _)
    exact (hitem item hmem _ rfl).1
  · intro record hrecord
    obtain ⟨item, hmem, rfl⟩ := List.mem_map.mp hrecord
    obtain ⟨hplanned, hsound⟩ := hitem item hmem _ rfl
    rw [hplanned]
    exact hsound

/-- **The receipt accounts for every planned attempt.** In every run, whatever is admitted, answered or raised, and
whenever the deadline passes or the call is cancelled: at most `concurrency` requests are in flight, and none is sent
twice or without a plan; no receipt is written before the end, and in the end there is one, whose attempts are the
planned ones in order, each with a sound record. Every step leaves less to do, and only a written receipt ends a run. -/
theorem receipts_account (job : Job) :
    (∀ s, Reachable job s →
      ((Finset.range job.plan.length).filter fun i => (s.places i).inFlight = true).card ≤ job.workload.concurrency ∧
      (∀ i, s.log.count (.sent i) ≤ 1 ∧ (.sent i ∈ s.log → i < job.plan.length)) ∧
      (s.phase ≠ .written → s.receipts = []) ∧
      (s.phase = .written → ∃ receipt, s.receipts = [receipt] ∧
        receipt.attempts.map AttemptRecord.planned = job.plan ∧
        ∀ record ∈ receipt.attempts, Sound job s.log record.planned.index record)) ∧
    (∀ s s', Step job s s' → s'.rank job < s.rank job) ∧
    (∀ s, Reachable job s → s.phase ≠ .written → ∃ s', Step job s s') := by
  refine ⟨fun s hs => ?_, fun s s' hstep => rank_step hstep, fun s hs hphase => (Inv.reachable hs).progress hphase⟩
  have h := Inv.reachable hs
  refine ⟨?_, fun i => ⟨h.once i, fun hsent => ?_⟩, h.unwritten, fun hphase => ?_⟩
  · have hle : ((Finset.range job.plan.length).filter fun i => (s.places i).inFlight = true).card ≤
        s.number job fun p => if p.holds then 1 else 0 := by
      rw [Finset.card_filter]
      refine Finset.sum_le_sum fun i _ => ?_
      cases s.places i <;> simp [Place.inFlight, Place.holds]
    have hslots := h.slots
    omega
  · by_contra hi
    have hplace := h.planned i (not_lt.mp hi)
    have hlogged := h.unsent i hsent
    simp [hplace, Place.inFlight] at hlogged
  · obtain ⟨raised, now, completedAt, hreceipts⟩ := h.written hphase
    exact ⟨_, hreceipts, h.attempts (by simp [hphase]) now⟩

end Steps

end Model

end PayOps.Traffic.Batch
