import PayOps.Orchestrator.State
import PayOps.Process.Runner

/-!
# What an investigation asks of its host

Everything the orchestrator reads, writes or waits for, as one interface, and the durable state
that survives its crashes.

## The model

`Durable` is the state of the SQL ledger, the artifact store, the files of an incident and the
saver of the graph. `Durable.exec` says what each request of these does; the remaining requests
(clocks, locks, authority, the model, the reads, the collector) are answered from outside, in any
way. `Machine` lets every request fail without effect, and lets other threads retain artifacts
at any time; a retained artifact is never replaced.

The calls that reach a provider or a backend are labelled by their operation, which the source
passes to neither; the label is read by no definition.

## Honest scope

A file that is created and then written is two requests where a crash in between matters: the
result of a collection. An attempt file and the marker count from their creation on.
-/

namespace PayOps.Orchestrator

open Process Program

variable [Platform]

/-- The outcome of an authority refresh. -/
inductive Authority where
  /-- `OK`. -/
  | ok
  /-- `DENIED`. -/
  | denied
  /-- `BUSY`. -/
  | busy
  /-- `TIMEOUT`. -/
  | timeout
  /-- `ERROR`. -/
  | error
  deriving DecidableEq

/-- The reason to stop at a refresh; `OK` is none. -/
def Authority.stop : Authority → Option StopReason
  | ok => none
  | denied => some .denied
  | busy => some .busy
  | timeout => some .timeout
  | error => some .error

/-- The status of a read whose publication is refreshed. -/
def Authority.status : Authority → ReadStatus
  | ok => .ok
  | denied => .denied
  | busy => .busy
  | timeout => .timeout
  | error => .error

/-- What became of a submitted read by its deadline. -/
inductive Awaited where
  /-- It is late. -/
  | late
  /-- Its worker raised. -/
  | raised
  /-- It completed: the grant before it, what the handler found, the grant after it. -/
  | completed (before : Except Fault Bool) (found : Except Fault (List EvidenceItem))
      (after : Except Fault Bool)

/-! ### Requests -/

/-- One request of the orchestrator. -/
inductive Effect where
  /-- `session.get(BudgetRow, run_id)`. -/
  | selectRow (runId : String)
  /-- `session.add(BudgetRow(…))` and `commit`. -/
  | insertRow (record : BudgetFields)
  /-- `UPDATE … WHERE run_id = … AND payload = raw RETURNING`: whether a row was updated. -/
  | swapRow (runId : String) (raw updated : BudgetFields)
  /-- `publish_once` in the store at `root`. -/
  | writeArtifact (root : String) (content : Artifact)
  /-- The bytes of an artifact in the store at `root`. -/
  | readArtifact (root : String) (digest : Digest)
  /-- `FileLock(…, timeout=0)`. -/
  | lock (name : String)
  /-- `runtime.authority()`. -/
  | authority
  /-- `adapter.count_tokens(messages)`. -/
  | countTokens (system user : String)
  /-- `runtime.observe(prompt, evidence_ids, causes)`. -/
  | observe (operation : Identifier) (prompt : ModelPrompt) (evidenceIds : List Identifier)
      (causes : List String)
  /-- Hand a read to the pool of the registry: whether there was a slot. -/
  | submit (operation : Identifier) (request : ReadRequest)
  /-- Wait for a submitted read. -/
  | await (operation : Identifier) (request : ReadRequest)
  /-- `_publication_status()`. -/
  | refresh (operation : Identifier)
  /-- `utc_now()`. -/
  | utcNow
  /-- `time.perf_counter() - started`. -/
  | elapsed
  /-- `new_id()`. -/
  | newId
  /-- `mkdir(parents=True, exist_ok=True)`. -/
  | mkdir (directory : String)
  /-- How many attempt files there are. -/
  | countAttempts (directory : String)
  /-- Create the attempt file of a number, exclusively. -/
  | createAttempt (directory : String) (number : ℕ)
  /-- Write the created attempt file. -/
  | writeAttempt (directory : String) (number : ℕ) (record : StepRecord)
  /-- Whether the result of the collection exists. -/
  | resultExists (directory : String)
  /-- Read the result of the collection. -/
  | readResult (directory : String)
  /-- Create the dispatch marker, exclusively. -/
  | createMarker (directory : String)
  /-- `collector(incident, output)`. -/
  | collect (incident : Incident)
  /-- Create the result of the collection, exclusively. -/
  | createResult (directory : String)
  /-- Write the created result. -/
  | writeResult (directory : String) (result : Collection)
  /-- The checkpoint of a thread. -/
  | loadCheckpoint (thread : String)
  /-- Make a checkpoint durable. -/
  | saveCheckpoint (thread : String) (checkpoint : Checkpoint)

/-- The reply to a request. -/
abbrev Effect.Reply : Effect → Type
  | selectRow _ => Option BudgetFields
  | insertRow _ => Unit
  | swapRow _ _ _ => Bool
  | writeArtifact _ _ => Digest
  | readArtifact _ _ => Option Artifact
  | lock _ => Unit
  | authority => Authority
  | countTokens _ _ => ℕ
  | observe _ _ _ _ => ModelObservation
  | submit _ _ => Bool
  | await _ _ => Awaited
  | refresh _ => Authority
  | utcNow => Time
  | elapsed => Duration
  | newId => String
  | mkdir _ => Unit
  | countAttempts _ => ℕ
  | createAttempt _ _ => Unit
  | writeAttempt _ _ _ => Unit
  | resultExists _ => Bool
  | readResult _ => Collection
  | createMarker _ => Unit
  | collect _ => Collection
  | createResult _ => Unit
  | writeResult _ _ => Unit
  | loadCheckpoint _ => Option Checkpoint
  | saveCheckpoint _ _ => Unit

/-- The interface of the orchestrator. -/
abbrev Host : Interface := ⟨Effect, Effect.Reply, Fault⟩

/-- One request. -/
def ask (e : Effect) : Program Host e.Reply := perform (I := Host) e

/-! ### The durable state -/

/-- The state that survives a crash. -/
structure Durable where
  /-- `reasoning_budgets`, by its primary key. -/
  budgets : String → Option BudgetFields
  /-- The artifacts, by the root of their store and their name. -/
  artifacts : String → Digest → Option Artifact
  /-- The numbers of the attempt files in a directory. -/
  attempts : String → List ℕ
  /-- Whether the dispatch marker is in a directory. -/
  marker : String → Bool
  /-- The result of the collection in a directory: absent, created, or written. -/
  result : String → Option (Option Collection)
  /-- The checkpoints, by their thread. -/
  checkpoints : String → Option Checkpoint

namespace Durable

/-- Nothing yet. -/
def empty : Durable := ⟨fun _ => none, fun _ _ => none, fun _ => [], fun _ => false, fun _ => none,
  fun _ => none⟩

/-- Other threads may retain artifacts at any time; nothing else changes. -/
structure Grown (s s' : Durable) : Prop where
  /-- What is retained stays. -/
  artifacts : ∀ root digest content, s.artifacts root digest = some content →
    s'.artifacts root digest = some content
  /-- The ledger stays, -/
  budgets : s'.budgets = s.budgets
  /-- the attempts, -/
  attempts : s'.attempts = s.attempts
  /-- the markers, -/
  marker : s'.marker = s.marker
  /-- the results -/
  result : s'.result = s.result
  /-- and the checkpoints. -/
  checkpoints : s'.checkpoints = s.checkpoints

theorem Grown.refl (s : Durable) : s.Grown s := ⟨fun _ _ _ => id, rfl, rfl, rfl, rfl, rfl⟩

variable [Retention]

/-- `FileExistsError`. -/
def fileExists : Fault := .os "FileExistsError"

/-- What a request of the durable state is answered, and what it leaves; the other requests are
answered from outside. -/
def exec (s : Durable) : (e : Effect) → Option (Except Fault e.Reply × Durable)
  | .selectRow runId => some (.ok (s.budgets runId), s)
  | .insertRow record =>
    if (s.budgets record.runId.val).isSome then some (.error .duplicate, s)
    else some (.ok (), { s with budgets := Function.update s.budgets record.runId.val (some record) })
  | .swapRow runId raw updated =>
    if s.budgets runId = some raw then
      some (.ok true, { s with budgets := Function.update s.budgets runId (some updated) })
    else some (.ok false, s)
  | .writeArtifact root content =>
    let digest := Retention.digest content
    match s.artifacts root digest with
    | none => some (.ok digest, { s with
        artifacts := Function.update s.artifacts root
          (Function.update (s.artifacts root) digest (some content)) })
    | some held =>
      if held = content then some (.ok digest, s)
      else some (.error (.integrity "existing artifact is corrupt"), s)
  | .readArtifact root digest => some (.ok (s.artifacts root digest), s)
  | .countAttempts directory => some (.ok (s.attempts directory).length, s)
  | .createAttempt directory number =>
    if number ∈ s.attempts directory then some (.error fileExists, s)
    else some (.ok (), { s with
      attempts := Function.update s.attempts directory (s.attempts directory ++ [number]) })
  | .resultExists directory => some (.ok (s.result directory).isSome, s)
  | .readResult directory =>
    match s.result directory with
    | none => some (.error (.os "FileNotFoundError"), s)
    | some none => some (.error (.value "invalid JSON"), s)
    | some (some result) => some (.ok result, s)
  | .createMarker directory =>
    if s.marker directory then some (.error fileExists, s)
    else some (.ok (), { s with marker := Function.update s.marker directory true })
  | .createResult directory =>
    if (s.result directory).isSome then some (.error fileExists, s)
    else some (.ok (), { s with result := Function.update s.result directory (some none) })
  | .writeResult directory result =>
    some (.ok (), { s with result := Function.update s.result directory (some (some result)) })
  | .loadCheckpoint thread => some (.ok (s.checkpoints thread), s)
  | .saveCheckpoint thread checkpoint =>
    some (.ok (), { s with checkpoints := Function.update s.checkpoints thread (some checkpoint) })
  | _ => none

/-- The answers of the host, and where they leave it. -/
inductive Answer (s : Durable) : (e : Effect) → Except Fault e.Reply → Durable → Prop
  /-- A fault, with no effect. -/
  | fault {t : Durable} {e : Effect} {x : Fault} : s.Grown t → Answer s e (.error x) t
  /-- What `exec` says. -/
  | exec {t u : Durable} {e : Effect} {r : Except Fault e.Reply} : s.Grown t → t.exec e = some (r, u) →
      Answer s e r u
  /-- Any answer, where `exec` says nothing. -/
  | outside {t : Durable} {e : Effect} {r : Except Fault e.Reply} : s.Grown t → t.exec e = none →
      Answer s e r t

/-! ### What an answer changes -/

/-- What an answered request has changed of the files and the checkpoints. -/
structure Filed (s : Durable) (e : Effect) (r : Except Fault e.Reply) (u : Durable) : Prop where
  /-- A checkpoint is saved, -/
  checkpoints : u.checkpoints = s.checkpoints ∨ ∃ thread cp, e = .saveCheckpoint thread cp ∧
    u.checkpoints = Function.update s.checkpoints thread (some cp)
  /-- an attempt file is created, which was not there, -/
  attempts : u.attempts = s.attempts ∨ ∃ directory number, e = .createAttempt directory number ∧
    (∃ v, r = .ok v) ∧ number ∉ s.attempts directory ∧
    u.attempts = Function.update s.attempts directory (s.attempts directory ++ [number])
  /-- a marker is created, which was not there, -/
  marker : u.marker = s.marker ∨ ∃ directory, e = .createMarker directory ∧ s.marker directory = false ∧
    u.marker = Function.update s.marker directory true
  /-- a result is created or written. -/
  result : u.result = s.result ∨
    (∃ directory, e = .createResult directory ∧
      u.result = Function.update s.result directory (some none)) ∨
    ∃ directory c, e = .writeResult directory c ∧
      u.result = Function.update s.result directory (some (some c))

theorem exec_filed {s u : Durable} {e : Effect} {r : Except Fault e.Reply} (h : s.exec e = some (r, u)) :
    s.Filed e r u := by
  cases e with
  | createAttempt directory number =>
    simp only [exec] at h
    split_ifs at h with hheld
    · cases h
      exact ⟨.inl rfl, .inl rfl, .inl rfl, .inl rfl⟩
    · cases h
      exact ⟨.inl rfl, .inr ⟨_, _, rfl, ⟨_, rfl⟩, hheld, rfl⟩, .inl rfl, .inl rfl⟩
  | createMarker directory =>
    simp only [exec] at h
    split_ifs at h with hheld
    · cases h
      exact ⟨.inl rfl, .inl rfl, .inl rfl, .inl rfl⟩
    · cases h
      exact ⟨.inl rfl, .inl rfl, .inr ⟨_, rfl, Bool.not_eq_true _ ▸ hheld, rfl⟩, .inl rfl⟩
  | createResult directory =>
    simp only [exec] at h
    split_ifs at h
    · cases h
      exact ⟨.inl rfl, .inl rfl, .inl rfl, .inl rfl⟩
    · cases h
      exact ⟨.inl rfl, .inl rfl, .inl rfl, .inr (.inl ⟨_, rfl, rfl⟩)⟩
  | writeResult directory c =>
    simp only [exec] at h
    cases h
    exact ⟨.inl rfl, .inl rfl, .inl rfl, .inr (.inr ⟨_, _, rfl, rfl⟩)⟩
  | saveCheckpoint thread cp =>
    simp only [exec] at h
    cases h
    exact ⟨.inr ⟨_, _, rfl, rfl⟩, .inl rfl, .inl rfl, .inl rfl⟩
  | _ =>
    simp only [exec] at h
    repeat' split at h
    all_goals first
      | (cases h; exact ⟨.inl rfl, .inl rfl, .inl rfl, .inl rfl⟩)
      | cases h

/-- **What an answer changes** of the files and the checkpoints. -/
theorem Answer.filed {s u : Durable} {e : Effect} {r : Except Fault e.Reply} (h : s.Answer e r u) :
    s.Filed e r u := by
  cases h with
  | fault hgrown => exact ⟨.inl hgrown.checkpoints, .inl hgrown.attempts, .inl hgrown.marker,
      .inl hgrown.result⟩
  | outside hgrown _ => exact ⟨.inl hgrown.checkpoints, .inl hgrown.attempts, .inl hgrown.marker,
      .inl hgrown.result⟩
  | exec hgrown hexec =>
    obtain ⟨h₁, h₂, h₃, h₄⟩ := exec_filed hexec
    rw [hgrown.checkpoints] at h₁
    rw [hgrown.attempts] at h₂
    rw [hgrown.marker] at h₃
    rw [hgrown.result] at h₄
    exact ⟨h₁, h₂, h₃, h₄⟩

/-- What a reply of the durable state is: that of `exec`, where the files and the checkpoints are the
same. -/
theorem Answer.reply {s u : Durable} {e : Effect} {a : e.Reply} (h : s.Answer e (.ok a) u) :
    ∃ t, s.Grown t ∧ (t.exec e = none ∨ t.exec e = some (.ok a, u)) := by
  cases h with
  | exec hgrown hexec => exact ⟨_, hgrown, .inr hexec⟩
  | outside hgrown hexec => exact ⟨_, hgrown, .inl hexec⟩

/-- An attempt file that was created is there. -/
theorem Answer.attempted {s u : Durable} {directory : String} {number : ℕ} {a : Unit}
    (h : s.Answer (.createAttempt directory number) (.ok a) u) :
    u.attempts = Function.update s.attempts directory (s.attempts directory ++ [number]) := by
  obtain ⟨t, hgrown, hreply⟩ := h.reply
  simp only [Durable.exec] at hreply
  split_ifs at hreply with hheld
  · simp at hreply
  · simp only [false_or, Option.some.injEq, Prod.mk.injEq] at hreply
    rw [← hreply.2, ← hgrown.attempts]

/-- A marker that was created was not there, and is. -/
theorem Answer.marked {s u : Durable} {directory : String} {a : Unit}
    (h : s.Answer (.createMarker directory) (.ok a) u) :
    s.marker directory = false ∧ u.marker directory = true := by
  obtain ⟨t, hgrown, hreply⟩ := h.reply
  simp only [Durable.exec] at hreply
  split_ifs at hreply with hheld
  · simp at hreply
  · simp only [false_or, Option.some.injEq, Prod.mk.injEq] at hreply
    rw [← hreply.2, ← hgrown.marker]
    exact ⟨Bool.not_eq_true _ ▸ hheld, Function.update_self ..⟩

/-- A checkpoint that was saved is there. -/
theorem Answer.saved {s u : Durable} {thread : String} {cp : Checkpoint} {a : Unit}
    (h : s.Answer (.saveCheckpoint thread cp) (.ok a) u) :
    u.checkpoints = Function.update s.checkpoints thread (some cp) := by
  obtain ⟨t, hgrown, hreply⟩ := h.reply
  simp only [Durable.exec, reduceCtorEq, false_or, Option.some.injEq, Prod.mk.injEq] at hreply
  rw [← hreply.2, ← hgrown.checkpoints]

/-- What is loaded is what was saved. -/
theorem Answer.loaded {s u : Durable} {thread : String} {found : Option Checkpoint}
    (h : s.Answer (.loadCheckpoint thread) (.ok found) u) : found = s.checkpoints thread := by
  obtain ⟨t, hgrown, hreply⟩ := h.reply
  simp only [Durable.exec, reduceCtorEq, false_or, Option.some.injEq, Prod.mk.injEq, Except.ok.injEq] at hreply
  rw [← hreply.1, hgrown.checkpoints]

/-- The host that answers as `exec` says, and as `outside` where that says nothing. -/
def handler (outside : (e : Effect) → Except Fault e.Reply) : Handler Host Durable := fun e s =>
  (s.exec e).getD (outside e, s)

/-- Such a host is one. -/
theorem handler_answer (outside : (e : Effect) → Except Fault e.Reply) (e : Effect) (s : Durable) :
    s.Answer e (handler outside e s).1 (handler outside e s).2 := by
  unfold handler
  cases h : s.exec e with
  | none => exact .outside (.refl s) h
  | some answered => exact .exec (.refl s) h

end Durable

/-- The host. -/
def Environment [Retention] : Machine Host Durable := ⟨Durable.Answer⟩

end PayOps.Orchestrator
