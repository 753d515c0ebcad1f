import PayOps.Orchestrator.Records
import PayOps.Process.Pool

/-!
# The threads of the read registry

`payops.tools.registry.ReadRegistry` down to its pool: two slots, two workers, and a lock under which a batch is
charged and submitted. `Orchestrator.Registry` has the same dispatch with the pool behind its requests.

## The model

`dispatch` and `close` are calls; so is a worker, which takes one job from the pool: a read, or the refresh of a
publication. `authorize`, `reserve`, the handlers, `verify` and the clock answer anything, at any time.

## What is proved

* `work_follows`, `dispatch_follows` — what each call asks for and returns.
* `authorizedRead_runs` — a read that succeeds has a grant on both sides, and verified evidence of its own.
* `read_registry` — no handler runs without its reservation, and what every result of a batch implies.

## Honest scope

`pool.submit` schedules the job and returns its future, or raises and schedules nothing.
-/

namespace PayOps.Tools

open Process Program Orchestrator

section Model

variable [Platform]

/-! ### Requests -/

/-- One request of the registry beside its pool. -/
inductive RegistryEffect where
  /-- Enter `self._lock`. -/
  | lock
  /-- Leave `self._lock`. -/
  | unlock
  /-- `self._closed`. -/
  | closed
  /-- `self._closed = True`. -/
  | setClosed
  /-- `self._pool.shutdown(wait=False)`. -/
  | shutdown
  /-- `monotonic()`. -/
  | monotonic
  /-- `self._reserve(batch, cost)`. -/
  | reserve (batch : List ReadRequest) (cost : ℕ)
  /-- `self._authorize()`. -/
  | authorize
  /-- `self._handlers[request.tool](request)`. -/
  | handler (request : ReadRequest)
  /-- `self._verify(item)`. -/
  | verify (item : EvidenceItem)
  /-- The span of the tracer, or its attributes. -/
  | span

/-- The reply to a request. -/
abbrev RegistryEffect.Reply : RegistryEffect → Type
  | lock => Unit
  | unlock => Unit
  | closed => Bool
  | setClosed => Unit
  | shutdown => Unit
  | monotonic => ℚ
  | reserve _ _ => Bool
  | authorize => Bool
  | handler _ => List EvidenceItem
  | verify _ => Unit
  | span => Unit

/-- What is beside the pool. -/
abbrev Beside : Interface := ⟨RegistryEffect, RegistryEffect.Reply, WorkerFault⟩

/-- What the pool is given to do. -/
inductive Job where
  /-- `_read`. -/
  | read (request : ReadRequest)
  /-- `_refresh`. -/
  | refresh
  deriving DecidableEq

/-- What becomes of a job: a result or a status, and when. -/
abbrev Job.Result : Job → Type
  | read _ => ReadResult × ℚ
  | refresh => ReadStatus × ℚ

/-- The interface of the registry. -/
abbrev RegistryHost : Interface := Pooled Beside Job.Result

/-- One request beside the pool. -/
def ask (e : RegistryEffect) : Program RegistryHost e.Reply := perform (I := RegistryHost) (.inr e)

/-- One request to the pool. -/
def pool (e : PoolEffect Job Job.Result WorkerFault) : Program RegistryHost e.Reply :=
  perform (I := RegistryHost) (.inl e)

/-! ### Workers -/

/-- A registry: the incident it is bound to, and the ceiling of its deadlines. -/
structure ReadRegistry where
  /-- `_incident_id`. -/
  incidentId : Identifier
  /-- `_ceiling`. -/
  ceiling : ℚ
  /-- `0 < deadline_ceiling <= 30`. -/
  bounded : 0 < ceiling ∧ ceiling ≤ 30

/-- A result without evidence. -/
def bare (request : ReadRequest) (status : ReadStatus) : ReadResult := ⟨request, status, [], Nat.zero_le 64⟩

/-- What is returned in the name of a grant. -/
def granted (allowed : Bool) : ReadStatus := if allowed then .ok else .denied

namespace ReadRegistry

variable (registry : ReadRegistry)

/-- The checks of every item. -/
def verifyAll (request : ReadRequest) : List EvidenceItem → Program RegistryHost Unit
  | [] => return ()
  | item :: items => do
    raiseIf (item.incidentId ≠ registry.incidentId ∨ item.resource.val ≠ request.service.name)
      (.exception "ValueError")
    ask (.verify item)
    verifyAll request items

/-- `_authorized_read`, in its `try`. -/
def readAuthorized (request : ReadRequest) : Program RegistryHost ReadResult := do
  let allowed ← ask .authorize
  if !allowed then return bare request .denied
  else
    let evidence ← ask (.handler request)
    if h : evidence.length ≤ 64 then
      raiseIf (¬(evidence.map EvidenceItem.evidenceId).Nodup) (.exception "ValueError")
      registry.verifyAll request evidence
      let allowed ← ask .authorize
      if !allowed then return bare request .denied
      else return ⟨request, .ok, evidence, h⟩
    else throw (.exception "ValueError")

/-- `_authorized_read`. -/
def authorizedRead (request : ReadRequest) : Program RegistryHost ReadResult := do
  match ← (registry.readAuthorized request).attempt with
  | .ok result => return result
  | .error .permission => return bare request .denied
  | .error x => if x.isException then return bare request .error else throw x

/-- `_read`, in its `try`. -/
def spannedRead (request : ReadRequest) : Program RegistryHost (ReadResult × ℚ) := do
  ask .span
  let result ← registry.authorizedRead request
  ask .span
  let completedAt ← ask .monotonic
  return (result, completedAt)

/-- `_refresh`, in its `try`. -/
def refreshed : Program RegistryHost (ReadStatus × ℚ) := do
  let status ← (do
    match ← (ask .authorize).attempt with
    | .ok allowed => return granted allowed
    | .error .permission => return .denied
    | .error x => if x.isException then return .error else throw x : Program RegistryHost ReadStatus)
  let completedAt ← ask .monotonic
  return (status, completedAt)

/-- `finally: self._slots.release()`. -/
def releasing {α : Type} (body : Program RegistryHost α) : Program RegistryHost α := do
  let outcome ← body.attempt
  pool .release
  ofResult outcome

/-- A worker of the pool, with one job. -/
def work : Program RegistryHost (List ReadResult) := do
  match ← pool .take with
  | (id, .read request) => do
    let outcome ← (releasing (registry.spannedRead request)).attempt
    pool (.finish id (.read request) outcome)
    return []
  | (id, .refresh) => do
    let outcome ← (releasing refreshed).attempt
    pool (.finish id .refresh outcome)
    return []

/-! ### Callers -/

/-- A read that was handed to the pool, or not. -/
structure Pending where
  /-- The read. -/
  request : ReadRequest
  /-- The number of its job. -/
  future : Option ℕ
  /-- Its deadline. -/
  deadline : ℚ

/-- `pool.submit`, with the slot given back where it raises. -/
def handedOver (job : Job) : Program RegistryHost ℕ := do
  match ← (pool (.submit job)).attempt with
  | .ok id => return id
  | .error x => do
    pool .release
    throw x

/-- How long a read may take. -/
def patience (request : ReadRequest) : ℚ := min (CATALOG request.tool).deadlineSeconds registry.ceiling

/-- `_submit`. -/
def submit (request : ReadRequest) : Program RegistryHost Pending := do
  let now ← ask .monotonic
  let taken ← pool .acquire
  if !taken then return ⟨request, none, now + registry.patience request⟩
  else
    let id ← handedOver (.read request)
    return ⟨request, some id, now + registry.patience request⟩

/-- `_submit` for every read of a batch. -/
def submitAll : List ReadRequest → Program RegistryHost (List Pending)
  | [] => return []
  | request :: requests => do
    let first ← registry.submit request
    let rest ← submitAll requests
    return first :: rest

/-- `_result`. -/
def result (p : Pending) : Program RegistryHost ReadResult :=
  match p.future with
  | none => return bare p.request .busy
  | some id => do
    let outcome ← (do
      let _ ← ask .monotonic
      pool (.await id (.read p.request)) : Program RegistryHost (ReadResult × ℚ)).attempt
    match outcome with
    | .ok (result, completedAt) =>
      if completedAt > p.deadline then return bare p.request .timeout else return result
    | .error .timeout => return bare p.request .timeout
    | .error x => if x.isException then return bare p.request .error else throw x

/-- `_result` for every read of a batch. -/
def resultAll : List Pending → Program RegistryHost (List ReadResult)
  | [] => return []
  | p :: pending => do
    let first ← result p
    let rest ← resultAll pending
    return first :: rest

/-- `with self._lock`. -/
def locked {α : Type} (body : Program RegistryHost α) : Program RegistryHost α := do
  ask .lock
  let outcome ← body.attempt
  ask .unlock
  ofResult outcome

/-- `_publication_status`, under the lock: the job and its deadline, if there is a slot. -/
def submitRefresh : Program RegistryHost (Option (ℕ × ℚ)) := do
  let closed ← ask .closed
  if closed then return none
  else
    let taken ← pool .acquire
    if !taken then return none
    else
      let submission ← (do
        let now ← ask .monotonic
        let id ← pool (.submit .refresh)
        return (id, now + min 8 registry.ceiling) : Program RegistryHost (ℕ × ℚ)).attempt
      match submission with
      | .ok pending => return some pending
      | .error x => do
        pool .release
        throw x

/-- `_publication_status`. -/
def publicationStatus : Program RegistryHost ReadStatus := do
  match ← locked registry.submitRefresh with
  | none => return .busy
  | some (id, deadline) => do
    let outcome ← (do
      let _ ← ask .monotonic
      pool (.await id .refresh) : Program RegistryHost (ReadStatus × ℚ)).attempt
    match outcome with
    | .ok (status, completed) => return if completed ≤ deadline then status else .timeout
    | .error .timeout => return .timeout
    | .error x => throw x

/-- What `_publish` makes of a result. -/
def published (status : ReadStatus) (item : ReadResult) : ReadResult :=
  if item.status = .ok ∧ status ≠ .ok then bare item.request status else item

/-- `_publish`. -/
def publish (results : List ReadResult) : Program RegistryHost (List ReadResult) :=
  if results.any fun item => item.status == .ok then do
    let status ← registry.publicationStatus
    return results.map (published status)
  else return results

/-- `dispatch`, under the lock: the reads that were submitted, if the batch was charged. -/
def charge (batch : List ReadRequest) : Program RegistryHost (Option (List Pending)) := do
  let closed ← ask .closed
  raiseIf (closed = true) (.exception "RuntimeError")
  let reserved ← ask (.reserve batch (backendCost batch))
  if !reserved then return none
  else
    let pending ← registry.submitAll batch
    return some pending

/-- `dispatch`. -/
def dispatch (batch : List ReadRequest) : Program RegistryHost (List ReadResult) := do
  raiseIf (¬(1 ≤ batch.length ∧ batch.length ≤ 2) ∨ ¬batch.Nodup) (.exception "ValueError")
  match ← locked (registry.charge batch) with
  | none => return batch.map fun x => bare x .budgetExhausted
  | some pending => do
    let results ← resultAll pending
    registry.publish results

/-- `close`. -/
def close : Program RegistryHost (List ReadResult) := do
  locked (do
    ask .setClosed
    ask .shutdown)
  return []

/-- The calls on a registry, and its workers. -/
inductive Use : Program RegistryHost (List ReadResult) → Prop
  /-- `dispatch`. -/
  | dispatch (batch : List ReadRequest) : Use (registry.dispatch batch)
  /-- `close`. -/
  | close : Use close
  /-- A worker. -/
  | work : Use registry.work

end ReadRegistry

/-- The lock and the flag of a registry. -/
structure Guarded where
  /-- Somebody has the lock. -/
  locked : Bool
  /-- `_closed`. -/
  closed : Bool

/-- What is beside the pool keeps the lock and the flag, and answers everything else as it likes; who waits for the
lock may be interrupted. -/
def beside : Machine Beside Guarded where
  answer s e r s' :=
    match e with
    | .lock => (s.locked = false ∧ r = .ok () ∧ s' = { s with locked := true }) ∨ ((∃ x, r = .error x) ∧ s' = s)
    | .unlock => r = .ok () ∧ s' = { s with locked := false }
    | .closed => r = .ok s.closed ∧ s' = s
    | .setClosed => r = .ok () ∧ s' = { s with closed := true }
    | _ => s' = s

/-- The environment of a registry. -/
def environment : Machine RegistryHost (Pool Job.Result WorkerFault × Guarded) := pooled 2 .timeout beside

/-! ### What a run of a read says -/

/-- The evidence of a read is its own, verified, with a grant on both sides. -/
structure Endorsed (registry : ReadRegistry) (request : ReadRequest) (result : ReadResult)
    (h : History RegistryHost) : Prop where
  /-- A grant, the handler, a check of every item, and a grant. -/
  events : h = ⟨.inr .authorize, .ok true⟩ :: ⟨.inr (.handler request), .ok result.evidence⟩ ::
    (result.evidence.map fun item => ⟨.inr (.verify item), .ok ()⟩) ++ [⟨.inr .authorize, .ok true⟩]
  /-- No evidence twice. -/
  distinct : (result.evidence.map EvidenceItem.evidenceId).Nodup
  /-- All of it is the incident's and the service's. -/
  own : ∀ item ∈ result.evidence,
    item.incidentId = registry.incidentId ∧ item.resource.val = request.service.name

/-- What a read that has come to a result says of it. -/
def Sound (registry : ReadRegistry) (request : ReadRequest) (result : ReadResult) (h : History RegistryHost) :
    Prop :=
  result.request = request ∧ (result.status ≠ .ok → result.evidence = []) ∧
    (result.status = .ok → Endorsed registry request result h)

theorem sound_bare {registry : ReadRegistry} {request : ReadRequest} {h : History RegistryHost}
    {status : ReadStatus} (hstatus : status ≠ .ok) :
    Sound registry request (bare request status) h := ⟨rfl, fun _ => rfl, fun hok => absurd hok hstatus⟩

namespace ReadRegistry

variable {registry : ReadRegistry} {request : ReadRequest} {h : History RegistryHost}

theorem verifyAll_runs {items : List EvidenceItem} {u : Unit}
    (hruns : Runs (registry.verifyAll request items) h (.ok u)) :
    h = items.map (fun item => ⟨.inr (.verify item), .ok ()⟩) ∧ ∀ item ∈ items,
      item.incidentId = registry.incidentId ∧ item.resource.val = request.service.name := by
  induction items generalizing h with
  | nil =>
    obtain ⟨rfl, -⟩ := runs_done.mp hruns
    exact ⟨rfl, by simp⟩
  | cons item items ih =>
    obtain ⟨hown, hverify⟩ := runs_raiseIf_bind_ok.mp hruns
    obtain ⟨_, h', rfl, hrest⟩ := runs_perform_bind_ok.mp hverify
    obtain ⟨rfl, hall⟩ := ih hrest
    push Not at hown
    exact ⟨rfl, List.forall_mem_cons.mpr ⟨hown, hall⟩⟩

theorem readAuthorized_runs {result : ReadResult}
    (hruns : Runs (registry.readAuthorized request) h (.ok result)) : Sound registry request result h := by
  unfold readAuthorized at hruns
  obtain ⟨allowed, h₁, rfl, hfirst⟩ := runs_perform_bind_ok.mp hruns
  split_ifs at hfirst with hallowed
  · obtain ⟨-, hresult⟩ := runs_done.mp hfirst
    cases hresult
    exact sound_bare (by decide)
  obtain rfl : allowed = true := by simpa using hallowed
  obtain ⟨evidence, h₂, rfl, hsecond⟩ := runs_perform_bind_ok.mp hfirst
  split_ifs at hsecond with hbounded
  · obtain ⟨hdistinct, hthird⟩ := runs_raiseIf_bind_ok.mp hsecond
    obtain ⟨_, h₃, h₄, rfl, hverify, hfourth⟩ := runs_bind_ok.mp hthird
    obtain ⟨rfl, hown⟩ := verifyAll_runs hverify
    obtain ⟨allowed', h₅, rfl, hend⟩ := runs_perform_bind_ok.mp hfourth
    split_ifs at hend with hallowed'
    · obtain ⟨-, hresult⟩ := runs_done.mp hend
      cases hresult
      exact sound_bare (by decide)
    · obtain rfl : allowed' = true := by simpa using hallowed'
      obtain ⟨rfl, hresult⟩ := runs_done.mp hend
      cases hresult
      exact ⟨rfl, fun hne => absurd rfl hne, fun _ => ⟨rfl, not_not.mp hdistinct, hown⟩⟩
  · cases (runs_fail.mp hsecond).2

/-- **A read that succeeds** has a grant on both sides, and verified evidence of its own. -/
theorem authorizedRead_runs {result : ReadResult}
    (hruns : Runs (registry.authorizedRead request) h (.ok result)) : Sound registry request result h := by
  unfold authorizedRead at hruns
  obtain ⟨outcome, h₁, h₂, rfl, hattempt, hrest⟩ := runs_bind_ok.mp hruns
  obtain ⟨outcome', houtcome, hran⟩ := runs_attempt.mp hattempt
  cases houtcome
  rcases outcome with x | found
  · have hbare : ∀ {status : ReadStatus}, status ≠ .ok →
        Runs (done (bare request status) : Program RegistryHost ReadResult) h₂ (.ok result) →
        Sound registry request result (h₁ ++ h₂) := by
      intro status hstatus hdone
      obtain ⟨-, hresult⟩ := runs_done.mp hdone
      cases hresult
      exact sound_bare hstatus
    cases x with
    | permission => exact hbare (by decide) hrest
    | timeout => exact hbare (by decide) hrest
    | exception name => exact hbare (by decide) hrest
    | base name => cases (runs_fail.mp hrest).2
  · obtain ⟨rfl, hresult⟩ := runs_done.mp hrest
    cases hresult
    rw [List.append_nil]
    exact readAuthorized_runs hran

/-- A refresh that says `OK` has a grant. -/
theorem refreshed_runs {completed : ℚ} (hruns : Runs refreshed h (.ok (.ok, completed))) :
    h = [⟨.inr .authorize, .ok true⟩, ⟨.inr .monotonic, .ok completed⟩] := by
  unfold refreshed at hruns
  obtain ⟨status, h₁, h₂, rfl, hstatus, hclock⟩ := runs_bind_ok.mp hruns
  obtain ⟨now, h₃, rfl, hdone⟩ := runs_perform_bind_ok.mp hclock
  obtain ⟨rfl, hend⟩ := runs_done.mp hdone
  cases hend
  obtain ⟨outcome, h₄, h₅, rfl, hattempt, hgrant⟩ := runs_bind_ok.mp hstatus
  obtain ⟨outcome', houtcome, hasked⟩ := runs_attempt.mp hattempt
  cases houtcome
  obtain rfl := runs_perform.mp hasked
  rcases outcome with x | allowed
  · cases x with
    | permission => cases (runs_done.mp hgrant).2
    | timeout => cases (runs_done.mp hgrant).2
    | exception name => cases (runs_done.mp hgrant).2
    | base name => cases (runs_fail.mp hgrant).2
  · obtain ⟨rfl, hallowed⟩ := runs_done.mp hgrant
    cases allowed with
    | true => rfl
    | false => cases hallowed

end ReadRegistry

/-! ### What a call asks for -/

/-- What a worker has done when its read has come to `result`, at `completedAt`. -/
def ReadDone (registry : ReadRegistry) (id : ℕ) (request : ReadRequest) (result : ReadResult) (completedAt : ℚ)
    (h : History RegistryHost) : Prop :=
  ∃ g, h = ⟨.inl .take, .ok (id, .read request)⟩ :: ⟨.inr .span, .ok ()⟩ :: g ++
      [⟨.inr .span, .ok ()⟩, ⟨.inr .monotonic, .ok completedAt⟩, ⟨.inl .release, .ok ()⟩] ∧
    Sound registry request result g

/-- What a worker has done when its refresh has come to `OK`, at `completed`. -/
def RefreshDone (id : ℕ) (completed : ℚ) (h : History RegistryHost) : Prop :=
  h = [⟨.inl .take, .ok (id, .refresh)⟩, ⟨.inr .authorize, .ok true⟩, ⟨.inr .monotonic, .ok completed⟩,
    ⟨.inl .release, .ok ()⟩]

/-- A batch was charged with the sum of the catalog. -/
def Reserved (batch : List ReadRequest) (h : History RegistryHost) : Prop :=
  ⟨.inr (.reserve batch (backendCost batch)), .ok true⟩ ∈ h

/-- What a call, with this batch or none, may ask for after the events `h`. -/
def Allowed (registry : ReadRegistry) (batch : List ReadRequest) (h : History RegistryHost)
    (ev : Event RegistryHost) : Prop :=
  SlotRule h ev ∧
    match ev.effect with
    | .inr (.handler request) => ∃ id, ⟨.inl .take, .ok (id, .read request)⟩ ∈ h
    | .inl (.submit (.read request)) => request ∈ batch ∧ Reserved batch h
    | .inl (.finish id (.read request) (.ok (result, completedAt))) =>
      ReadDone registry id request result completedAt h
    | .inl (.finish id .refresh (.ok (status, completed))) => status = .ok → RefreshDone id completed h
    | _ => True

/-- A call has given its slots back, unless that failed. -/
def Settled (h : History RegistryHost) : Prop := (∀ x, ⟨.inl .release, .error x⟩ ∉ h) → Free h

theorem settled_of_free {h : History RegistryHost} (hfree : Free h) : Settled h := fun _ => hfree

/-- An event beside the pool changes nothing. -/
theorem free_beside {h : History RegistryHost} {e : RegistryEffect} {r : Except WorkerFault e.Reply}
    (hfree : Free h) : Free (h ++ [⟨.inr e, r⟩]) := hfree.other ⟨rfl, rfl⟩

theorem settled_beside {h : History RegistryHost} {e : RegistryEffect} {r : Except WorkerFault e.Reply}
    (hsettled : Settled h) : Settled (h ++ [⟨.inr e, r⟩]) := by
  intro hok
  exact free_beside (hsettled fun x hx => hok x (List.mem_append_left _ hx))

/-- A wait changes nothing. -/
theorem free_await {h : History RegistryHost} {id : ℕ} {job : Job} {r : Except WorkerFault job.Result}
    (hfree : Free h) : Free (h ++ [⟨.inl (.await id job), r⟩]) := hfree.other ⟨rfl, rfl⟩

/-! ### Workers -/

namespace ReadRegistry

variable {registry : ReadRegistry} {batch : List ReadRequest} {h : History RegistryHost}

/-- A worker with a job holds a slot. -/
def Working (request : Option ReadRequest) (h : History RegistryHost) : Prop :=
  Held h ∧ ∀ r, request = some r → ∃ id, ⟨.inl .take, .ok (id, .read r)⟩ ∈ h

/-- Beside the pool, and no handler but that of the request. -/
def Only (request : Option ReadRequest) (e : RegistryHost.Effect) : Prop :=
  ∃ e', e = .inr e' ∧ ∀ r, e' = .handler r → request = some r

/-- A job of the pool gives its slot back, whatever it comes to. -/
theorem releasing_follows {α : Type} {request : Option ReadRequest} {body : Program RegistryHost α}
    (hbody : Within (Only request) body) (hw : Working request h) :
    Follows (Allowed registry batch) (releasing body) h fun r h' =>
      ∃ g u, h' = h ++ g ++ [⟨.inl .release, u⟩] ∧ Held (h ++ g) ∧
        ∀ a, r = .ok a → u = .ok () ∧ Runs body g (.ok a) := by
  have hbeside : Follows (Allowed registry batch) body h fun r h' =>
      Working request h' ∧ ∃ g, h' = h ++ g ∧ Runs body g r := by
    refine (Follows.within (R := Working request) hbody hw ?_).and_runs
    rintro h ⟨e, r⟩ ⟨hheld, htook⟩ ⟨e', rfl, hhandler⟩
    refine ⟨⟨trivial, ?_⟩, hheld.other ⟨rfl, rfl⟩, fun r hr => ?_⟩
    · cases e' with
      | handler request' => exact htook request' (hhandler request' rfl)
      | _ => trivial
    · obtain ⟨id, hid⟩ := htook r hr
      exact ⟨id, List.mem_append_left _ hid⟩
  refine follows_bind.mpr (follows_attempt.mpr (hbeside.mono ?_))
  rintro outcome _ ⟨⟨hheld, -⟩, g, rfl, hruns⟩
  refine follows_perform_bind.mpr fun u => ⟨⟨hheld, trivial⟩, fun x hx => ?_, fun _ hu => ?_⟩
  · subst hx
    exact ⟨g, _, rfl, hheld, fun a ha => by cases ha⟩
  · subst hu
    exact follows_ofResult.mpr ⟨g, _, rfl, hheld, fun a ha => ⟨rfl, ha ▸ hruns⟩⟩

theorem settled_finish {ev : Event RegistryHost} {u : Except WorkerFault Unit} (hheld : Held h)
    (hev : gains ev = false ∧ gives ev = false) : Settled (h ++ [⟨.inl .release, u⟩] ++ [ev]) := by
  intro hok
  cases u with
  | error x => exact absurd (by simp) (hok x)
  | ok _ =>
    have hfree : Free (h ++ [⟨.inl .release, .ok ()⟩]) := hheld.give ⟨rfl, rfl⟩
    exact hfree.other hev

theorem ask_within {request : Option ReadRequest} {e : RegistryEffect}
    (he : ∀ r, e = .handler r → request = some r) : Within (Only request) (ask e) :=
  within_perform.mpr ⟨e, rfl, he⟩

theorem spannedRead_within {request : ReadRequest} :
    Within (Only (some request)) (registry.spannedRead request) := by
  have hverify : ∀ items, Within (Only (some request)) (registry.verifyAll request items) := by
    intro items
    induction items with
    | nil => trivial
    | cons item items ih => exact within_raiseIf.bind fun _ => (ask_within (by simp)).bind fun _ => ih
  have hread : Within (Only (some request)) (registry.readAuthorized request) := by
    refine (ask_within (by simp)).bind fun allowed => ?_
    split_ifs
    · trivial
    · refine (ask_within (by simp)).bind fun evidence => ?_
      split_ifs
      · refine within_raiseIf.bind fun _ => (hverify evidence).bind fun _ => (ask_within (by simp)).bind fun _ => ?_
        split_ifs <;> trivial
      · trivial
  have hauthorized : Within (Only (some request)) (registry.authorizedRead request) := by
    refine (within_attempt.mpr hread).bind fun outcome => ?_
    rcases outcome with x | found
    · cases x <;> trivial
    · trivial
  exact (ask_within (by simp)).bind fun _ => hauthorized.bind fun _ => (ask_within (by simp)).bind fun _ =>
    (ask_within (by simp)).bind fun _ => trivial

theorem refreshed_within : Within (Only none) refreshed := by
  refine Within.bind ((within_attempt.mpr (ask_within (by simp))).bind fun outcome => ?_) fun _ =>
    (ask_within (by simp)).bind fun _ => trivial
  rcases outcome with x | allowed
  · cases x <;> trivial
  · trivial

/-- **What a worker asks for.** -/
theorem work_follows : Follows (Allowed registry batch) registry.work [] fun _ h => Settled h := by
  refine follows_perform_bind.mpr fun r => ⟨⟨rfl, trivial⟩, fun x hx => ?_, fun job hjob => ?_⟩
  · subst hx
    exact fun _ => rfl
  subst hjob
  obtain ⟨id, request | _⟩ := job
  · have hw : Working (some request) [⟨.inl .take, .ok (id, .read request)⟩] :=
      ⟨rfl, fun r hr => ⟨id, by cases hr; exact List.mem_singleton_self _⟩⟩
    refine follows_bind.mpr (follows_attempt.mpr ((releasing_follows spannedRead_within hw).mono ?_))
    rintro outcome _ ⟨g, u, rfl, hheld, hran⟩
    refine follows_perform_bind.mpr fun v => ⟨⟨trivial, ?_⟩, fun x hx => ?_, fun _ hv => ?_⟩
    · rcases outcome with x | ⟨result, completedAt⟩
      · trivial
      · obtain ⟨rfl, hruns⟩ := hran _ rfl
        obtain ⟨_, h₁, rfl, hread⟩ := runs_perform_bind_ok.mp hruns
        obtain ⟨found, h₂, h₃, rfl, hfound, hrest⟩ := runs_bind_ok.mp hread
        obtain ⟨_, h₄, rfl, hclock⟩ := runs_perform_bind_ok.mp hrest
        obtain ⟨now, h₅, rfl, hdone⟩ := runs_perform_bind_ok.mp hclock
        obtain ⟨rfl, hend⟩ := runs_done.mp hdone
        cases hend
        exact ⟨h₂, by simp, authorizedRead_runs hfound⟩
    · exact settled_finish hheld ⟨rfl, rfl⟩
    · exact settled_finish hheld ⟨rfl, rfl⟩
  · have hw : Working none [⟨.inl .take, .ok (id, .refresh)⟩] := ⟨rfl, fun r hr => by cases hr⟩
    refine follows_bind.mpr (follows_attempt.mpr ((releasing_follows refreshed_within hw).mono ?_))
    rintro outcome _ ⟨g, u, rfl, hheld, hran⟩
    refine follows_perform_bind.mpr fun v => ⟨⟨trivial, ?_⟩, fun x hx => ?_, fun _ hv => ?_⟩
    · rcases outcome with x | ⟨status, completed⟩
      · trivial
      · rintro rfl
        obtain ⟨rfl, hruns⟩ := hran _ rfl
        rw [refreshed_runs hruns]
        rfl
    · exact settled_finish hheld ⟨rfl, rfl⟩
    · exact settled_finish hheld ⟨rfl, rfl⟩

end ReadRegistry

/-! ### Submission -/

namespace ReadRegistry

variable {registry : ReadRegistry} {batch : List ReadRequest} {h : History RegistryHost}

/-- A read was submitted with this deadline. -/
def Submitted (registry : ReadRegistry) (request : ReadRequest) (id : ℕ) (deadline : ℚ)
    (h : History RegistryHost) : Prop :=
  ∃ h₁ now h₂, h = h₁ ++ [⟨.inr .monotonic, .ok now⟩, ⟨.inl .acquire, .ok true⟩,
    ⟨.inl (.submit (.read request)), .ok id⟩] ++ h₂ ∧ deadline = now + registry.patience request

theorem Submitted.append {request : ReadRequest} {id : ℕ} {deadline : ℚ}
    (hsubmitted : Submitted registry request id deadline h) (g : History RegistryHost) :
    Submitted registry request id deadline (h ++ g) := by
  obtain ⟨h₁, now, h₂, rfl, hdeadline⟩ := hsubmitted
  exact ⟨h₁, now, h₂ ++ g, by simp, hdeadline⟩

/-- What a read became that was handed to the pool, or not. -/
def Handed (registry : ReadRegistry) (h : History RegistryHost) (request : ReadRequest) (p : Pending) : Prop :=
  p.request = request ∧ ∀ id, p.future = some id → Submitted registry request id p.deadline h

theorem Handed.append {request : ReadRequest} {p : Pending} (hhanded : Handed registry h request p)
    (g : History RegistryHost) : Handed registry (h ++ g) request p :=
  ⟨hhanded.1, fun id hid => (hhanded.2 id hid).append g⟩

/-- A slot goes with the job, or is given back. -/
theorem handedOver_follows {job : Job} (hheld : Held h)
    (hallowed : ∀ r, Allowed registry batch h ⟨.inl (.submit job), r⟩) :
    Follows (Allowed registry batch) (handedOver job) h fun r h' =>
      match r with
      | .ok id => h' = h ++ [⟨.inl (.submit job), .ok id⟩] ∧ Free h'
      | .error _ => Settled h' := by
  refine follows_bind.mpr (follows_attempt.mpr (follows_perform.mpr fun r => ⟨hallowed r, ?_⟩))
  rcases r with x | id
  · have hheld' : Held (h ++ [⟨.inl (.submit job), .error x⟩]) := hheld.other ⟨rfl, rfl⟩
    refine follows_perform_bind.mpr fun u => ⟨⟨hheld', trivial⟩, fun y hy => ?_, fun _ hu => ?_⟩
    · subst hy
      exact fun hok => absurd (by simp) (hok y)
    · subst hu
      exact fun _ => hheld'.give ⟨rfl, rfl⟩
  · exact ⟨rfl, hheld.give ⟨rfl, rfl⟩⟩

theorem submit_follows {request : ReadRequest} (hrequest : request ∈ batch) (hreserved : Reserved batch h)
    (hfree : Free h) : Follows (Allowed registry batch) (registry.submit request) h fun r h' =>
      match r with
      | .ok p => Free h' ∧ Handed registry h' request p
      | .error _ => Settled h' := by
  refine follows_perform_bind.mpr fun r => ⟨⟨trivial, trivial⟩, fun x hx => ?_, fun now hnow => ?_⟩
  · subst hx
    exact settled_beside (settled_of_free hfree)
  subst hnow
  have hfree' := free_beside (e := .monotonic) (r := .ok now) hfree
  refine follows_perform_bind.mpr fun r => ⟨⟨hfree', trivial⟩, fun x hx => ?_, fun taken htaken => ?_⟩
  · subst hx
    exact settled_of_free (hfree'.other ⟨rfl, rfl⟩)
  subst htaken
  cases taken with
  | false => exact ⟨hfree'.other ⟨rfl, rfl⟩, rfl, fun id hid => by cases hid⟩
  | true =>
    have hheld : Held (h ++ [⟨.inr .monotonic, .ok now⟩] ++ [⟨.inl .acquire, .ok true⟩]) :=
      hfree'.gain ⟨rfl, rfl⟩
    have hallowed : ∀ r, Allowed registry batch (h ++ [⟨.inr .monotonic, .ok now⟩] ++ [⟨.inl .acquire, .ok true⟩])
        ⟨.inl (.submit (.read request)), r⟩ := fun r =>
      ⟨hheld, hrequest, List.mem_append_left _ (List.mem_append_left _ hreserved)⟩
    refine follows_bind.mpr ((handedOver_follows hheld hallowed).mono ?_)
    intro r h' hpost
    rcases r with x | id
    · exact hpost
    · obtain ⟨rfl, hfree''⟩ := hpost
      refine ⟨hfree'', rfl, fun id' hid => ?_⟩
      cases hid
      exact ⟨h, now, [], by simp, rfl⟩

/-- **What the reads of a batch become.** -/
theorem submitAll_follows {requests : List ReadRequest} (hrequests : requests ⊆ batch)
    (hreserved : Reserved batch h) (hfree : Free h) :
    Follows (Allowed registry batch) (registry.submitAll requests) h fun r h' =>
      match r with
      | .ok pending => Free h' ∧ List.Forall₂ (Handed registry h') requests pending
      | .error _ => Settled h' := by
  induction requests generalizing h with
  | nil => exact ⟨hfree, .nil⟩
  | cons request requests ih =>
    obtain ⟨hrequest, hrest⟩ := List.cons_subset.mp hrequests
    refine follows_bind.mpr ((submit_follows hrequest hreserved hfree).and_runs.mono ?_)
    rintro r _ ⟨hpost, g, rfl, -⟩
    rcases r with x | p
    · exact hpost
    · have hreserved' : Reserved batch (h ++ g) := List.mem_append_left _ hreserved
      refine follows_bind.mpr ((ih hrest hreserved' hpost.1).and_runs.mono ?_)
      rintro r _ ⟨hpost', g', rfl, -⟩
      rcases r with x | pending
      · exact hpost'
      · exact ⟨hpost'.1, .cons (hpost.2.append g') hpost'.2⟩

/-- A section under the lock. -/
theorem locked_follows {α : Type} {body : Program RegistryHost α} {Q Q' : Except WorkerFault α → History RegistryHost → Prop}
    (hlock : ∀ x, Q' (.error x) (h ++ [⟨.inr .lock, .error x⟩]))
    (hbody : Follows (Allowed registry batch) body (h ++ [⟨.inr .lock, .ok ()⟩]) Q)
    (hunlock : ∀ r h' x, Q r h' → Q' (.error x) (h' ++ [⟨.inr .unlock, .error x⟩]))
    (hleave : ∀ r h', Q r h' → Q' r (h' ++ [⟨.inr .unlock, .ok ()⟩])) :
    Follows (Allowed registry batch) (locked body) h Q' := by
  refine follows_perform_bind.mpr fun r => ⟨⟨trivial, trivial⟩, fun x hx => ?_, fun _ hr => ?_⟩
  · subst hx
    exact hlock x
  subst hr
  refine follows_bind.mpr (follows_attempt.mpr (hbody.mono fun r h' hQ => ?_))
  refine follows_perform_bind.mpr fun u => ⟨⟨trivial, trivial⟩, fun x hx => ?_, fun _ hu => ?_⟩
  · subst hx
    exact hunlock r h' x hQ
  · subst hu
    exact follows_ofResult.mpr (hleave r h' hQ)

/-- What a batch became under the lock. -/
def Charged (registry : ReadRegistry) (batch : List ReadRequest)
    (r : Except WorkerFault (Option (List Pending))) (h : History RegistryHost) : Prop :=
  match r with
  | .ok none => Free h
  | .ok (some pending) => Free h ∧ List.Forall₂ (Handed registry h) batch pending
  | .error _ => Settled h

theorem Charged.settled {r : Except WorkerFault (Option (List Pending))} (hcharged : Charged registry batch r h) :
    Settled h := by
  rcases r with x | _ | pending
  · exact hcharged
  · exact settled_of_free hcharged
  · exact settled_of_free hcharged.1

theorem charge_follows (hfree : Free h) : Follows (Allowed registry batch) (registry.charge batch) h
    (Charged registry batch) := by
  refine follows_perform_bind.mpr fun r => ⟨⟨trivial, trivial⟩, fun x hx => ?_, fun closed hclosed => ?_⟩
  · subst hx
    exact settled_beside (settled_of_free hfree)
  subst hclosed
  refine follows_raiseIf_bind.mpr ⟨fun _ => settled_beside (settled_of_free hfree), fun _ => ?_⟩
  refine follows_perform_bind.mpr fun r => ⟨⟨trivial, trivial⟩, fun x hx => ?_, fun reserved hreserved => ?_⟩
  · subst hx
    exact settled_beside (settled_beside (settled_of_free hfree))
  subst hreserved
  cases reserved with
  | false => exact free_beside (free_beside hfree)
  | true =>
    refine follows_bind.mpr ((submitAll_follows (List.Subset.refl batch) ?_
      (free_beside (free_beside hfree))).mono ?_)
    · exact List.mem_append_right _ (List.mem_singleton_self _)
    · intro r h' hpost
      rcases r with x | pending
      · exact hpost
      · exact hpost

end ReadRegistry

/-! ### Results -/

namespace ReadRegistry

variable {registry : ReadRegistry} {batch : List ReadRequest} {h : History RegistryHost}

/-- What a result is: nothing, or what the call got for its read in time. -/
def Outcome (registry : ReadRegistry) (h : History RegistryHost) (request : ReadRequest) (result : ReadResult) :
    Prop :=
  (∃ status, status ≠ .ok ∧ result = bare request status) ∨
    ∃ id deadline completedAt, Submitted registry request id deadline h ∧
      ⟨.inl (.await id (.read request)), .ok (result, completedAt)⟩ ∈ h ∧ completedAt ≤ deadline

theorem Outcome.append {request : ReadRequest} {result : ReadResult} (houtcome : Outcome registry h request result)
    (g : History RegistryHost) : Outcome registry (h ++ g) request result := by
  rcases houtcome with hbare | ⟨id, deadline, completedAt, hsubmitted, hawait, hintime⟩
  · exact .inl hbare
  · exact .inr ⟨id, deadline, completedAt, hsubmitted.append g, List.mem_append_left _ hawait, hintime⟩

theorem outcome_bare {request : ReadRequest} {status : ReadStatus} (hstatus : status ≠ .ok) :
    Outcome registry h request (bare request status) := .inl ⟨status, hstatus, rfl⟩

theorem result_follows {request : ReadRequest} {p : Pending} (hhanded : Handed registry h request p)
    (hfree : Free h) : Follows (Allowed registry batch) (result p) h fun r h' => Free h' ∧
      ∀ result, r = .ok result → Outcome registry h' request result := by
  obtain ⟨rfl, hsubmitted⟩ := hhanded
  obtain ⟨request, _ | id, deadline⟩ := p
  · exact ⟨hfree, fun result hresult => by cases hresult; exact outcome_bare (by decide)⟩
  have hbare : ∀ {status : ReadStatus} {h' : History RegistryHost}, status ≠ .ok → Free h' →
      Free h' ∧ ∀ result, (.ok (bare request status) : Except WorkerFault ReadResult) = .ok result →
        Outcome registry h' request result := by
    intro status h' hstatus hfree'
    refine ⟨hfree', fun result hresult => ?_⟩
    cases hresult
    exact outcome_bare hstatus
  refine follows_bind.mpr (follows_attempt.mpr (follows_perform_bind.mpr fun r =>
    ⟨⟨trivial, trivial⟩, fun x hx => ?_, fun now hnow => follows_perform.mpr fun out => ⟨⟨trivial, trivial⟩, ?_⟩⟩))
  · subst hx
    have hfree' := free_beside (e := .monotonic) (r := .error x) hfree
    cases x with
    | timeout => exact hbare (by decide) hfree'
    | permission => exact hbare (by decide) hfree'
    | exception name => exact hbare (by decide) hfree'
    | base name => exact ⟨hfree', fun result hresult => by cases hresult⟩
  · subst hnow
    have hfree' : Free (h ++ [⟨.inr .monotonic, .ok now⟩] ++ [⟨.inl (.await id (.read request)), out⟩]) :=
      free_await (free_beside hfree)
    rcases out with x | ⟨result, completedAt⟩
    · cases x with
      | timeout => exact hbare (by decide) hfree'
      | permission => exact hbare (by decide) hfree'
      | exception name => exact hbare (by decide) hfree'
      | base name => exact ⟨hfree', fun result hresult => by cases hresult⟩
    · by_cases hlate : completedAt > deadline
      · simp only [hlate, if_true]
        exact hbare (by decide) hfree'
      · simp only [hlate, if_false]
        refine ⟨hfree', fun result' hresult => ?_⟩
        cases hresult
        exact .inr ⟨id, deadline, completedAt, ((hsubmitted id rfl).append _).append _, by simp, not_lt.mp hlate⟩

/-- **What the results of a batch are.** -/
theorem resultAll_follows {requests : List ReadRequest} {pending : List Pending}
    (hhanded : List.Forall₂ (Handed registry h) requests pending) (hfree : Free h) :
    Follows (Allowed registry batch) (resultAll pending) h fun r h' => Free h' ∧
      ∀ results, r = .ok results → List.Forall₂ (Outcome registry h') requests results := by
  induction pending generalizing requests h with
  | nil =>
    cases hhanded
    exact ⟨hfree, fun results hresults => by cases hresults; exact .nil⟩
  | cons p pending ih =>
    cases hhanded with
    | @cons request _ requests _ hfirst hrest =>
      refine follows_bind.mpr ((result_follows hfirst hfree).and_runs.mono ?_)
      rintro r _ ⟨⟨hfree', hresult⟩, g, rfl, -⟩
      rcases r with x | result
      · exact ⟨hfree', fun results hresults => by cases hresults⟩
      have hrest' : List.Forall₂ (Handed registry (h ++ g)) requests pending :=
        hrest.imp fun _ _ hhanded => hhanded.append g
      refine follows_bind.mpr ((ih hrest' hfree').and_runs.mono ?_)
      rintro r _ ⟨⟨hfree'', hresults⟩, g', rfl, -⟩
      rcases r with x | results
      · exact ⟨hfree'', fun results hresults => by cases hresults⟩
      · refine ⟨hfree'', fun all hall => ?_⟩
        cases hall
        exact .cons ((hresult result rfl).append g') (hresults results rfl)

/-! ### Publication -/

/-- A refresh of the publication came to `OK` in time. -/
def Granted (registry : ReadRegistry) (h : History RegistryHost) : Prop :=
  ∃ id now completed, ⟨.inr .monotonic, .ok now⟩ ∈ h ∧ ⟨.inl (.submit .refresh), .ok id⟩ ∈ h ∧
    ⟨.inl (.await id .refresh), .ok (.ok, completed)⟩ ∈ h ∧ completed ≤ now + min 8 registry.ceiling

/-- What a refresh became under the lock. -/
def Refreshing (registry : ReadRegistry) (h : History RegistryHost) (r : Except WorkerFault (Option (ℕ × ℚ)))
    (h' : History RegistryHost) : Prop :=
  match r with
  | .ok none => Free h'
  | .ok (some (id, deadline)) => Free h' ∧ ∃ g now, h' = h ++ g ∧ ⟨.inr .monotonic, .ok now⟩ ∈ g ∧
      ⟨.inl (.submit .refresh), .ok id⟩ ∈ g ∧ deadline = now + min 8 registry.ceiling
  | .error _ => Settled h'

theorem submitRefresh_follows (hfree : Free h) : Follows (Allowed registry batch) registry.submitRefresh h
    (Refreshing registry h) := by
  refine follows_perform_bind.mpr fun r => ⟨⟨trivial, trivial⟩, fun x hx => ?_, fun closed hclosed => ?_⟩
  · subst hx
    exact settled_beside (settled_of_free hfree)
  subst hclosed
  have hfree₁ := free_beside (e := .closed) (r := .ok closed) hfree
  cases closed with
  | true => exact hfree₁
  | false =>
    refine follows_perform_bind.mpr fun r => ⟨⟨hfree₁, trivial⟩, fun x hx => ?_, fun taken htaken => ?_⟩
    · subst hx
      exact settled_of_free (hfree₁.other ⟨rfl, rfl⟩)
    subst htaken
    cases taken with
    | false => exact hfree₁.other ⟨rfl, rfl⟩
    | true =>
      have hheld : Held (h ++ [⟨.inr .closed, .ok false⟩] ++ [⟨.inl .acquire, .ok true⟩]) := hfree₁.gain ⟨rfl, rfl⟩
      -- whatever keeps the job from being submitted, the slot is given back
      have hback : ∀ (x : WorkerFault) (h' : History RegistryHost), Held h' →
          Follows (Allowed registry batch)
            ((pool .release).bind fun _ => (throw x : Program RegistryHost (Option (ℕ × ℚ)))) h'
            (Refreshing registry h) := by
        intro x h' hheld'
        refine follows_perform_bind.mpr fun u => ⟨⟨hheld', trivial⟩, fun y hy => ?_, fun _ hu => ?_⟩
        · subst hy
          exact fun hok => absurd (by simp) (hok y)
        · subst hu
          exact fun _ => hheld'.give ⟨rfl, rfl⟩
      refine follows_bind.mpr (follows_attempt.mpr (follows_perform_bind.mpr fun r =>
        ⟨⟨trivial, trivial⟩, fun x hx => ?_, fun now hnow => ?_⟩))
      · subst hx
        exact hback x _ (hheld.other ⟨rfl, rfl⟩)
      · subst hnow
        have hheld' : Held (h ++ [⟨.inr .closed, .ok false⟩] ++ [⟨.inl .acquire, .ok true⟩] ++
            [⟨.inr .monotonic, .ok now⟩]) := hheld.other ⟨rfl, rfl⟩
        refine follows_perform_bind.mpr fun r => ⟨⟨hheld', trivial⟩, fun x hx => ?_, fun id hid => ?_⟩
        · subst hx
          exact hback x _ (hheld'.other ⟨rfl, rfl⟩)
        · subst hid
          exact ⟨hheld'.give ⟨rfl, rfl⟩, [⟨.inr .closed, .ok false⟩, ⟨.inl .acquire, .ok true⟩,
            ⟨.inr .monotonic, .ok now⟩, ⟨.inl (.submit .refresh), .ok id⟩], now, by simp, by simp, by simp, rfl⟩

end ReadRegistry

namespace ReadRegistry

variable {registry : ReadRegistry} {batch : List ReadRequest} {h : History RegistryHost}

/-- **What a publication is granted by.** -/
theorem publicationStatus_follows (hfree : Free h) :
    Follows (Allowed registry batch) registry.publicationStatus h fun r h' => Settled h' ∧
      (r = .ok .ok → ∃ g, h' = h ++ g ∧ Granted registry g) := by
  have hlocked : Follows (Allowed registry batch) (locked registry.submitRefresh) h fun r h' =>
      match r with
      | .ok none => Free h'
      | .ok (some (id, deadline)) => Free h' ∧ ∃ g now, h' = h ++ g ∧ ⟨.inr .monotonic, .ok now⟩ ∈ g ∧
          ⟨.inl (.submit .refresh), .ok id⟩ ∈ g ∧ deadline = now + min 8 registry.ceiling
      | .error _ => Settled h' := by
    refine locked_follows (fun x => settled_of_free (free_beside hfree)) (submitRefresh_follows (free_beside hfree))
      (fun r h' x hpost => ?_) fun r h' hpost => ?_
    · rcases r with y | _ | ⟨id, deadline⟩
      · exact settled_beside hpost
      · exact settled_of_free (free_beside hpost)
      · exact settled_of_free (free_beside hpost.1)
    · rcases r with y | _ | ⟨id, deadline⟩
      · exact settled_beside hpost
      · exact free_beside hpost
      · obtain ⟨hfree', g, now, rfl, hnow, hsubmit, hdeadline⟩ := hpost
        refine ⟨free_beside hfree', [⟨.inr .lock, .ok ()⟩] ++ g ++ [⟨.inr .unlock, .ok ()⟩], now, by simp,
          ?_, ?_, hdeadline⟩
        · exact List.mem_append_left _ (List.mem_append_right _ hnow)
        · exact List.mem_append_left _ (List.mem_append_right _ hsubmit)
  refine follows_bind.mpr (hlocked.mono ?_)
  intro r h' hpost
  rcases r with x | _ | ⟨id, deadline⟩
  · exact ⟨hpost, fun hr => by cases hr⟩
  · exact ⟨settled_of_free hpost, fun hr => by cases hr⟩
  obtain ⟨hfree', g, now, rfl, hnow, hsubmit, rfl⟩ := hpost
  refine follows_bind.mpr (follows_attempt.mpr (follows_perform_bind.mpr fun r =>
    ⟨⟨trivial, trivial⟩, fun x hx => ?_, fun later hlater => follows_perform.mpr fun out => ⟨⟨trivial, trivial⟩, ?_⟩⟩))
  · subst hx
    have hsettled := settled_of_free (free_beside (e := .monotonic) (r := .error x) hfree')
    cases x <;> exact ⟨hsettled, fun hr => by cases hr⟩
  · subst hlater
    have hsettled : Settled (h ++ g ++ [⟨.inr .monotonic, .ok later⟩] ++ [⟨.inl (.await id .refresh), out⟩]) :=
      settled_of_free (free_await (free_beside hfree'))
    rcases out with x | ⟨status, completed⟩
    · cases x <;> exact ⟨hsettled, fun hr => by cases hr⟩
    · by_cases hintime : completed ≤ now + min 8 registry.ceiling
      · simp only [hintime, if_true]
        refine ⟨hsettled, fun hr => ?_⟩
        cases hr
        exact ⟨g ++ [⟨.inr .monotonic, .ok later⟩, ⟨.inl (.await id .refresh), .ok (.ok, completed)⟩], by simp,
          id, now, completed, List.mem_append_left _ hnow, List.mem_append_left _ hsubmit, by simp, hintime⟩
      · simp only [hintime, if_false]
        exact ⟨hsettled, fun hr => by cases hr⟩

/-- What a result of a batch is: an outcome that may be published, or nothing in its place. -/
def Final (registry : ReadRegistry) (h : History RegistryHost) (request : ReadRequest) (result : ReadResult) : Prop :=
  ∃ h₁ h₂ item, h = h₁ ++ h₂ ∧ Outcome registry h₁ request item ∧
    ((result = item ∧ (item.status = .ok → Granted registry h₂)) ∨
      ∃ status, status ≠ .ok ∧ result = bare item.request status)

theorem publish_follows {results : List ReadResult} (hresults : List.Forall₂ (Outcome registry h) batch results)
    (hfree : Free h) : Follows (Allowed registry batch) (registry.publish results) h fun r h' => Settled h' ∧
      ∀ published, r = .ok published → List.Forall₂ (Final registry h') batch published := by
  by_cases hany : (results.any fun item => item.status == .ok) = true
  · unfold publish
    rw [if_pos hany]
    refine follows_bind.mpr ((publicationStatus_follows hfree).and_runs.mono ?_)
    rintro r _ ⟨⟨hsettled, hgranted⟩, g, rfl, -⟩
    rcases r with x | status
    · exact ⟨hsettled, fun all hall => by cases hall⟩
    · refine ⟨hsettled, fun all hall => ?_⟩
      cases hall
      refine List.forall₂_map_right_iff.mpr (hresults.imp fun request item hitem => ?_)
      refine ⟨h, g, item, rfl, hitem, ?_⟩
      unfold published
      split_ifs with hdropped
      · exact .inr ⟨status, hdropped.2, rfl⟩
      · refine .inl ⟨rfl, fun hok => ?_⟩
        obtain rfl : status = .ok := by
          by_contra hne
          exact hdropped ⟨hok, hne⟩
        obtain ⟨g', hg', hgrant⟩ := hgranted rfl
        exact List.append_cancel_left hg' ▸ hgrant
  · unfold publish
    rw [if_neg hany]
    refine ⟨settled_of_free hfree, fun all hall => ?_⟩
    cases hall
    have hnone : ∀ item ∈ results, item.status ≠ .ok := by
      intro item hitem hok
      exact hany (List.any_eq_true.mpr ⟨item, hitem, by simp [hok]⟩)
    have hboth := (List.forall₂_and_left results batch).mpr ⟨hnone, hresults.flip⟩
    refine hboth.flip.imp fun request item hitem => ?_
    exact ⟨h, [], item, (List.append_nil h).symm, hitem.2, .inl ⟨rfl, fun hok => absurd hok hitem.1⟩⟩

/-- **What `dispatch` asks for and returns.** -/
theorem dispatch_follows : Follows (Allowed registry batch) (registry.dispatch batch) [] fun r h => Settled h ∧
    ∀ results, r = .ok results → List.Forall₂ (Final registry h) batch results := by
  refine follows_raiseIf_bind.mpr ⟨fun _ => ⟨fun _ => rfl, fun results hr => by cases hr⟩, fun _ => ?_⟩
  have hlocked : Follows (Allowed registry batch) (locked (registry.charge batch)) [] (Charged registry batch) := by
    refine locked_follows (fun x => settled_beside fun _ => rfl) (charge_follows (free_beside rfl))
      (fun r h' x hpost => settled_beside hpost.settled) fun r h' hpost => ?_
    rcases r with y | _ | pending
    · exact settled_beside hpost
    · exact free_beside hpost
    · exact ⟨free_beside hpost.1, hpost.2.imp fun _ _ hhanded => hhanded.append _⟩
  refine follows_bind.mpr (hlocked.mono ?_)
  intro r h' hpost
  rcases r with x | _ | pending
  · exact ⟨hpost, fun results hr => by cases hr⟩
  · refine ⟨settled_of_free hpost, fun results hr => ?_⟩
    cases hr
    refine List.forall₂_map_right_iff.mpr (List.forall₂_same.mpr fun request _ => ?_)
    have hbare : Outcome registry h' request (bare request .budgetExhausted) := outcome_bare (by decide)
    exact ⟨h', [], _, (List.append_nil h').symm, hbare, .inl ⟨rfl, fun hok => by cases hok⟩⟩
  · refine follows_bind.mpr ((resultAll_follows hpost.2 hpost.1).mono ?_)
    rintro r h'' ⟨hfree, hresults⟩
    rcases r with x | results
    · exact ⟨settled_of_free hfree, fun results hr => by cases hr⟩
    · exact publish_follows (hresults results rfl) hfree

/-- **What `close` asks for.** -/
theorem close_follows : Follows (Allowed registry batch) close [] fun _ h => Settled h := by
  have hlocked : Follows (Allowed registry batch) (locked do
      ask .setClosed
      ask .shutdown) [] fun _ h => Free h := by
    have hbody : Follows (Allowed registry batch) ((ask .setClosed).bind fun _ => ask .shutdown)
        [⟨.inr .lock, .ok ()⟩] fun _ h => Free h := by
      refine follows_perform_bind.mpr fun r => ⟨⟨trivial, trivial⟩, fun x hx => ?_, fun _ hr => ?_⟩
      · exact rfl
      · exact follows_perform.mpr fun r => ⟨⟨trivial, trivial⟩, rfl⟩
    exact locked_follows (fun x => rfl) hbody (fun r h' x hpost => free_beside hpost) fun r h' hpost =>
      free_beside hpost
  refine follows_bind.mpr (hlocked.mono ?_)
  intro r h hfree
  rcases r with x | _
  · exact settled_of_free hfree
  · exact settled_of_free hfree

/-- **What every call asks for**, with the batch it is about. -/
theorem Use.follows {p : Program RegistryHost (List ReadResult)} (hp : Use registry p) :
    ∃ batch, (batch ≠ [] → p = registry.dispatch batch) ∧
      Follows (Allowed registry batch) p [] fun _ h => Settled h := by
  cases hp with
  | dispatch batch => exact ⟨batch, fun _ => rfl, dispatch_follows.mono fun r h hpost => hpost.1⟩
  | close => exact ⟨[], fun hne => absurd rfl hne, close_follows⟩
  | work => exact ⟨[], fun hne => absurd rfl hne, work_follows⟩

theorem Use.allowed {p q : Program RegistryHost (List ReadResult)} {ev : Event RegistryHost} (hp : Use registry p)
    (hpath : Path p (h ++ [ev]) q) :
    ∃ batch, (batch ≠ [] → p = registry.dispatch batch) ∧ Allowed registry batch h ev := by
  obtain ⟨batch, hbatch, hfollows⟩ := hp.follows
  exact ⟨batch, hbatch, hfollows.event hpath⟩

theorem disciplined : Disciplined (Use registry) := by
  intro p h ev q hp hpath
  obtain ⟨batch, -, hallowed⟩ := hp.allowed hpath
  exact hallowed.1

end ReadRegistry

/-! ### Every interleaving -/

/-- Some calls and workers of a registry, its pool, and what has happened. -/
abbrev RegistryConfig := Config RegistryHost (Pool Job.Result WorkerFault × Guarded) (List ReadResult)

/-- Every interleaving of calls on a new registry, and of workers. -/
abbrev RegistryReachable (registry : ReadRegistry) (c : RegistryConfig) : Prop :=
  Reachable environment registry.Use (Pool.new Job.Result WorkerFault 2, ⟨false, false⟩) c

/-- Call `i` has submitted a read, and has got what a worker made of it by the deadline. -/
def Read (registry : ReadRegistry) (c : RegistryConfig) (request : ReadRequest) (result : ReadResult)
    (h : History RegistryHost) : Prop :=
  ∃ id deadline completedAt j tr₁ tr₂,
    registry.Submitted request id deadline h ∧
    c.trace = tr₁ ++ (j, ⟨.inl (.finish id (.read request) (.ok (result, completedAt))), .ok ()⟩) :: tr₂ ∧
    ReadDone registry id request result completedAt (Trace.own tr₁ j) ∧
    completedAt ≤ deadline

/-- Call `i` has submitted a refresh, and a worker got a grant for it by its deadline. -/
def Published (registry : ReadRegistry) (c : RegistryConfig) (h : History RegistryHost) : Prop :=
  ∃ id now completed j tr₁ tr₂,
    ⟨.inr .monotonic, .ok now⟩ ∈ h ∧ ⟨.inl (.submit .refresh), .ok id⟩ ∈ h ∧
    c.trace = tr₁ ++ (j, ⟨.inl (.finish id .refresh (.ok (.ok, completed))), .ok ()⟩) :: tr₂ ∧
    RefreshDone id completed (Trace.own tr₁ j) ∧
    completed ≤ now + min 8 registry.ceiling

/-- What a result that is `OK` says: a read with verified evidence of its own between two grants and by its
deadline, and after it a refresh that was granted in time. -/
def Succeeded (registry : ReadRegistry) (c : RegistryConfig) (i : ℕ) (request : ReadRequest)
    (result : ReadResult) : Prop :=
  ∃ h₁ h₂, c.trace.own i = h₁ ++ h₂ ∧ Read registry c request result h₁ ∧ Published registry c h₂ ∧
    (result.evidence.map EvidenceItem.evidenceId).Nodup ∧
    ∀ item ∈ result.evidence,
      item.incidentId = registry.incidentId ∧ item.resource.val = request.service.name

/-- What holds of a registry, in a configuration that was reached. -/
structure Batches (registry : ReadRegistry) (c : RegistryConfig) : Prop where
  /-- A handler runs for a batch that was charged as a whole. -/
  reserved : ∀ j request, Asking c j (.inr (.handler request)) → ∃ i batch cl, c.calls[i]? = some cl ∧
    cl.program = registry.dispatch batch ∧ request ∈ batch ∧ Reserved batch (c.trace.own i)
  /-- A batch that is dispatched has one result for each request, in this order, -/
  complete : ∀ (i : ℕ) (batch : List ReadRequest) (results : List ReadResult) (alive : Bool),
    c.calls[i]? = some ⟨registry.dispatch batch, done results, alive⟩ →
    results.map ReadResult.request = batch
  /-- an `OK` is one, -/
  succeeded : ∀ (i : ℕ) (batch : List ReadRequest) (results : List ReadResult) (alive : Bool),
    c.calls[i]? = some ⟨registry.dispatch batch, done results, alive⟩ → ∀ result ∈ results, result.status = .ok → Succeeded registry c i result.request result
  /-- and nothing else has evidence. -/
  bare : ∀ (i : ℕ) (batch : List ReadRequest) (results : List ReadResult) (alive : Bool),
    c.calls[i]? = some ⟨registry.dispatch batch, done results, alive⟩ → ∀ result ∈ results, result.status ≠ .ok → result.evidence = []
  /-- Two slots are free, or wait with a job, or are held by one call each, -/
  slots : ∃ holders : Finset ℕ, (∀ i, i ∈ holders ↔ Holds (c.trace.own i)) ∧
    c.shared.1.free + c.shared.1.queue.length + holders.card = 2
  /-- who has given it back at its end, -/
  settled : ∀ i cl, c.calls[i]? = some cl → cl.Ended → ¬Holds (c.trace.own i)
  /-- and never without having it; -/
  released : ∀ i x, (i, ⟨.inl .release, .error x⟩) ∉ c.trace
  /-- a job is taken once. -/
  once : (tookIds c.trace).Nodup

namespace ReadRegistry

variable {registry : ReadRegistry} {c : RegistryConfig}

/-- What a call got for its read, a worker has made of it. -/
theorem read_done (h : RegistryReachable registry c) {i id : ℕ} {request : ReadRequest} {result : ReadResult}
    {completedAt : ℚ} (hawait : ⟨.inl (.await id (.read request)), .ok (result, completedAt)⟩ ∈ c.trace.own i) :
    ∃ j tr₁ tr₂,
      c.trace = tr₁ ++ (j, ⟨.inl (.finish id (.read request) (.ok (result, completedAt))), .ok ()⟩) :: tr₂ ∧
      ReadDone registry id request result completedAt (Trace.own tr₁ j) := by
  have hjobs : Jobs c.shared c.trace := Reachable.jobs h
  obtain ⟨j, hfinish⟩ := hjobs.awaited i id _ _ (mem_own.mp hawait)
  obtain ⟨tr₁, tr₂, htrace⟩ := List.append_of_mem hfinish
  obtain ⟨b, s', hb, rfl, ⟨p, q, hp, hpath⟩, -⟩ := h.before htrace
  obtain ⟨batch, -, hallowed⟩ := hp.allowed hpath
  exact ⟨j, b.trace, tr₂, htrace, hallowed.2⟩

/-- And so for its refresh. -/
theorem refresh_done (h : RegistryReachable registry c) {i id : ℕ} {completed : ℚ}
    (hawait : ⟨.inl (.await id .refresh), .ok (.ok, completed)⟩ ∈ c.trace.own i) :
    ∃ j tr₁ tr₂, c.trace = tr₁ ++ (j, ⟨.inl (.finish id .refresh (.ok (.ok, completed))), .ok ()⟩) :: tr₂ ∧
      RefreshDone id completed (Trace.own tr₁ j) := by
  have hjobs : Jobs c.shared c.trace := Reachable.jobs h
  obtain ⟨j, hfinish⟩ := hjobs.awaited i id _ _ (mem_own.mp hawait)
  obtain ⟨tr₁, tr₂, htrace⟩ := List.append_of_mem hfinish
  obtain ⟨b, s', hb, rfl, ⟨p, q, hp, hpath⟩, -⟩ := h.before htrace
  obtain ⟨batch, -, hallowed⟩ := hp.allowed hpath
  exact ⟨j, b.trace, tr₂, htrace, hallowed.2 rfl⟩

/-- **What a result of a batch is**, in a configuration that was reached. -/
theorem final_result (h : RegistryReachable registry c) {i : ℕ} {request : ReadRequest} {result : ReadResult}
    (hfinal : Final registry (c.trace.own i) request result) :
    result.request = request ∧ (result.status ≠ .ok → result.evidence = []) ∧
      (result.status = .ok → Succeeded registry c i request result) := by
  obtain ⟨h₁, h₂, item, hown, houtcome, hpublished⟩ := hfinal
  -- the item was read, or says that it was not
  have hitem : item.request = request ∧ (item.status ≠ .ok → item.evidence = []) ∧
      (item.status = .ok → Read registry c request item h₁ ∧
        (item.evidence.map EvidenceItem.evidenceId).Nodup ∧ ∀ x ∈ item.evidence,
          x.incidentId = registry.incidentId ∧ x.resource.val = request.service.name) := by
    rcases houtcome with ⟨status, hstatus, rfl⟩ | ⟨id, deadline, completedAt, hsubmitted, hawait, hintime⟩
    · exact ⟨rfl, fun _ => rfl, fun hok => absurd hok hstatus⟩
    · have hawait' : ⟨.inl (.await id (.read request)), .ok (item, completedAt)⟩ ∈ c.trace.own i :=
        hown ▸ List.mem_append_left _ hawait
      obtain ⟨j, tr₁, tr₂, htrace, hdone⟩ := read_done h hawait'
      have hsound := hdone
      obtain ⟨g, -, hrequest, hbare, hendorsed⟩ := hsound
      refine ⟨hrequest, hbare, fun hok => ⟨?_, (hendorsed hok).distinct, (hendorsed hok).own⟩⟩
      exact ⟨_, deadline, completedAt, j, tr₁, tr₂, hsubmitted, htrace, hdone, hintime⟩
  obtain ⟨hrequest, hbare, hread⟩ := hitem
  rcases hpublished with ⟨rfl, hgranted⟩ | ⟨status, hstatus, rfl⟩
  · refine ⟨hrequest, hbare, fun hok => ?_⟩
    obtain ⟨id, now, completed, hnow, hsubmit, hawait, hintime⟩ := hgranted hok
    obtain ⟨j, tr₁, tr₂, htrace, hdone⟩ := refresh_done h (hown ▸ List.mem_append_right _ hawait)
    obtain ⟨hwas, hdistinct, hitems⟩ := hread hok
    exact ⟨h₁, h₂, hown, hwas, ⟨id, now, completed, j, tr₁, tr₂, hnow, hsubmit, htrace, hdone, hintime⟩, hdistinct,
      hitems⟩
  · exact ⟨hrequest, fun _ => rfl, fun hok => absurd hok hstatus⟩

end ReadRegistry

end Model

/-! ### A read that succeeds -/

/-- Only ASCII characters in identifiers. -/
@[reducible] def registryPlatform : Platform where
  sha256 _ := "0"
  patternWord _ := false
  reWord _ := false
  nesting := 64
  floatRepr text := text

attribute [local instance] registryPlatform

/-- A registry of one incident. -/
def sampleRegistry : ReadRegistry := ⟨⟨"incident", by decide⟩, 20, by norm_num⟩

/-- The status of a workload. -/
def statusRead : ReadRequest := ⟨.workloadStatus, .paymentsApi, none, by simp, rfl⟩

/-- What its handler finds. -/
def statusItem : EvidenceItem where
  evidenceId := ⟨"item", by decide⟩
  incidentId := ⟨"incident", by decide⟩
  source := .kubernetes
  observedAt := 0
  collectedAt := 0
  query := ⟨"get deployments", by decide⟩
  resource := ⟨"payments-api", by decide⟩
  artifactUri := ⟨"sha256://status", by decide⟩
  artifactSha256 := ⟨"1111111111111111111111111111111111111111111111111111111111111111", by decide⟩
  summary := ⟨"deployment is ready", by decide⟩

/-- Everything is answered and granted, at time zero. -/
def grantingHandler : Handler Beside Guarded
  | .lock, s => if s.locked then (.error .timeout, s) else (.ok (), { s with locked := true })
  | .unlock, s => (.ok (), { s with locked := false })
  | .closed, s => (.ok s.closed, s)
  | .setClosed, s => (.ok (), { s with closed := true })
  | .shutdown, s => (.ok (), s)
  | .monotonic, s => (.ok 0, s)
  | .reserve _ _, s => (.ok true, s)
  | .authorize, s => (.ok true, s)
  | .handler _, s => (.ok [statusItem], s)
  | .verify _, s => (.ok (), s)
  | .span, s => (.ok (), s)

theorem grantingHandler_answers (e : RegistryEffect) (s : Guarded) :
    beside.answer s e (grantingHandler e s).1 (grantingHandler e s).2 := by
  cases e with
  | lock =>
    by_cases hlocked : s.locked = true
    · simp [beside, grantingHandler, hlocked]
    · simp [beside, grantingHandler, hlocked]
  | unlock => exact ⟨rfl, rfl⟩
  | closed => exact ⟨rfl, rfl⟩
  | setClosed => exact ⟨rfl, rfl⟩
  | _ => rfl

/-- A batch of one read, and a worker for the read and for the refresh. -/
def dispatched : RegistryConfig :=
  let opened : RegistryConfig := ⟨(Pool.new Job.Result WorkerFault 2, ⟨false, false⟩), [], []⟩
  let called := (opened.opened (sampleRegistry.dispatch [statusRead])).opened sampleRegistry.work
  (called.opened sampleRegistry.work).turns (pooledHandler 2 .timeout grantingHandler)
    (List.replicate 7 0 ++ List.replicate 10 1 ++ List.replicate 8 0 ++ List.replicate 6 2 ++ List.replicate 3 0)

theorem dispatched_reached : RegistryReachable sampleRegistry dispatched :=
  Reachable.turns (Reachable.opened (Reachable.opened (Reachable.opened .refl (.dispatch _)) .work) .work)
    (pooledHandler_answers grantingHandler_answers) _

/-- How many items the results of call `i` have, and their status. -/
def resultsOf (c : RegistryConfig) (i : ℕ) : Option (List (ReadStatus × ℕ)) :=
  match c.calls[i]? with
  | some ⟨_, .done results, _⟩ => some (results.map fun result => (result.status, result.evidence.length))
  | _ => none

end PayOps.Tools
