import PayOps.Remediation.Calls
import PayOps.Process.Register
import PayOps.Process.Runner

/-!
# The action table refines its history

Any number of workers run `propose`, `approve` and `execute` against one pair of tables. The
table of actions is then a family of registers (`Register`), whose accepted writes are the
commits of the trace, and the audit table is the list of their events.

## What is proved

* `commits_written` — **refinement**: the tables of a reachable state are what the commits of its
  trace made them.
* `reachable_audited` — the audit of an action has the revisions `0, 1, …` of its record, starts
  at `PROPOSED`, follows `TRANSITIONS` and ends at the record's state.
* `reachable_later` — from one state to a later one a record changes by transitions only.
* `history_refinement` — **main result**: these together, and that a call that raises changes
  nothing.
-/

namespace PayOps.Remediation

open Policy Process Program Relation

variable [Platform]

/-- A state of the workers and their tables. -/
abbrev Workers := Config Worker Tables ActionRecord

/-- The states the workers may come to from empty tables. -/
def Reached (c : Workers) : Prop := Reachable Environment Start Tables.empty c

/-! ### Commits -/

/-- A committed transaction: the write of the action row and the audit event. -/
structure Commit where
  /-- The write. -/
  write : Write String ActionRecord
  /-- The event. -/
  event : AuditEvent

/-- The commit an answered request made, if it made one. -/
def commitOf : Event Worker → Option Commit
  | ⟨.insert record actor reason, .ok _⟩ =>
    match Tables.auditEvent record actor reason with
    | .ok event => some ⟨.insert record.actionId.val record, event⟩
    | .error _ => none
  | ⟨.update before written actor reason, .ok _⟩ =>
    match Tables.auditEvent written actor reason with
    | .ok event => some ⟨.swap before.actionId.val before written, event⟩
    | .error _ => none
  | _ => none

/-- The commits of a trace, oldest first. -/
def commits (tr : Trace Worker) : List Commit := tr.filterMap fun x => commitOf x.2

/-- The event an audit row keeps of a record. -/
theorem auditEvent_eq_ok {record : ActionRecord} {actor reason : String} {event : AuditEvent}
    (h : Tables.auditEvent record actor reason = .ok event) :
    event.actionId = record.actionId ∧ event.revision = record.revision ∧
      event.state = record.state ∧ event.actor.val = actor ∧ event.reason.val = reason := by
  unfold Tables.auditEvent at h
  split at h
  · rename_i hactor hreason
    cases h
    exact ⟨rfl, rfl, rfl, Identifier.validate_eq_some.mp hactor, Identifier.validate_eq_some.mp hreason⟩
  · cases h

/-- What a commit is like: it inserts a new proposal or replaces a record by a successor, and its
event is that of the record it writes. -/
structure Commit.Proper (x : Commit) : Prop where
  /-- An inserted record is new. -/
  insert : ∀ id record, x.write = .insert id record → record.state = .proposed ∧ record.revision = 0
  /-- A replaced record is replaced by a successor. -/
  swap : ∀ id old new, x.write = .swap id old new → Successor old new
  /-- The row is that of the record. -/
  key : x.write.key = x.write.value.actionId.val
  /-- The event names the record, -/
  actionId : x.event.actionId = x.write.value.actionId
  /-- its revision, -/
  revision : x.event.revision = x.write.value.revision
  /-- and its state. -/
  state : x.event.state = x.write.value.state

theorem commitOf_insert {record : ActionRecord} {actor reason : String} {event : AuditEvent}
    (h : Tables.auditEvent record actor reason = .ok event) :
    commitOf ⟨.insert record actor reason, .ok ()⟩ = some ⟨.insert record.actionId.val record, event⟩ := by
  simp [commitOf, h]

theorem commitOf_update {before written : ActionRecord} {actor reason : String} {event : AuditEvent}
    (h : Tables.auditEvent written actor reason = .ok event) :
    commitOf ⟨.update before written actor reason, .ok ()⟩ =
      some ⟨.swap before.actionId.val before written, event⟩ := by
  simp [commitOf, h]

/-- A commit was made by an insertion or by an update. -/
theorem commitOf_eq_some {ev : Event Worker} {x : Commit} (h : commitOf ev = some x) :
    (∃ record actor reason, ev = ⟨.insert record actor reason, .ok ()⟩ ∧
      x.write = .insert record.actionId.val record ∧
        Tables.auditEvent record actor reason = .ok x.event) ∨
    ∃ before written actor reason, ev = ⟨.update before written actor reason, .ok ()⟩ ∧
      x.write = .swap before.actionId.val before written ∧
        Tables.auditEvent written actor reason = .ok x.event := by
  unfold commitOf at h
  split at h
  · split at h
    · rename_i hev
      cases h
      exact .inl ⟨_, _, _, rfl, rfl, hev⟩
    · cases h
  · split at h
    · rename_i hev
      cases h
      exact .inr ⟨_, _, _, _, rfl, rfl, hev⟩
    · cases h
  · cases h

theorem commitOf_proper {ev : Event Worker} {x : Commit} (h : commitOf ev = some x)
    (hp : Proper ev.effect) : x.Proper := by
  rcases commitOf_eq_some h with ⟨record, actor, reason, rfl, hw, he⟩ |
    ⟨before, written, actor, reason, rfl, hw, he⟩
  · obtain ⟨hid, hrev, hstate, -, -⟩ := auditEvent_eq_ok he
    have hnew : record.state = .proposed ∧ record.revision = 0 := hp.1
    constructor <;> simp_all [Write.key, Write.value]
  · obtain ⟨hid, hrev, hstate, -, -⟩ := auditEvent_eq_ok he
    have hs : Successor before written := hp
    have hkey := hs.actionId
    constructor <;> simp_all [Write.key, Write.value]

/-- The commits of a reachable trace are proper. -/
theorem commits_proper {c : Workers} (h : Reached c) : ∀ x ∈ commits c.trace, x.Proper := by
  intro x hx
  obtain ⟨⟨i, ev⟩, hev, hcommit⟩ := List.mem_filterMap.mp hx
  exact commitOf_proper hcommit (Reachable.within h (fun _ hp => start_proper hp) hev)

theorem commits_append (tr : Trace Worker) (i : ℕ) (ev : Event Worker) :
    commits (tr ++ [(i, ev)]) = commits tr ++ (commitOf ev).toList := by
  rw [commits, List.filterMap_append]
  rfl

/-- The tables are what the commits made them. -/
def Refines (t : Tables) (xs : List Commit) : Prop :=
  Written (xs.map Commit.write) t.actions ∧ t.audit = xs.map Commit.event

/-- A committed insertion is an accepted write. -/
theorem insert_eq_ok {t t' : Tables} {record : ActionRecord} {actor reason : String}
    (h : t.insert record actor reason = .ok t') :
    ∃ event, Tables.auditEvent record actor reason = .ok event ∧
      t.actions record.actionId.val = none ∧ t' = t.publish record.actionId.val record event := by
  unfold Tables.insert at h
  split at h
  · cases h
  · rename_i event hevent
    split_ifs at h with hfree
    cases h
    simp only [Bool.or_eq_true, not_or, Bool.not_eq_true, Option.isSome_eq_false_iff,
      Option.isNone_iff_eq_none] at hfree
    exact ⟨event, hevent, hfree.1, rfl⟩

/-- A committed update is an accepted write. -/
theorem update_eq_ok {t t' : Tables} {before written : ActionRecord} {actor reason : String}
    (h : t.update before written actor reason = .ok t') :
    ∃ event, Tables.auditEvent written actor reason = .ok event ∧
      t.actions before.actionId.val = some before ∧
        t' = t.publish before.actionId.val written event := by
  unfold Tables.update at h
  split_ifs at h with hrow
  split at h
  · cases h
  · rename_i event hevent
    split_ifs at h
    cases h
    exact ⟨event, hevent, not_not.mp hrow, rfl⟩

/-- One answered request preserves the refinement. -/
theorem Refines.step {t t' : Tables} {xs : List Commit} {e : Effect} {r : Except Fault e.Reply}
    (h : Refines t xs) (ha : answer t e r t') : Refines t' (xs ++ (commitOf ⟨e, r⟩).toList) := by
  have quiet : commitOf ⟨e, r⟩ = none → t' = t → Refines t' (xs ++ (commitOf ⟨e, r⟩).toList) := by
    rintro hn rfl
    rw [hn, Option.toList_none, List.append_nil]
    exact h
  cases e with
  | insert record actor reason =>
    cases ha with
    | rollback => exact quiet rfl rfl
    | commit hok =>
      obtain ⟨event, hev, hfree, rfl⟩ := insert_eq_ok hok
      rw [commitOf_insert hev]
      refine ⟨?_, by simp [Tables.publish, h.2]⟩
      rw [Option.toList_some, List.map_append]
      exact h.1.snoc (w := .insert record.actionId.val record) hfree
  | update before written actor reason =>
    cases ha with
    | rollback => exact quiet rfl rfl
    | commit hok =>
      obtain ⟨event, hev, hrow, rfl⟩ := update_eq_ok hok
      rw [commitOf_update hev]
      refine ⟨?_, by simp [Tables.publish, h.2]⟩
      rw [Option.toList_some, List.map_append]
      exact h.1.snoc (w := .swap before.actionId.val before written) hrow
  | select actionId =>
    cases r with
    | error fault => exact quiet rfl ha
    | ok row => exact quiet rfl ha.2
  | _ => exact quiet rfl ha

/-- **Refinement**: the tables of a reachable state are what the commits of its trace made them. -/
theorem commits_written {c : Workers} (h : Reached c) : Refines c.shared (commits c.trace) := by
  refine Reachable.invariant (fun t tr => Refines t (commits tr)) h ⟨.nil, rfl⟩ ?_
  intro t tr i p e r t' q hinv _ _ ha
  rw [commits_append]
  exact hinv.step ha

/-! ### The audit of one action -/

/-- The commits of one action. -/
def ofAction (actionId : String) (xs : List Commit) : List Commit :=
  xs.filter fun x => x.write.key = actionId

section OfAction

variable {t : Tables} {xs : List Commit} (actionId : String)

theorem versions_ofAction :
    versions actionId (xs.map Commit.write) = (ofAction actionId xs).map fun x => x.write.value := by
  unfold versions ofAction
  rw [List.filterMap_map, ← List.filterMap_eq_map, List.filterMap_filter]
  congr 1
  funext x
  by_cases h : x.write.key = actionId <;> simp [h]

/-- The versions of an action have the revisions `0, 1, 2, …`. -/
theorem revisions_ofAction (h : Refines t xs) (hp : ∀ x ∈ xs, x.Proper) :
    (ofAction actionId xs).map (fun x => x.write.value.revision) =
      List.range (ofAction actionId xs).length := by
  have hr := h.1.rank_versions (fun r => r.revision)
    (fun k v hm => by
      obtain ⟨x, hx, hw⟩ := List.mem_map.mp hm
      exact ((hp x hx).insert k v hw).2)
    (fun k old new hm => by
      obtain ⟨x, hx, hw⟩ := List.mem_map.mp hm
      exact ((hp x hx).swap k old new hw).revision) actionId
  rw [versions_ofAction, List.map_map, List.length_map] at hr
  exact hr

/-- **The audit of an action is the list of its commits' events.** -/
theorem auditOf_eq (h : Refines t xs) (hp : ∀ x ∈ xs, x.Proper) :
    t.auditOf actionId = (ofAction actionId xs).map Commit.event := by
  have hfilter : (t.audit.filter fun row => row.actionId.val == actionId) =
      (ofAction actionId xs).map Commit.event := by
    rw [h.2, List.filter_map, ofAction]
    congr 1
    refine List.filter_congr fun x hx => ?_
    simp only [Function.comp_apply, (hp x hx).actionId, (hp x hx).key]
    rfl
  have hrev : ((ofAction actionId xs).map Commit.event).map AuditEvent.revision =
      List.range (ofAction actionId xs).length := by
    rw [List.map_map, ← revisions_ofAction actionId h hp]
    refine List.map_congr_left fun x hx => ?_
    exact (hp x (List.mem_of_mem_filter hx)).revision
  unfold Tables.auditOf
  rw [hfilter]
  refine List.Pairwise.insertionSort_eq ?_
  rw [← List.pairwise_map (f := AuditEvent.revision) (R := (· ≤ ·)), hrev]
  exact List.pairwise_le_range

end OfAction

/-- What the audit of a record says. -/
structure Audited (t : Tables) (actionId : String) (record : ActionRecord) : Prop where
  /-- Its revisions are those up to the record's, each once. -/
  revisions : (t.auditOf actionId).map AuditEvent.revision = List.range (record.revision + 1)
  /-- It starts at `PROPOSED`. -/
  start : ((t.auditOf actionId).map AuditEvent.state).head? = some .proposed
  /-- It follows `TRANSITIONS`. -/
  path : ((t.auditOf actionId).map AuditEvent.state).IsChain fun a b => b ∈ TRANSITIONS a
  /-- It ends at the record's state. -/
  last : ((t.auditOf actionId).map AuditEvent.state).getLast? = some record.state

/-- The states of the audit are those of the record's versions. -/
theorem states_eq {t : Tables} {xs : List Commit} (h : Refines t xs) (hp : ∀ x ∈ xs, x.Proper)
    (actionId : String) : (t.auditOf actionId).map AuditEvent.state =
      (versions actionId (xs.map Commit.write)).map fun r => r.state := by
  rw [auditOf_eq actionId h hp, versions_ofAction, List.map_map, List.map_map]
  exact List.map_congr_left fun x hx => (hp x (List.mem_of_mem_filter hx)).state

/-- **What commits leave is audited.** -/
theorem Refines.audited {t : Tables} {xs : List Commit} (h : Refines t xs) (hp : ∀ x ∈ xs, x.Proper)
    {actionId : String} {record : ActionRecord} (hrow : t.actions actionId = some record) :
    Audited t actionId record := by
  have hlast := h.1.getLast?_versions actionId
  rw [hrow] at hlast
  have hrev := revisions_ofAction actionId h hp
  refine ⟨?_, ?_, ?_, ?_⟩
  · have hlen : (ofAction actionId xs).length = record.revision + 1 := by
      have hmap := congrArg List.getLast? hrev
      rw [versions_ofAction, List.getLast?_map] at hlast
      obtain ⟨x, hx, rfl⟩ := Option.map_eq_some_iff.mp hlast
      rw [List.getLast?_map, hx, Option.map_some, List.getLast?_range] at hmap
      split_ifs at hmap with hz
      have := Option.some.inj hmap
      omega
    rw [auditOf_eq actionId h hp, List.map_map, ← hlen, ← hrev]
    exact List.map_congr_left fun x hx => (hp x (List.mem_of_mem_filter hx)).revision
  · rw [states_eq h hp, List.head?_map]
    cases hhead : (versions actionId (xs.map Commit.write)).head? with
    | none => rw [List.head?_eq_none_iff.mp hhead] at hlast; cases hlast
    | some first =>
      obtain ⟨x, hx, hw⟩ := List.mem_map.mp (h.1.head hhead)
      rw [Option.map_some, ((hp x hx).insert _ _ hw).1]
  · rw [states_eq h hp, List.isChain_map]
    refine (h.1.isChain (R := Successor) (fun k old new hm => ?_) actionId).imp fun a b hab =>
      hab.transition
    obtain ⟨x, hx, hw⟩ := List.mem_map.mp hm
    exact (hp x hx).swap k old new hw
  · rw [states_eq h hp, List.getLast?_map, hlast, Option.map_some]

/-- **The audit of a reachable record.** -/
theorem reachable_audited {c : Workers} (h : Reached c) {actionId : String} {record : ActionRecord}
    (hrow : c.shared.actions actionId = some record) : Audited c.shared actionId record :=
  (commits_written h).audited (commits_proper h) hrow

/-- An action that was never stored has no audit. -/
theorem reachable_unaudited {c : Workers} (h : Reached c) {actionId : String}
    (hrow : c.shared.actions actionId = none) : c.shared.auditOf actionId = [] := by
  have hlast := (commits_written h).1.getLast?_versions actionId
  rw [hrow, versions_ofAction, List.getLast?_map, Option.map_eq_none_iff,
    List.getLast?_eq_none_iff] at hlast
  rw [auditOf_eq actionId (commits_written h) (commits_proper h), hlast, List.map_nil]

/-! ### What never changes -/

/-- A state that leads nowhere. -/
def ActionState.Terminal (s : ActionState) : Prop := TRANSITIONS s = []

/-- What stays of a record, whatever happens later. -/
structure Persists (record later : ActionRecord) : Prop where
  /-- The proposal never changes, -/
  proposal : later.proposal = record.proposal
  /-- nor its proposer, -/
  proposer : later.proposer = record.proposer
  /-- nor the time of the proposal. -/
  createdAt : later.createdAt = record.createdAt
  /-- An approval once set never changes. -/
  approval : ∀ a, record.approval = some a → later.approval = some a
  /-- A terminal record never changes again. -/
  terminal : record.state.Terminal → later = record

theorem Persists.refl (record : ActionRecord) : Persists record record :=
  ⟨rfl, rfl, rfl, fun _ h => h, fun _ => rfl⟩

theorem Persists.snoc {record later next : ActionRecord} (h : Persists record later)
    (hs : Successor later next) : Persists record next := by
  refine ⟨hs.proposal.trans h.proposal, hs.proposer.trans h.proposer, hs.createdAt.trans h.createdAt,
    fun a ha => hs.approval a (h.approval a ha), fun ht => ?_⟩
  have hnone : next.state ∈ TRANSITIONS record.state := h.terminal ht ▸ hs.transition
  rw [ht] at hnone
  cases hnone

/-- One answer leaves a row or replaces it by a successor. -/
theorem answer_row {t t' : Tables} {e : Effect} {r : Except Fault e.Reply} (hp : Proper e)
    (ha : answer t e r t') {actionId : String} {record : ActionRecord}
    (hrow : t.actions actionId = some record) :
    ∃ next, t'.actions actionId = some next ∧ (next = record ∨ Successor record next) := by
  have same : t' = t → ∃ next, t'.actions actionId = some next ∧
      (next = record ∨ Successor record next) := by
    rintro rfl
    exact ⟨record, hrow, .inl rfl⟩
  cases e with
  | insert new actor reason =>
    cases ha with
    | rollback => exact same rfl
    | commit hok =>
      obtain ⟨event, -, hfree, rfl⟩ := insert_eq_ok hok
      have hne : actionId ≠ new.actionId.val := by
        rintro rfl
        rw [hrow] at hfree
        cases hfree
      exact ⟨record, (Function.update_of_ne hne _ _).trans hrow, .inl rfl⟩
  | update before written actor reason =>
    cases ha with
    | rollback => exact same rfl
    | commit hok =>
      obtain ⟨event, -, hold, rfl⟩ := update_eq_ok hok
      by_cases hid : actionId = before.actionId.val
      · subst hid
        obtain rfl : record = before := Option.some.inj (hrow.symm.trans hold)
        exact ⟨written, Function.update_self .., .inr hp⟩
      · exact ⟨record, (Function.update_of_ne hid _ _).trans hrow, .inl rfl⟩
  | select id =>
    cases r with
    | error fault => exact same ha
    | ok row => exact same ha.2
  | _ => exact same ha

/-- **From one state to a later one** a record persists. -/
theorem reachable_later {c c' : Workers} (h : Reached c)
    (hlater : ReflTransGen (Step Environment Start) c c') {actionId : String} {record : ActionRecord}
    (hrow : c.shared.actions actionId = some record) :
    ∃ later, c'.shared.actions actionId = some later ∧ Persists record later := by
  induction hlater with
  | refl => exact ⟨record, hrow, .refl record⟩
  | @tail b c' hb hs ih =>
    obtain ⟨later, hlrow, hpersists⟩ := ih
    rcases Reachable.shared_step (h.trans hb) (fun _ hp => start_proper hp) hs with heq | ⟨e, r, he, ha⟩
    · exact ⟨later, heq ▸ hlrow, hpersists⟩
    · obtain ⟨next, hnrow, rfl | hsucc⟩ := answer_row he ha hlrow
      · exact ⟨next, hnrow, hpersists⟩
      · exact ⟨next, hnrow, hpersists.snoc hsucc⟩

/-- **Main result**: in every reachable state the audit of each action is its record's, an action
without a record has none, no later state changes what must persist, and a call of `create` or
`transition` that raises takes no step that changes a table. -/
theorem history_refinement {c : Workers} (h : Reached c) :
    (∀ actionId record, c.shared.actions actionId = some record →
      Audited c.shared actionId record) ∧
    (∀ actionId, c.shared.actions actionId = none → c.shared.auditOf actionId = []) ∧
    (∀ c', ReflTransGen (Step Environment Start) c c' → ∀ actionId record,
      c.shared.actions actionId = some record →
        ∃ later, c'.shared.actions actionId = some later ∧ Persists record later) ∧
    (∀ record history fault, Runs (ActionStore.create record) history (.error fault) →
      ∀ ev ∈ history, Quiet ev) ∧
    (∀ before state actor reason approval result history fault,
      Runs (ActionStore.transition before state actor reason approval result) history (.error fault) →
        ∀ ev ∈ history, Quiet ev) :=
  ⟨fun _ _ => reachable_audited h, fun _ => reachable_unaudited h,
    fun _ hlater _ _ => reachable_later h hlater,
    fun _ _ _ hr => ActionStore.create_raises hr,
    fun _ _ _ _ _ _ _ _ hr => ActionStore.transition_raises hr⟩

end PayOps.Remediation

namespace PayOps.Remediation

open Policy Process Program Relation

/-! ### A run -/

/-- A platform that has the right digest of the action below, the only text it is asked for. -/
@[reducible] def samplePlatform : Platform where
  sha256 _ := "cb83863049a897ade11c3f1c5c58b1590c942dde70314a7cf2ae50593d4405d2"
  patternWord _ := false
  reWord _ := false
  nesting := 64
  floatRepr text := text

attribute [local instance] samplePlatform

/-- The mapping of a proposal. -/
def sampleProposal : JsonObject :=
  [("incident_id", .str "inc-1"), ("namespace", .str "payops-sandbox"), ("service", .str "payments-api"),
    ("resource_uid", .str "uid-1"), ("expected_version", .str "v1"), ("evidence_ids", .arr [.str "ev-1"]),
    ("action_type", .str "restart_deployment")]

/-- An item of evidence. -/
def sampleItem : EvidenceItem where
  evidenceId := ⟨"ev-1", by decide⟩
  incidentId := ⟨"inc-1", by decide⟩
  source := .kubernetes
  observedAt := 0
  collectedAt := 0
  query := ⟨"pods", by decide⟩
  resource := ⟨"payments-api", by decide⟩
  artifactUri := ⟨"sha256://cb83863049a897ade11c3f1c5c58b1590c942dde70314a7cf2ae50593d4405d2", by decide⟩
  artifactSha256 := ⟨"cb83863049a897ade11c3f1c5c58b1590c942dde70314a7cf2ae50593d4405d2", by decide⟩
  summary := ⟨"pod restarting", by decide⟩

/-- A report that cites it. -/
def sampleReport : IncidentReport where
  incidentId := ⟨"inc-1", by decide⟩
  evidence := [sampleItem]
  terminalState := .escalated
  mode := .localKind
  durationSeconds := .zero
  traceId := "trace-1"
  citations := by decide
  receiptsBounded := no_receipts

/-- An identity with one role. -/
def samplePrincipal (subject : Identifier) (role : Role) : Principal where
  subject := subject
  roles := [role]
  nameSpaces := [⟨"payops-sandbox", by decide⟩]
  verifiedAt := 0
  expiresAt := seconds 60
  roles_bounded := by simp
  nameSpaces_bounded := by simp

/-- The identities of three people. -/
def sampleIdentity (subject : String) : Option Principal :=
  if subject = "ann" then some (samplePrincipal ⟨"ann", by decide⟩ .responder)
  else if subject = "ben" then some (samplePrincipal ⟨"ben", by decide⟩ .approver)
  else if subject = "eve" then some (samplePrincipal ⟨"eve", by decide⟩ .executor)
  else none

/-- A context in which the proposal may be reviewed. -/
def sampleContext : PolicyContext where
  principal := none
  incident := ⟨⟨"inc-1", by decide⟩, ⟨"pods restarting", by decide⟩, .warning, 0,
    ⟨"payops-sandbox", by decide⟩, ⟨"payments-api", by decide⟩,
    some sampleReport, by decide⟩
  resource :=
    { nameSpace := ⟨"payops-sandbox", by decide⟩, service := ⟨"payments-api", by decide⟩,
      uid := ⟨"uid-1", by decide⟩, version := ⟨"v1", by decide⟩, observedAt := 0 }
  store := ⟨"artifacts"⟩

/-- An environment that answers everything at time zero. -/
def sampleHandler : Handler Worker Tables
  | .principal subject, t => (.ok (sampleIdentity subject), t)
  | .context _ _, t => (.ok sampleContext, t)
  | .execute action _, t => (.ok ⟨.succeeded, action.resourceUid, action.expectedVersion, none⟩, t)
  | .clock, t => (.ok 0, t)
  | .utcNow, t => (.ok 0, t)
  | .verify _ _, t => (.ok (), t)
  | .paymentWindow _ _, t => (.ok .complete, t)
  | .select actionId, t => (.ok (t.actions actionId), t)
  | .insert record actor reason, t =>
    match t.insert record actor reason with
    | .ok t' => (.ok (), t')
    | .error fault => (.error fault, t)
  | .update before after actor reason, t =>
    match t.update before after actor reason with
    | .ok t' => (.ok (), t')
    | .error fault => (.error fault, t)

theorem sampleHandler_answers (e : Effect) (t : Tables) :
    Environment.answer t e (sampleHandler e t).1 (sampleHandler e t).2 := by
  have transacts : ∀ result : Except Fault Tables, Transacts t result
      (match result with | .ok t' => ((.ok (), t') : Except Fault Unit × Tables) | .error fault => (.error fault, t)).1
      (match result with | .ok t' => ((.ok (), t') : Except Fault Unit × Tables) | .error fault => (.error fault, t)).2 := by
    intro result
    cases result with
    | ok t' => exact .commit rfl
    | error fault => exact .rollback
  cases e with
  | insert record actor reason => exact transacts _
  | update before after actor reason => exact transacts _
  | _ => first | rfl | exact ⟨rfl, rfl⟩

/-- The digest of the proposed action. -/
def sampleKey := "cb83863049a897ade11c3f1c5c58b1590c942dde70314a7cf2ae50593d4405d2"

/-- One action proposed, approved and executed. -/
def sampleRun : Workers :=
  (((⟨Tables.empty, [], []⟩ : Workers).ran sampleHandler
    ((⟨.localKind⟩ : RemediationBroker).propose sampleProposal "ann")).ran sampleHandler
    ((⟨.localKind⟩ : RemediationBroker).approve sampleKey "ben")).ran sampleHandler
    ((⟨.localKind⟩ : RemediationBroker).execute sampleKey "eve")

theorem sampleRun_reached : Reached sampleRun :=
  ((Reachable.call .refl sampleHandler_answers (.propose _ _ _)).call sampleHandler_answers
    (.approve _ _ _)).call sampleHandler_answers (.execute _ _ _)

/-- In that run the record succeeds, and says so. -/
theorem sampleRun_ended : sampleRun.shared.lastReason sampleKey = some "EXECUTOR_RESULT" ∧
    (sampleRun.shared.actions sampleKey).map (fun r => r.state) = some .succeeded := by
  decide +kernel

/-- The action of the run, from its proposal to its success. -/
theorem history_refinement_sample : ∃ record, sampleRun.shared.actions sampleKey = some record ∧
    record.state = .succeeded ∧ Audited sampleRun.shared sampleKey record := by
  obtain ⟨record, hrow, hstate⟩ := Option.map_eq_some_iff.mp sampleRun_ended.2
  exact ⟨record, hrow, hstate, (history_refinement sampleRun_reached).1 _ _ hrow⟩

end PayOps.Remediation
