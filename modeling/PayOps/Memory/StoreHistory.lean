import PayOps.Memory.IncidentStore
import PayOps.Process.Runner

/-!
# The history of an incident

Any number of workers create incidents, save reports and consume deliveries. Every statement is
atomic; the calls interleave in every order.

## What is proved

* `Proper` — what the calls write: a new incident has no report, and an update adds a report to an
  incident that had none and leaves the rest.
* `answer_later`, `reached_later` — a row keeps its key and its incident, and once it has a report it
  stays as it is.
* `Account` — what the events of a trace have seen and written is in the table.
* `store_linearizable` — **main result**.
-/

namespace PayOps.Memory

open Process Program Policy Orchestrator Relation

variable [Platform]

/-! ### Rows over time -/

/-- An incident but for its report. -/
def core (incident : Incident) : Identifier × Time × IncidentCreate :=
  (incident.incidentId, incident.createdAt, request incident)

/-- An incident is its core and its report. -/
theorem eq_of_core {a b : Incident} (h : core a = core b) (hr : a.report = b.report) : a = b := by
  obtain ⟨i, t, sv, c, n, s, r, hs⟩ := a
  obtain ⟨i', t', sv', c', n', s', r', hs'⟩ := b
  simp only [core, request, Prod.mk.injEq, IncidentCreate.mk.injEq] at h hr
  obtain ⟨rfl, rfl, rfl, rfl, rfl, rfl⟩ := h
  subst hr
  rfl

/-- `b` is what may become of the row `a`. -/
structure IncidentRow.Later (a b : IncidentRow) : Prop where
  /-- Its incident stays, -/
  incidentId : b.incidentId = a.incidentId
  /-- its key stays, -/
  key : b.idempotencyKey = a.idempotencyKey
  /-- what was asked stays, -/
  core : core b.payload = core a.payload
  /-- and its report, once it has one. -/
  report : ∀ r, a.payload.report = some r → b.payload.report = some r

theorem IncidentRow.Later.refl (a : IncidentRow) : a.Later a := ⟨rfl, rfl, rfl, fun _ => id⟩

theorem IncidentRow.Later.trans {a b c : IncidentRow} (h : a.Later b) (h' : b.Later c) : a.Later c :=
  ⟨h'.incidentId.trans h.incidentId, h'.key.trans h.key, h'.core.trans h.core,
    fun r hr => h'.report r (h.report r hr)⟩

/-- A row with a report stays as it is. -/
theorem IncidentRow.Later.payload {a b : IncidentRow} (h : a.Later b) {r : IncidentReport}
    (hr : a.payload.report = some r) : b.payload = a.payload :=
  eq_of_core h.core ((h.report r hr).trans hr.symm)

/-- What is written to the table. -/
def Proper : Effect → Prop
  | .insertRow row => row.payload.incidentId.val = row.incidentId ∧ row.payload.report = none
  | .updateRow incidentId old new =>
    old.report = none ∧ new.incidentId.val = incidentId ∧ core new = core old ∧ new.report ≠ none
  | _ => True

/-- What is asked while a delivery is processed: the message is not settled. -/
def Processing : Effect → Prop
  | .ack | .nack => False
  | e => Proper e

/-- What is asked while a report is checked and saved: no investigation either. -/
def Saving : Effect → Prop
  | .start _ | .resume _ | .ack | .nack => False
  | e => Proper e

theorem Processing.proper : ∀ e : Effect, Processing e → Proper e := by
  intro e h
  cases e <;> first | exact h | exact trivial

theorem Saving.processing : ∀ e : Effect, Saving e → Processing e := by
  intro e h
  cases e <;> first | exact h | exact h.elim

/-- What holds of every table. -/
structure Sound (s : Rows) : Prop where
  /-- The primary key: an incident has one row. -/
  ids : ∀ a ∈ s, ∀ b ∈ s, a.incidentId = b.incidentId → a = b
  /-- The unique key: a key has one row. -/
  keys : ∀ a ∈ s, ∀ b ∈ s, ∀ key, a.idempotencyKey = some key → b.idempotencyKey = some key → a = b
  /-- Every payload is its row's own. -/
  own : ∀ row ∈ s, row.payload.incidentId.val = row.incidentId

theorem rowOf_eq_some {s : Rows} {incidentId : String} {row : IncidentRow}
    (h : rowOf s incidentId = some row) : row ∈ s ∧ row.incidentId = incidentId :=
  ⟨List.mem_of_find?_eq_some h, eq_of_beq (by simpa using List.find?_some h)⟩

/-- A row of a table is what `rowOf` finds. -/
theorem Sound.rowOf {s : Rows} (h : Sound s) {row : IncidentRow} (hrow : row ∈ s) :
    rowOf s row.incidentId = some row := by
  cases hfound : Memory.rowOf s row.incidentId with
  | none => exact absurd (List.find?_eq_none.mp hfound row hrow) (by simp)
  | some found =>
    obtain ⟨hmem, hid⟩ := rowOf_eq_some hfound
    rw [h.ids found hmem row hrow hid]

/-- One row of a table after an update. -/
theorem setPayload_later {s : Rows} {incidentId : String} {new : Incident} {row : IncidentRow}
    (hs : Sound s) (hrow : rowOf s incidentId = some row) (hnone : row.payload.report = none)
    (hcore : core new = core row.payload) {a : IncidentRow} (ha : a ∈ s) :
    a.Later (if a.incidentId = incidentId then { a with payload := new } else a) := by
  split_ifs with hid
  · obtain ⟨hmem, hrid⟩ := rowOf_eq_some hrow
    obtain rfl := hs.ids a ha row hmem (hid.trans hrid.symm)
    refine ⟨rfl, rfl, hcore, fun r hr => ?_⟩
    rw [hnone] at hr
    cases hr
  · exact .refl a

/-- **What one answer does to the table**: every row goes on, and the table stays sound. -/
theorem answer_later {s s' : Rows} {e : Effect} {r : Except Fault e.Reply} (hs : Sound s)
    (hp : Proper e) (h : Answer s e r s') : Sound s' ∧ ∀ a ∈ s, ∃ b ∈ s', a.Later b := by
  have same : Sound s ∧ ∀ a ∈ s, ∃ b ∈ s, a.Later b := ⟨hs, fun a ha => ⟨a, ha, .refl a⟩⟩
  cases h with
  | @inserted row hfree =>
    have mem : ∀ {a}, a ∈ s ++ [row] → a ∈ s ∨ a = row := fun ha => by simpa using ha
    refine ⟨⟨?_, ?_, ?_⟩, fun a ha => ⟨a, List.mem_append_left _ ha, .refl a⟩⟩
    · intro a ha b hb hid
      rcases mem ha with hold | rfl <;> rcases mem hb with hold' | rfl
      · exact hs.ids a hold b hold' hid
      · exact absurd hid (hfree a hold).1
      · exact absurd hid.symm (hfree b hold').1
      · rfl
    · intro a ha b hb key hka hkb
      rcases mem ha with hold | rfl <;> rcases mem hb with hold' | rfl
      · exact hs.keys a hold b hold' key hka hkb
      · exact absurd (hka.trans hkb.symm) ((hfree a hold).2 (by simp [hkb]))
      · exact absurd (hkb.trans hka.symm) ((hfree b hold').2 (by simp [hka]))
      · rfl
    · intro a ha
      rcases mem ha with ha | rfl
      · exact hs.own a ha
      · exact hp.1
  | @updated incidentId old new row hrow hold =>
    subst hold
    obtain ⟨hnone, hid, hcore, -⟩ := hp
    have keep : ∀ a : IncidentRow,
        (if a.incidentId = incidentId then { a with payload := new } else a).incidentId = a.incidentId ∧
        (if a.incidentId = incidentId then { a with payload := new } else a).idempotencyKey =
          a.idempotencyKey := by
      intro a
      split_ifs <;> exact ⟨rfl, rfl⟩
    refine ⟨⟨?_, ?_, ?_⟩, fun a ha => ?_⟩
    · intro b hb b' hb' hid
      obtain ⟨a, ha, rfl⟩ := List.mem_map.mp hb
      obtain ⟨a', ha', rfl⟩ := List.mem_map.mp hb'
      rw [(keep a).1, (keep a').1] at hid
      rw [hs.ids a ha a' ha' hid]
    · intro b hb b' hb' key hkb hkb'
      obtain ⟨a, ha, rfl⟩ := List.mem_map.mp hb
      obtain ⟨a', ha', rfl⟩ := List.mem_map.mp hb'
      rw [(keep a).2] at hkb
      rw [(keep a').2] at hkb'
      rw [hs.keys a ha a' ha' key hkb hkb']
    · intro b hb
      obtain ⟨a, ha, rfl⟩ := List.mem_map.mp hb
      split_ifs with hsame
      · exact hid.trans hsame.symm
      · exact hs.own a ha
    · exact ⟨_, List.mem_map.mpr ⟨a, ha, rfl⟩, setPayload_later hs hrow hnone hcore ha⟩
  | _ => exact same

/-! ### What the calls write -/

theorem create_saving (asked : IncidentCreate) (key : Option String) :
    Within Saving (IncidentStore.create asked key) := by
  refine (within_perform.mpr trivial).bind fun incidentId => (within_perform.mpr trivial).bind fun now => ?_
  refine Within.tryCatch ?_ fun x => ?_
  · exact (within_perform.mpr ⟨rfl, rfl⟩).bind fun _ => trivial
  · split
    · refine (within_perform.mpr trivial).bind fun row => ?_
      cases row with
      | none => trivial
      | some row => exact (within_ofResult _).bind fun _ => within_raiseIf.bind fun _ => trivial
    · trivial

theorem get_saving (incidentId : String) : Within Saving (IncidentStore.get incidentId) := by
  refine (within_perform.mpr trivial).bind fun row => ?_
  cases row with
  | none => trivial
  | some row => exact (within_ofResult _).bind fun _ => trivial

theorem withReport_eq_ok {incident updated : Incident} {report : IncidentReport}
    (h : withReport incident report = .ok updated) :
    report.incidentId = incident.incidentId ∧ core updated = core incident ∧
      updated.report = some report := by
  unfold withReport at h
  split_ifs at h with hid
  cases h
  exact ⟨hid, rfl, rfl⟩

theorem save_saving (report : IncidentReport) : Within Saving (IncidentStore.saveReport report) := by
  refine (within_perform.mpr trivial).bind fun row => ?_
  cases row with
  | none => trivial
  | some row =>
    refine within_ofResult_bind fun incident hdecode => ?_
    have hpayload : row.payload = incident := by
      unfold IncidentStore.decode at hdecode
      split_ifs at hdecode
      exact Except.ok.inj hdecode
    subst hpayload
    split_ifs with hreport
    · trivial
    · refine within_ofResult_bind fun updated hupdated => ?_
      obtain ⟨hid, hcore, hnew⟩ := withReport_eq_ok hupdated
      have hown : updated.incidentId.val = report.incidentId.val :=
        congrArg Subtype.val ((congrArg Prod.fst hcore).trans hid.symm)
      refine (within_perform.mpr ⟨by simpa using hreport, hown, hcore, by simp [hnew]⟩).bind fun winner => ?_
      split_ifs
      · trivial
      · refine (get_saving _).bind fun saved => ?_
        cases saved with
        | none => trivial
        | some saved => exact within_raiseIf.bind fun _ => trivial

/-! ### What the workers of the queue write -/

theorem anyRole_saving (principal : Principal) (nameSpace : Identifier) (roles : List Role) :
    Within Saving (anyRole principal nameSpace roles) := by
  induction roles with
  | nil => trivial
  | cons role roles ih =>
    refine (within_perform.mpr trivial).bind fun now => ?_
    split_ifs
    · trivial
    · exact ih

theorem authorize_saving (principal : Principal) (nameSpace : Identifier) (write : Bool) :
    Within Saving (authorize principal nameSpace write) :=
  within_raiseIf.bind fun _ => (anyRole_saving ..).bind fun _ => within_raiseIf

theorem authorized_saving (incidentId : Identifier) :
    Within Saving (PubSubIncidentWorker.authorized incidentId) := by
  refine (within_perform.mpr trivial).bind fun principal => ?_
  cases principal with
  | none => trivial
  | some principal =>
    refine Within.bind ?_ fun incident => (authorize_saving ..).bind fun _ => trivial
    refine (get_saving _).bind fun incident => ?_
    cases incident with
    | none => trivial
    | some incident =>
      exact within_raiseIf.bind fun _ => (authorize_saving ..).bind fun _ =>
        within_raiseIf.bind fun _ => trivial

theorem publish_saving (mode : OperationMode) (incident : Incident) (found : Option IncidentReport) :
    Within Saving (PubSubIncidentWorker.publish mode incident found) :=
  (within_ofResult _).bind fun _ => (authorized_saving _).bind fun _ => (save_saving _).bind fun _ =>
    within_raiseIf

theorem investigate_processing (incident : Incident) :
    Within Processing (PubSubIncidentWorker.investigate incident) := by
  refine (within_perform.mpr trivial).bind fun started => Within.bind ?_ fun _ =>
    within_raiseIf.bind fun _ => trivial
  unfold PubSubIncidentWorker.resumed
  split_ifs
  · exact within_perform.mpr trivial
  · trivial

variable [Requests]

theorem process_processing (mode : OperationMode) (data : Message) :
    Within Processing (PubSubIncidentWorker.process mode data) := by
  refine within_raiseIf.bind fun _ => (within_ofResult _).bind fun _ =>
    ((authorized_saving _).mono Saving.processing).bind fun incident => ?_
  have publishes (found : Option IncidentReport) :=
    (publish_saving mode incident found).mono Saving.processing
  cases incident.report with
  | some report => exact publishes _
  | none => exact (investigate_processing _).bind publishes

/-- **The calls write properly.** -/
theorem StoreCall.proper {p : Program Host Reply} (h : StoreCall p) : Within Proper p := by
  have saves : ∀ e, Saving e → Proper e := fun e he => (Saving.processing e he).proper
  cases h with
  | create asked key => exact ((create_saving asked key).mono saves).bind fun _ => trivial
  | save report => exact ((save_saving report).mono saves).bind fun _ => trivial
  | handle mode data =>
    refine Within.bind ?_ fun _ => trivial
    have hprocess := (process_processing mode data).mono Processing.proper
    refine (within_attempt.mpr hprocess).bind fun out => ?_
    cases out <;> exact within_perform.mpr trivial

/-! ### The account of a run -/

/-- The row that an answered request has shown or added. -/
def shows : Event Host → Option IncidentRow
  | ⟨.insertRow row, .ok _⟩ => some row
  | ⟨.selectKey _, .ok (some row)⟩ => some row
  | ⟨.getRow _, .ok (some row)⟩ => some row
  | _ => none

/-- The event commits a report to the incident. -/
def commits (incidentId : String) : Event Host → Bool
  | ⟨.updateRow key _ _, .ok true⟩ => key == incidentId
  | _ => false

omit [Requests] in
theorem commits_iff {incidentId : String} {ev : Event Host} :
    commits incidentId ev = true ↔ ∃ old new, ev = ⟨.updateRow incidentId old new, .ok true⟩ := by
  constructor
  · intro h
    unfold commits at h
    split at h
    · rw [eq_of_beq h]
      exact ⟨_, _, rfl⟩
    · cases h
  · rintro ⟨old, new, rfl⟩
    exact beq_self_eq_true incidentId

/-- What the events of a trace have seen and written is in the table. -/
structure Account (s : Rows) (tr : Trace Host) : Prop where
  /-- The table is sound. -/
  sound : Sound s
  /-- A row that was seen has gone on. -/
  seen : ∀ x ∈ tr, ∀ row, shows x.2 = some row → ∃ later ∈ s, row.Later later
  /-- A row is selected by its key, -/
  selected : ∀ i key row, (i, ⟨.selectKey key, .ok (some row)⟩) ∈ tr → row.idempotencyKey = key
  /-- and read by its incident. -/
  got : ∀ i incidentId row, (i, ⟨.getRow incidentId, .ok (some row)⟩) ∈ tr → row.incidentId = incidentId
  /-- A key that is not found was in no row seen before. -/
  unselected : ∀ tr₁ tr₂ i key, tr = tr₁ ++ (i, ⟨.selectKey key, .ok none⟩) :: tr₂ →
    ∀ x ∈ tr₁, ∀ row, shows x.2 = some row → row.idempotencyKey ≠ key
  /-- What was committed is there. -/
  committed : ∀ i incidentId old new, (i, ⟨.updateRow incidentId old new, .ok true⟩) ∈ tr →
    new.report ≠ none ∧ ∃ row ∈ s, row.incidentId = incidentId ∧ row.payload = new
  /-- Reports were committed by those events only, -/
  uncommitted : ∀ row ∈ s, row.payload.report = none → ∀ x ∈ tr, commits row.incidentId x.2 = false
  /-- each report by one, -/
  origin : ∀ row ∈ s, row.payload.report ≠ none →
    ∃ i old, (i, ⟨.updateRow row.incidentId old row.payload, .ok true⟩) ∈ tr
  /-- and at most once. -/
  once : ∀ incidentId, (tr.countP fun x => commits incidentId x.2) ≤ 1

omit [Requests] in
/-- A row that an answer shows is in the table it leaves. -/
theorem answer_shows {s s' : Rows} {e : Effect} {r : Except Fault e.Reply} (h : Answer s e r s')
    {row : IncidentRow} (hrow : shows ⟨e, r⟩ = some row) : row ∈ s' := by
  cases h with
  | inserted _ => exact List.mem_append_right _ (by simpa [shows, eq_comm] using hrow)
  | selected hmem _ => rwa [← Option.some.inj hrow]
  | @got incidentId =>
    cases hfound : rowOf s incidentId with
    | none => rw [hfound] at hrow; cases hrow
    | some found =>
      rw [hfound] at hrow
      rw [← Option.some.inj hrow]
      exact (rowOf_eq_some hfound).1
  | fault => cases e <;> cases hrow
  | _ => cases hrow

omit [Requests] in
/-- A row is read by its incident. -/
theorem answer_getRow {s s' : Rows} {incidentId : String} {r : Except Fault (Option IncidentRow)}
    (h : Answer s (.getRow incidentId) r s') : (∃ x, r = .error x) ∨ r = .ok (rowOf s incidentId) := by
  cases h with
  | fault => exact .inl ⟨_, rfl⟩
  | got => exact .inr rfl

omit [Requests] in
/-- An update finds the expected payload. -/
theorem answer_updateRow {s s' : Rows} {incidentId : String} {old new : Incident}
    {r : Except Fault Bool} (h : Answer s (.updateRow incidentId old new) r s') (hr : r = .ok true) :
    (∃ row, rowOf s incidentId = some row ∧ row.payload = old) ∧ s' = setPayload s incidentId new := by
  cases h with
  | fault => cases hr
  | updated hrow hold => exact ⟨⟨_, hrow, hold⟩, rfl⟩
  | stale _ => cases hr

omit [Requests] in
/-- A key that is not found is in no row. -/
theorem answer_selectKey {s s' : Rows} {key : Option String} {r : Except Fault (Option IncidentRow)}
    (h : Answer s (.selectKey key) r s') (hr : r = .ok none) :
    ∀ row ∈ s, row.idempotencyKey ≠ key := by
  cases h with
  | fault => cases hr
  | selected _ _ => cases hr
  | unselected hnone => exact hnone

omit [Requests] in
/-- Other answers leave the reports as they are. -/
theorem answer_reports {s s' : Rows} {e : Effect} {r : Except Fault e.Reply} (hp : Proper e)
    (h : Answer s e r s') :
    (∃ incidentId old new, (⟨e, r⟩ : Event Host) = ⟨.updateRow incidentId old new, .ok true⟩) ∨
      (∀ incidentId, commits incidentId ⟨e, r⟩ = false) ∧
        ∀ a ∈ s', a ∈ s ∨ a.payload.report = none ∧ ∀ b ∈ s, b.incidentId ≠ a.incidentId := by
  cases h with
  | updated hrow hold => exact .inl ⟨_, _, _, rfl⟩
  | @inserted row hfree =>
    refine .inr ⟨fun _ => rfl, fun a ha => ?_⟩
    rcases List.mem_append.mp ha with hold | hnew
    · exact .inl hold
    · rw [List.mem_singleton.mp hnew]
      exact .inr ⟨hp.2, fun b hb => (hfree b hb).1⟩
  | fault => exact .inr ⟨fun _ => by cases e <;> rfl, fun _ => .inl⟩
  | _ => exact .inr ⟨fun _ => rfl, fun _ => .inl⟩

omit [Requests] in
/-- **One answer keeps the account.** -/
theorem Account.step {s s' : Rows} {tr : Trace Host} {i : ℕ} {e : Effect} {r : Except Fault e.Reply}
    (h : Account s tr) (hp : Proper e) (ha : Answer s e r s') : Account s' (tr ++ [(i, ⟨e, r⟩)]) := by
  obtain ⟨hsound, hlater⟩ := answer_later h.sound hp ha
  have mem : ∀ {x}, x ∈ tr ++ [(i, (⟨e, r⟩ : Event Host))] → x ∈ tr ∨ x = (i, ⟨e, r⟩) :=
    fun hx => by simpa using hx
  refine ⟨hsound, ?_, ?_, ?_, ?_, ?_, ?_, ?_, ?_⟩
  · intro x hx row hrow
    rcases mem hx with hold | rfl
    · obtain ⟨mid, hmid, hgone⟩ := h.seen x hold row hrow
      obtain ⟨later, hl, hon⟩ := hlater mid hmid
      exact ⟨later, hl, hgone.trans hon⟩
    · exact ⟨row, answer_shows ha hrow, .refl row⟩
  · intro j key row hj
    rcases mem hj with hold | hnew
    · exact h.selected j key row hold
    · cases hnew
      cases ha with
      | selected _ hkey => exact hkey
  · intro j incidentId row hj
    rcases mem hj with hold | hnew
    · exact h.got j incidentId row hold
    · cases hnew
      rcases answer_getRow ha with ⟨x, hx⟩ | hr
      · cases hx
      · exact (rowOf_eq_some (Except.ok.inj hr).symm).2
  · intro tr₁ tr₂ j key htr x hx row hrow hkey
    rcases List.eq_nil_or_concat' tr₂ with rfl | ⟨tr₂, y, rfl⟩
    · obtain ⟨rfl, hlast⟩ := List.append_inj' htr rfl
      cases hlast
      obtain ⟨held, hheld, hgone⟩ := h.seen x hx row hrow
      exact answer_selectKey ha rfl held hheld (hgone.key.trans hkey)
    · rw [← List.cons_append, ← List.append_assoc] at htr
      exact h.unselected tr₁ tr₂ j key (List.append_inj' htr rfl).1 x hx row hrow hkey
  · intro j incidentId old new hj
    rcases mem hj with hold | hnew
    · obtain ⟨hreport, row, hrow, hid, rfl⟩ := h.committed j incidentId old new hold
      obtain ⟨later, hl, hon⟩ := hlater row hrow
      obtain ⟨report, hr⟩ := Option.ne_none_iff_exists'.mp hreport
      exact ⟨hreport, later, hl, hon.incidentId.trans hid, hon.payload hr⟩
    · cases hnew
      obtain ⟨⟨row, hrow, -⟩, rfl⟩ := answer_updateRow ha rfl
      obtain ⟨hmem, hid⟩ := rowOf_eq_some hrow
      refine ⟨hp.2.2.2, { row with payload := new }, ?_, hid, rfl⟩
      exact List.mem_map.mpr ⟨row, hmem, if_pos hid⟩
  · intro row hrow hnone x hx
    rcases answer_reports hp ha with ⟨incidentId, old, new, hev⟩ | ⟨hquiet, hback⟩
    · obtain ⟨rfl, hr⟩ := Event.mk.inj hev
      obtain rfl := eq_of_heq hr
      obtain ⟨-, rfl⟩ := answer_updateRow ha rfl
      obtain ⟨a, hmem, rfl⟩ := List.mem_map.mp hrow
      split_ifs at hnone ⊢ with hid
      · exact absurd hnone hp.2.2.2
      · rcases mem hx with hold | rfl
        · exact h.uncommitted a hmem hnone x hold
        · simpa [commits] using Ne.symm hid
    · rcases mem hx with hold | rfl
      · rcases hback row hrow with hmem | ⟨-, hfresh⟩
        · exact h.uncommitted row hmem hnone x hold
        · by_contra hcommit
          obtain ⟨old, new, hev⟩ := commits_iff.mp (Bool.not_eq_false _ ▸ hcommit)
          obtain ⟨j, ev⟩ := x
          obtain rfl : ev = _ := hev
          obtain ⟨-, held, hheld, hid, -⟩ := h.committed _ _ _ _ hold
          exact hfresh held hheld hid
      · exact hquiet _
  · intro row hrow hreport
    rcases answer_reports hp ha with ⟨incidentId, old, new, hev⟩ | ⟨-, hback⟩
    · obtain ⟨rfl, hr⟩ := Event.mk.inj hev
      obtain rfl := eq_of_heq hr
      obtain ⟨-, rfl⟩ := answer_updateRow ha rfl
      obtain ⟨a, hmem, rfl⟩ := List.mem_map.mp hrow
      by_cases hid : a.incidentId = incidentId
      · exact ⟨i, old, by simp [hid]⟩
      · rw [if_neg hid] at hreport ⊢
        obtain ⟨j, old', hj⟩ := h.origin a hmem hreport
        exact ⟨j, old', List.mem_append_left _ hj⟩
    · rcases hback row hrow with hmem | ⟨hnone, -⟩
      · obtain ⟨j, old, hj⟩ := h.origin row hmem hreport
        exact ⟨j, old, List.mem_append_left _ hj⟩
      · exact absurd hnone hreport
  · intro incidentId
    rw [List.countP_append]
    rcases answer_reports hp ha with ⟨key, old, new, hev⟩ | ⟨hquiet, -⟩
    · obtain ⟨rfl, hr⟩ := Event.mk.inj hev
      obtain rfl := eq_of_heq hr
      obtain ⟨⟨row, hrow, rfl⟩, -⟩ := answer_updateRow ha rfl
      by_cases hid : key = incidentId
      · subst hid
        obtain ⟨hmem, rfl⟩ := rowOf_eq_some hrow
        have hzero : tr.countP (fun x => commits row.incidentId x.2) = 0 :=
          List.countP_eq_zero.mpr fun x hx => by simp [h.uncommitted row hmem hp.1 x hx]
        rw [hzero]
        simp [commits]
      · simpa [commits, hid] using h.once incidentId
    · simpa [hquiet] using h.once incidentId

/-- **The account holds of every run.** -/
theorem reached_account {c : Config Host Rows Reply} (h : Reached c) : Account c.shared c.trace := by
  refine Reachable.invariant Account h ?_ fun s tr i p e r s' q hinv hp hpath ha =>
    hinv.step ((hp.proper.path hpath).1 ⟨e, r⟩ (by simp)) ha
  exact ⟨⟨by simp, by simp, by simp⟩, by simp, by simp, by simp, by simp, by simp, by simp, by simp,
    by simp⟩

/-- **From one state to a later one** every row goes on. -/
theorem reached_later {c c' : Config Host Rows Reply} (h : Reached c)
    (hlater : ReflTransGen (Step Environment StoreCall) c c') {row : IncidentRow} (hrow : row ∈ c.shared) :
    ∃ later ∈ c'.shared, row.Later later := by
  induction hlater with
  | refl => exact ⟨row, hrow, .refl row⟩
  | @tail b c' hb hs ih =>
    obtain ⟨mid, hmid, hon⟩ := ih
    have hreached : Reached b := h.trans hb
    rcases Reachable.shared_step hreached (fun _ => StoreCall.proper) hs with heq | ⟨e, r, hp, ha⟩
    · exact ⟨mid, heq ▸ hmid, hon⟩
    · obtain ⟨later, hl, hgone⟩ := (answer_later (reached_account hreached).sound hp ha).2 mid hmid
      exact ⟨later, hl, hon.trans hgone⟩

/-! ### What the calls return -/

section Returns

omit [Requests]

theorem decode_eq_ok {row : IncidentRow} {incident : Incident}
    (h : IncidentStore.decode row = .ok incident) : row.payload = incident := by
  unfold IncidentStore.decode at h
  split_ifs at h
  exact Except.ok.inj h

theorem decode_eq_error {row : IncidentRow} {x : Fault} (h : IncidentStore.decode row = .error x) :
    row.payload.incidentId.val ≠ row.incidentId := by
  unfold IncidentStore.decode at h
  split_ifs at h with hid
  exact hid

/-- A `create` that returns has added the row of its key, or has found it. -/
theorem create_returns {asked : IncidentCreate} {key : Option String} {h : History Host}
    {incident : Incident} (hr : Runs (IncidentStore.create asked key) h (.ok incident)) :
    request incident = asked ∧ ∃ row, row.payload = incident ∧
      (row.idempotencyKey = key ∧ ⟨.insertRow row, .ok ()⟩ ∈ h ∨
        ⟨.selectKey key, .ok (some row)⟩ ∈ h) := by
  obtain ⟨incidentId, h₁, rfl, hclock⟩ := runs_perform_bind_ok.mp hr
  obtain ⟨now, h₂, rfl, htry⟩ := runs_perform_bind_ok.mp hclock
  rcases runs_tryCatch htry with ⟨a, ha, hbody⟩ | ⟨x, h₃, h₄, rfl, -, hhandler⟩
  · cases ha
    obtain ⟨u, h₃, rfl, hdone⟩ := runs_perform_bind_ok.mp hbody
    obtain ⟨rfl, hincident⟩ := runs_done.mp hdone
    cases hincident
    exact ⟨rfl, _, rfl, .inl ⟨rfl, .tail _ (.tail _ (List.mem_singleton.mpr rfl))⟩⟩
  · cases x with
    | duplicate =>
      obtain ⟨found, h₅, rfl, hselected⟩ := runs_perform_bind_ok.mp hhandler
      cases found with
      | none => cases (runs_fail.mp hselected).2
      | some row =>
        obtain ⟨previous, hdecode, hchecked⟩ := runs_ofResult_bind_ok.mp hselected
        obtain ⟨hasked, hdone⟩ := runs_raiseIf_bind_ok.mp hchecked
        obtain ⟨rfl, hprevious⟩ := runs_done.mp hdone
        cases hprevious
        exact ⟨not_not.mp hasked, row, decode_eq_ok hdecode, .inr (by simp)⟩
    | _ => cases (runs_fail.mp hhandler).2

/-- Why a `create` fails: the row of its key has another request, one of its statements failed, or
the insertion failed and no row has the key. -/
theorem create_fails {asked : IncidentCreate} {key : Option String} {h : History Host} {x : Fault}
    (hr : Runs (IncidentStore.create asked key) h (.error x)) :
    (∃ row, ⟨.selectKey key, .ok (some row)⟩ ∈ h ∧
        (row.payload.incidentId.val ≠ row.incidentId ∨
          x = IncidentStore.idempotencyConflict ∧ request row.payload ≠ asked)) ∨
      (∃ e, ⟨e, .error x⟩ ∈ h ∧ ∀ row, e = .insertRow row → x ≠ .duplicate) ∨
      x = .duplicate ∧ ⟨.selectKey key, .ok none⟩ ∈ h := by
  rcases runs_perform_bind.mp hr with ⟨y, rfl, hy⟩ | ⟨incidentId, h₁, rfl, hclock⟩
  · cases hy
    exact .inr (.inl ⟨_, List.mem_singleton.mpr rfl, by simp⟩)
  rcases runs_perform_bind.mp hclock with ⟨y, rfl, hy⟩ | ⟨now, h₂, rfl, htry⟩
  · cases hy
    exact .inr (.inl ⟨_, List.mem_cons_of_mem _ (List.mem_singleton.mpr rfl), by simp⟩)
  rcases runs_tryCatch htry with ⟨a, ha, -⟩ | ⟨y, h₃, h₄, rfl, hbody, hhandler⟩
  · cases ha
  have hinsert : ∃ row, h₃ = [⟨.insertRow row, .error y⟩] := by
    rcases runs_perform_bind.mp hbody with ⟨z, rfl, hz⟩ | ⟨u, h₅, rfl, hdone⟩
    · cases hz
      exact ⟨_, rfl⟩
    · cases (runs_done.mp hdone).2
  obtain ⟨inserted, rfl⟩ := hinsert
  by_cases hy : y = .duplicate
  · subst hy
    rcases runs_perform_bind.mp hhandler with ⟨z, rfl, hz⟩ | ⟨found, h₅, rfl, hselected⟩
    · cases hz
      exact .inr (.inl ⟨.selectKey key, by simp, by simp⟩)
    cases found with
    | none =>
      obtain ⟨rfl, hx⟩ := runs_fail.mp hselected
      cases hx
      exact .inr (.inr ⟨rfl, by simp⟩)
    | some row =>
      refine .inl ⟨row, by simp, ?_⟩
      cases hdecode : IncidentStore.decode row with
      | error z => exact .inl (decode_eq_error hdecode)
      | ok previous =>
        have hchecked : Runs ((raiseIf (request previous ≠ asked) IncidentStore.idempotencyConflict).bind
            fun _ => .done previous) h₅ (.error x) := by simpa [ofResult, hdecode] using hselected
        rcases runs_raiseIf_bind.mp hchecked with ⟨hasked, -, hx⟩ | ⟨-, hdone⟩
        · cases hx
          exact .inr ⟨rfl, decode_eq_ok hdecode ▸ hasked⟩
        · cases (runs_done.mp hdone).2
  · have hfail : Runs (.fail y : Program Host Incident) h₄ (.error x) := by
      cases y with
      | duplicate => exact absurd rfl hy
      | _ => exact hhandler
    obtain ⟨rfl, hx⟩ := runs_fail.mp hfail
    cases hx
    exact .inr (.inl ⟨.insertRow inserted, by simp, fun _ _ => hy⟩)

theorem get_returns {incidentId : String} {h : History Host} {found : Option Incident}
    (hr : Runs (IncidentStore.get incidentId) h (.ok found)) {incident : Incident}
    (hfound : found = some incident) :
    ∃ row, ⟨.getRow incidentId, .ok (some row)⟩ ∈ h ∧ row.payload = incident := by
  subst hfound
  obtain ⟨row, h₁, rfl, hrow⟩ := runs_perform_bind_ok.mp hr
  cases row with
  | none => cases (runs_done.mp hrow).2
  | some row =>
    obtain ⟨decoded, hdecode, hdone⟩ := runs_ofResult_bind_ok.mp hrow
    cases (runs_done.mp hdone).2
    exact ⟨row, by simp, decode_eq_ok hdecode⟩

/-- A `save_report` that returns has read the incident with its report, or has committed it. -/
theorem save_returns {report : IncidentReport} {h : History Host} {incident : Incident}
    (hr : Runs (IncidentStore.saveReport report) h (.ok incident)) :
    incident.report ≠ none ∧
      ((∃ row, ⟨.getRow report.incidentId.val, .ok (some row)⟩ ∈ h ∧ row.payload = incident) ∨
        ∃ old, ⟨.updateRow report.incidentId.val old incident, .ok true⟩ ∈ h) := by
  obtain ⟨found, h₁, rfl, hfound⟩ := runs_perform_bind_ok.mp hr
  cases found with
  | none => cases (runs_fail.mp hfound).2
  | some row =>
    obtain ⟨decoded, hdecode, hrow⟩ := runs_ofResult_bind_ok.mp hfound
    split_ifs at hrow with hreport
    · obtain ⟨rfl, hincident⟩ := runs_done.mp hrow
      cases hincident
      exact ⟨Option.isSome_iff_ne_none.mp hreport, .inl ⟨row, by simp, decode_eq_ok hdecode⟩⟩
    · obtain ⟨updated, hupdated, hwrite⟩ := runs_ofResult_bind_ok.mp hrow
      obtain ⟨winner, h₂, rfl, hwritten⟩ := runs_perform_bind_ok.mp hwrite
      cases winner with
      | true =>
        obtain ⟨rfl, hincident⟩ := runs_done.mp hwritten
        cases hincident
        exact ⟨by simp [(withReport_eq_ok hupdated).2.2], .inr ⟨row.payload, by simp⟩⟩
      | false =>
        obtain ⟨saved, h₃, h₄, rfl, hget, hlast⟩ := runs_bind_ok.mp hwritten
        cases saved with
        | none => cases (runs_fail.mp hlast).2
        | some saved =>
          obtain ⟨hsome, hdone⟩ := runs_raiseIf_bind_ok.mp hlast
          obtain ⟨rfl, hincident⟩ := runs_done.mp hdone
          cases hincident
          obtain ⟨found, hmem, hpayload⟩ := get_returns hget rfl
          exact ⟨by simpa using hsome, .inl ⟨found, by simp [hmem], hpayload⟩⟩

end Returns

section Reached

variable {c : Config Host Rows Reply}

/-- The own run of a call that has returned. -/
theorem own_returned {α : Type} {p : Program Host α} {f : α → Reply} {r : Except Fault Reply} {i : ℕ}
    {alive : Bool} (h : Reached c)
    (hcall : c.calls[i]? = some ⟨p.bind fun a => .done (f a), ofResult r, alive⟩) :
    (∃ x, r = .error x ∧ Runs p (c.trace.own i) (.error x)) ∨
      ∃ a, r = .ok (f a) ∧ Runs p (c.trace.own i) (.ok a) := by
  have hpath : Runs (p.bind fun a => .done (f a)) (c.trace.own i) r :=
    (Reachable.wellTraced h).path i _ hcall
  rcases runs_bind.mp hpath with hfail | ⟨a, h₁, h₂, hown, hp, hdone⟩
  · exact .inl hfail
  · obtain ⟨rfl, rfl⟩ := runs_done.mp hdone
    rw [List.append_nil] at hown
    exact .inr ⟨a, rfl, hown ▸ hp⟩

omit [Requests] in
/-- A row that a call has selected, as it is now. -/
theorem Account.found {s : Rows} {tr : Trace Host} (h : Account s tr) {i : ℕ} {key : Option String}
    {row : IncidentRow} (hrow : (i, ⟨.selectKey key, .ok (some row)⟩) ∈ tr) :
    ∃ later ∈ s, row.Later later ∧ later.idempotencyKey = key := by
  obtain ⟨later, hmem, hon⟩ := h.seen _ hrow row rfl
  exact ⟨later, hmem, hon, hon.key.trans (h.selected i key row hrow)⟩

omit [Requests] in
/-- What is shown of an incident is its own. -/
theorem Account.shown_own {s : Rows} {tr : Trace Host} (h : Account s tr) {row later : IncidentRow}
    (hmem : later ∈ s) (hon : row.Later later) : row.payload.incidentId.val = row.incidentId := by
  have hown := h.sound.own later hmem
  rwa [hon.incidentId, show later.payload.incidentId = row.payload.incidentId from
    congrArg Prod.fst hon.core] at hown

/-- A `create` that has returned. -/
theorem created_account (h : Reached c) {i : ℕ} {asked : IncidentCreate} {key : Option String}
    {incident : Incident} {alive : Bool}
    (hcall : c.calls[i]? = some ⟨createCall asked key, .done (.created incident), alive⟩) :
    request incident = asked ∧ ∃ row ∈ c.shared, row.idempotencyKey = key ∧
      core row.payload = core incident ∧ (incident.report ≠ none → row.payload = incident) := by
  have ha := reached_account h
  rcases own_returned (r := .ok (.created incident)) h hcall with ⟨x, hx, -⟩ | ⟨a, hr, hown⟩
  · cases hx
  cases hr
  obtain ⟨hasked, row, rfl, hrow⟩ := create_returns hown
  have hlater : ∃ later ∈ c.shared, row.Later later ∧ later.idempotencyKey = key := by
    rcases hrow with ⟨hkey, hinsert⟩ | hselect
    · obtain ⟨later, hmem, hon⟩ := ha.seen _ (mem_own.mp hinsert) row rfl
      exact ⟨later, hmem, hon, hon.key.trans hkey⟩
    · exact ha.found (mem_own.mp hselect)
  obtain ⟨later, hmem, hon, hkey⟩ := hlater
  refine ⟨hasked, later, hmem, hkey, hon.core, fun hreport => ?_⟩
  obtain ⟨report, hr⟩ := Option.ne_none_iff_exists'.mp hreport
  exact hon.payload hr

/-- A `create` that has failed. -/
theorem create_account (h : Reached c) {i : ℕ} {asked : IncidentCreate} {key : Option String}
    {x : Fault} {alive : Bool}
    (hcall : c.calls[i]? = some ⟨createCall asked key, .fail x, alive⟩) :
    (x = IncidentStore.idempotencyConflict ∧
        ∃ row ∈ c.shared, row.idempotencyKey = key ∧ request row.payload ≠ asked) ∨
      (∃ e, (i, ⟨e, .error x⟩) ∈ c.trace ∧ ∀ row, e = .insertRow row → x ≠ .duplicate) ∨
      x = .duplicate ∧ ∃ tr₁ tr₂, c.trace = tr₁ ++ (i, ⟨.selectKey key, .ok none⟩) :: tr₂ ∧
        ∀ y ∈ tr₁, ∀ row, shows y.2 = some row → row.idempotencyKey ≠ key := by
  have ha := reached_account h
  rcases own_returned (r := .error x) h hcall with ⟨y, hy, hown⟩ | ⟨a, hr, -⟩
  · cases hy
    rcases create_fails hown with ⟨row, hrow, hwhy⟩ | ⟨e, he, hinsert⟩ | ⟨rfl, hnone⟩
    · obtain ⟨later, hmem, hon, hkey⟩ := ha.found (mem_own.mp hrow)
      rcases hwhy with hid | ⟨hconflict, hasked⟩
      · exact absurd (ha.shown_own hmem hon) hid
      · refine .inl ⟨hconflict, later, hmem, hkey, ?_⟩
        rwa [show request later.payload = request row.payload from
          congrArg (fun x => x.2.2) hon.core]
    · exact .inr (.inl ⟨e, mem_own.mp he, hinsert⟩)
    · obtain ⟨tr₁, tr₂, htr⟩ := List.append_of_mem (mem_own.mp hnone)
      exact .inr (.inr ⟨rfl, tr₁, tr₂, htr, ha.unselected tr₁ tr₂ i key htr⟩)
  · cases hr

/-- A `save_report` that has returned. -/
theorem saved_account (h : Reached c) {i : ℕ} {report : IncidentReport} {incident : Incident}
    {alive : Bool} (hcall : c.calls[i]? = some ⟨saveCall report, .done (.saved incident), alive⟩) :
    incident.report ≠ none ∧ ∃ row ∈ c.shared, row.incidentId = report.incidentId.val ∧
      row.payload = incident := by
  have ha := reached_account h
  rcases own_returned (r := .ok (.saved incident)) h hcall with ⟨x, hx, -⟩ | ⟨a, hr, hown⟩
  · cases hx
  cases hr
  obtain ⟨hreport, ⟨row, hrow, rfl⟩ | ⟨old, hcommit⟩⟩ := save_returns hown
  · obtain ⟨later, hmem, hon⟩ := ha.seen _ (mem_own.mp hrow) row rfl
    obtain ⟨held, hr⟩ := Option.ne_none_iff_exists'.mp hreport
    exact ⟨hreport, later, hmem, hon.incidentId.trans (ha.got i _ row (mem_own.mp hrow)),
      hon.payload hr⟩
  · exact ⟨hreport, (ha.committed i _ old incident (mem_own.mp hcommit)).2⟩

/-- **The incident store is linearizable**, in every interleaving of any number of calls.

A key has at most one incident, and that incident goes on for ever. A `create` that returns gives
the incident of its key, which was asked for as it asks; if it raises `IdempotencyConflict`, the
incident of its key was asked for in another way; and otherwise one of its statements failed, or its
insertion did while its key was not there. A report is committed at most once for an incident, by
the event that `origin` names; it is never replaced, and it is what every `save_report` returns. -/
theorem store_linearizable (h : Reached c) :
    (∀ a ∈ c.shared, ∀ b ∈ c.shared, ∀ key, a.idempotencyKey = some key →
      b.idempotencyKey = some key → a = b) ∧
    (∀ c', ReflTransGen (Step Environment StoreCall) c c' → ∀ row ∈ c.shared,
      ∃ later ∈ c'.shared, later.incidentId = row.incidentId ∧
        later.idempotencyKey = row.idempotencyKey ∧ core later.payload = core row.payload ∧
        (row.payload.report ≠ none → later.payload = row.payload)) ∧
    (∀ (i : ℕ) asked key incident alive,
      c.calls[i]? = some ⟨createCall asked (some key), .done (.created incident), alive⟩ →
      request incident = asked ∧ ∃ row ∈ c.shared, row.idempotencyKey = some key ∧
        core row.payload = core incident ∧ (incident.report ≠ none → row.payload = incident)) ∧
    (∀ (i : ℕ) asked key x alive, c.calls[i]? = some ⟨createCall asked (some key), .fail x, alive⟩ →
      (x = IncidentStore.idempotencyConflict ∧
        ∃ row ∈ c.shared, row.idempotencyKey = some key ∧ request row.payload ≠ asked) ∨
      (∃ e, (i, ⟨e, .error x⟩) ∈ c.trace ∧ ∀ row, e = .insertRow row → x ≠ .duplicate) ∨
      x = .duplicate ∧ ∃ tr₁ tr₂, c.trace = tr₁ ++ (i, ⟨.selectKey (some key), .ok none⟩) :: tr₂ ∧
        ∀ y ∈ tr₁, ∀ row, shows y.2 = some row → row.idempotencyKey ≠ some key) ∧
    (∀ row ∈ c.shared, row.payload.report ≠ none → ∃ i old,
      (i, ⟨.updateRow row.incidentId old row.payload, .ok true⟩) ∈ c.trace) ∧
    (∀ incidentId, (c.trace.countP fun x => commits incidentId x.2) ≤ 1) ∧
    ∀ (i : ℕ) (report : IncidentReport) incident alive,
      c.calls[i]? = some ⟨saveCall report, .done (.saved incident), alive⟩ →
      incident.report ≠ none ∧ ∃ row ∈ c.shared, row.incidentId = report.incidentId.val ∧
        row.payload = incident := by
  have ha := reached_account h
  refine ⟨ha.sound.keys, ?_, fun _ _ _ _ _ => created_account h, fun _ _ _ _ _ => create_account h,
    ha.origin, ha.once, fun _ _ _ _ => saved_account h⟩
  intro c' hlater row hrow
  obtain ⟨later, hmem, hon⟩ := reached_later h hlater hrow
  refine ⟨later, hmem, hon.incidentId, hon.key, hon.core, fun hreport => ?_⟩
  obtain ⟨report, hr⟩ := Option.ne_none_iff_exists'.mp hreport
  exact hon.payload hr

end Reached

end PayOps.Memory

namespace PayOps.Memory

open Process Program Policy Orchestrator

/-! ### A run -/

/-- A platform whose digests are all the same. -/
@[reducible] def storePlatform : Platform where
  sha256 _ := "0"
  patternWord _ := false
  reWord _ := false
  nesting := 64
  floatRepr text := text

attribute [local instance] storePlatform

/-- Every message refers to one incident. -/
@[reducible] def storeRequests : Requests := ⟨fun _ => .ok ⟨"inc-1", by decide⟩⟩

attribute [local instance] storeRequests

/-- A title. -/
def sampleTitle : { s : String // strippedOk 200 s = true } := ⟨"a", by decide⟩

/-- What is asked for. -/
def sampleAsked (title : { s : String // strippedOk 200 s = true }) : IncidentCreate :=
  ⟨title, ⟨"payops-sandbox", by decide⟩, ⟨"payments-api", by decide⟩, .warning⟩

/-- A report without evidence. -/
def sampleReport (traceId : String) : IncidentReport where
  incidentId := ⟨"inc-1", by decide⟩
  terminalState := .evidenceInsufficient
  mode := .fixtureReplay
  durationSeconds := .zero
  traceId := traceId
  citations := by rfl
  receiptsBounded := no_receipts

theorem worker_roles : 1 ≤ [Role.responder].length ∧ [Role.responder].length ≤ 4 := by decide

/-- The identity of the worker. -/
def samplePrincipal : Principal where
  subject := ⟨"worker-1", by decide⟩
  roles := [.responder]
  nameSpaces := [⟨"payops-sandbox", by decide⟩]
  verifiedAt := 0
  expiresAt := 1
  roles_bounded := worker_roles
  nameSpaces_bounded := by decide

/-- A finished investigation. -/
def sampleState (incident : Incident) : InvestigationState where
  incident := incident
  budget := ⟨⟨5, by decide⟩, ⟨1, by decide⟩, ⟨1, by decide⟩, 0⟩
  mode := .fixtureReplay
  collectionProfile := .instantV1
  rankingProfile := ⟨"instant_v1", by decide⟩
  rankingMethod := .deterministic
  phase := .finished
  report := some (sampleReport "first")

/-- A host with a database and fresh names. -/
def storeHandler : Handler Host Rows := fun e s =>
  match e with
  | .newId => (.ok (if s = [] then ⟨"inc-1", by decide⟩ else ⟨"inc-2", by decide⟩), s)
  | .utcNow => (.ok 0, s)
  | .insertRow row => if insertable s row then (.ok (), s ++ [row]) else (.error .duplicate, s)
  | .selectKey key => (.ok (s.find? fun row => row.idempotencyKey = key), s)
  | .getRow incidentId => (.ok (rowOf s incidentId), s)
  | .updateRow incidentId old new =>
    match rowOf s incidentId with
    | some row => if row.payload = old then (.ok true, setPayload s incidentId new) else (.ok false, s)
    | none => (.ok false, s)
  | .principal => (.ok (some samplePrincipal), s)
  | .start incident => (.ok (sampleState incident), s)
  | .resume _ => (.error (.other ""), s)
  | .ack => (.ok (), s)
  | .nack => (.ok (), s)

theorem storeHandler_answers (e : Effect) (s : Rows) :
    Environment.answer s e (storeHandler e s).1 (storeHandler e s).2 := by
  show Answer s e (storeHandler e s).1 (storeHandler e s).2
  cases e with
  | newId => exact .newId
  | utcNow => exact .utcNow
  | insertRow row =>
    by_cases hfree : insertable s row
    · simpa [storeHandler, hfree] using Answer.inserted hfree
    · simpa [storeHandler, hfree] using Answer.fault
  | selectKey key =>
    cases hfound : s.find? fun row => row.idempotencyKey = key with
    | none => simpa [storeHandler, hfound] using Answer.unselected (by simpa using hfound)
    | some row =>
      simpa [storeHandler, hfound] using
        Answer.selected (List.mem_of_find?_eq_some hfound) (by simpa using List.find?_some hfound)
  | getRow incidentId => exact .got
  | updateRow incidentId old new =>
    cases hfound : rowOf s incidentId with
    | none => simpa [storeHandler, hfound] using Answer.stale (by simp [hfound])
    | some row =>
      by_cases hold : row.payload = old
      · simpa [storeHandler, hfound, hold] using Answer.updated hfound hold
      · simpa [storeHandler, hfound, hold] using Answer.stale (by simpa [hfound] using hold)
  | principal => exact .principal
  | start incident => exact .start
  | resume incidentId => exact .resume
  | ack => exact .ack
  | nack => exact .nack

/-- An incident is created twice and asked for in another way; then two reports of it are saved. -/
def sampleStore : Config Host Rows Reply :=
  let call (c : Config Host Rows Reply) p := c.ran storeHandler p
  call (call (call (call (call ⟨[], [], []⟩
    (createCall (sampleAsked sampleTitle) (some "key")))
    (createCall (sampleAsked sampleTitle) (some "key")))
    (createCall (sampleAsked ⟨"b", by decide⟩) (some "key")))
    (saveCall (sampleReport "first"))) (saveCall (sampleReport "second"))

theorem sampleStore_reached : Reached sampleStore :=
  ((((Reachable.call .refl storeHandler_answers (.create ..)).call storeHandler_answers
    (.create ..)).call storeHandler_answers (.create ..)).call storeHandler_answers
    (.save _)).call storeHandler_answers (.save _)

/-- In that run there is one incident, with one commit: the second `save_report` returns the first
report. -/
theorem store_linearizable_sample : ∃ row ∈ sampleStore.shared,
    row.idempotencyKey = some "key" ∧ row.payload.report = some (sampleReport "first") ∧
      (∀ row' ∈ sampleStore.shared, row'.idempotencyKey = some "key" → row' = row) ∧
      (sampleStore.trace.countP fun x => commits row.incidentId x.2) = 1 := by
  obtain ⟨hkeys, -, -, -, horigin, honce, -⟩ := store_linearizable sampleStore_reached
  have hrow : ∃ row ∈ sampleStore.shared, row.idempotencyKey = some "key" ∧
      row.payload.report = some (sampleReport "first") := by decide +kernel
  obtain ⟨row, hmem, hkey, hreport⟩ := hrow
  refine ⟨row, hmem, hkey, hreport, fun row' hmem' hkey' => hkeys row' hmem' row hmem "key" hkey' hkey, ?_⟩
  obtain ⟨i, old, hcommit⟩ := horigin row hmem (by simp [hreport])
  refine le_antisymm (honce row.incidentId) (List.countP_pos_iff.mpr ⟨_, hcommit, ?_⟩)
  exact commits_iff.mpr ⟨_, _, rfl⟩

end PayOps.Memory
