import PayOps.Memory.StoreHistory

/-!
# Deliveries

A message of the queue refers to an incident. It is delivered any number of times, to any number of
workers at once, any of which may crash between two requests.

## What is proved

* `handle_settled` — a delivery is settled once, as its last request, by how its processing ended.
* `process_returns` — what a completed processing has asked for, in which order.
* `acked_published` — **main result**: a message is acknowledged after its report is in the table.
-/

namespace PayOps.Memory

open Process Program Policy Orchestrator

variable [Platform] [Requests]

namespace PubSubIncidentWorker

/-! ### How a delivery is settled -/

/-- What `handle` does after `process`. -/
def settle : Except Fault Unit → Program Host Unit
  | .ok _ => ask .ack
  | .error _ => ask .nack

/-- The request that settles a delivery. -/
def settlement : Except Fault Unit → Effect
  | .ok _ => .ack
  | .error _ => .nack

theorem handleCall_eq (mode : OperationMode) (data : Message) :
    handleCall mode data =
      (process mode data).attempt.bind fun out => (settle out).bind fun _ => .done .handled := by
  unfold handleCall handle
  rw [bind_eq, bind_assoc]
  congr 1
  funext out
  cases out <;> rfl

omit [Requests] in
/-- The last request of a delivery. -/
theorem settle_path {out : Except Fault Unit} {h : History Host} {q : Program Host Reply}
    (hpath : Path ((settle out).bind fun _ => .done .handled) h q) :
    (h = [] ∧ ∃ k, q = .call (settlement out) k) ∨ ∃ r, h = [⟨settlement out, r⟩] := by
  cases out with
  | ok u | error u =>
    rcases path_call.mp hpath with ⟨rfl, rfl⟩ | ⟨r, h', rfl, hrest⟩
    · exact .inl ⟨rfl, _, rfl⟩
    · refine .inr ⟨r, ?_⟩
      cases r with
      | ok v => rw [(path_done.mp hrest).1]; rfl
      | error x => rw [(path_fail.mp hrest).1]; rfl

/-- **A delivery is settled once**, as its last request, after its processing has ended. -/
theorem handle_settled {mode : OperationMode} {data : Message} {h : History Host}
    {q : Program Host Reply} (hpath : Path (handleCall mode data) h q) {ev : Event Host} (hev : ev ∈ h)
    (hout : ¬Processing ev.effect) :
    ∃ out h₁, h = h₁ ++ [ev] ∧ Runs (process mode data) h₁ out ∧ ev.effect = settlement out := by
  rw [handleCall_eq] at hpath
  obtain ⟨out, h₁, h₂, rfl, hruns, hlast, hmem⟩ :=
    (within_attempt.mpr (process_processing mode data)).past hpath hev hout
  obtain ⟨out', hout', hprocess⟩ := runs_attempt.mp hruns
  cases hout'
  rcases settle_path hlast with ⟨rfl, -⟩ | ⟨r, rfl⟩
  · cases hmem
  · obtain rfl := List.mem_singleton.mp hmem
    exact ⟨out, h₁, rfl, hprocess, rfl⟩

/-- After its processing has raised, a delivery asks for its negative acknowledgement. -/
theorem handle_raised {mode : OperationMode} {data : Message} {h₁ h₂ : History Host}
    {q : Program Host Reply} (hpath : Path (handleCall mode data) (h₁ ++ h₂) q) {x : Fault}
    (hraised : Runs (process mode data) h₁ (.error x)) :
    (h₂ = [] ∧ ∃ k, q = .call .nack k) ∨ ∃ r, h₂ = [⟨.nack, r⟩] := by
  rw [handleCall_eq] at hpath
  have hattempt : Path ((process mode data).attempt.bind fun out =>
      (settle out).bind fun _ => .done .handled) h₁
      ((settle (.error x)).bind fun _ => .done Reply.handled) :=
    path_bind.mpr (.inr ⟨.error x, h₁, [], (List.append_nil h₁).symm,
      runs_attempt.mpr ⟨.error x, rfl, hraised⟩, .refl⟩)
  exact settle_path (hattempt.rest hpath)

/-! ### What a completed processing has asked for -/

section Returns

omit [Requests]

theorem anyRole_returns {principal : Principal} {nameSpace : Identifier} {roles : List Role}
    {h : History Host} (hr : Runs (anyRole principal nameSpace roles) h (.ok true)) :
    ∃ role ∈ roles, ∃ now, ⟨.utcNow, .ok now⟩ ∈ h ∧
      identityValid (some principal) role nameSpace now = true := by
  induction roles generalizing h with
  | nil => cases (runs_done.mp hr).2
  | cons role roles ih =>
    obtain ⟨now, h', rfl, hrest⟩ := runs_perform_bind_ok.mp hr
    split_ifs at hrest with hvalid
    · exact ⟨role, by simp, now, by simp, hvalid⟩
    · obtain ⟨role', hrole', now', hnow', hvalid'⟩ := ih hrest
      exact ⟨role', List.mem_cons_of_mem _ hrole', now', List.mem_cons_of_mem _ hnow', hvalid'⟩

/-- Authority to write is a valid grant of a responder in the sandbox. -/
theorem authorize_returns {principal : Principal} {nameSpace : Identifier} {h : History Host}
    {u : Unit} (hr : Runs (authorize principal nameSpace true) h (.ok u)) :
    nameSpace.val = "payops-sandbox" ∧ ∃ now, ⟨.utcNow, .ok now⟩ ∈ h ∧
      identityValid (some principal) .responder nameSpace now = true := by
  obtain ⟨hscope, hrest⟩ := runs_raiseIf_bind_ok.mp hr
  obtain ⟨granted, h₁, h₂, rfl, hroles, hlast⟩ := runs_bind_ok.mp hrest
  have hgranted : granted = true := by simpa using (runs_raiseIf_ok.mp hlast).2
  rw [hgranted] at hroles
  obtain ⟨role, hrole, now, hnow, hvalid⟩ := anyRole_returns hroles
  obtain rfl : role = .responder := by simpa using hrole
  exact ⟨not_not.mp hscope, now, List.mem_append_left _ hnow, hvalid⟩

theorem scopedIncident_returns {incidentId : Identifier} {principal : Principal} {h : History Host}
    {incident : Incident} (hr : Runs (scopedIncident incidentId principal) h (.ok incident)) :
    incident.nameSpace ∈ principal.nameSpaces ∧ incident.service.val ∈ SERVICES ∧
      ∃ row, ⟨.getRow incidentId.val, .ok (some row)⟩ ∈ h ∧ row.payload = incident := by
  obtain ⟨found, h₁, h₂, rfl, hget, hrest⟩ := runs_bind_ok.mp hr
  cases found with
  | none => cases (runs_fail.mp hrest).2
  | some found =>
    obtain ⟨hscope, hread⟩ := runs_raiseIf_bind_ok.mp hrest
    obtain ⟨u, h₃, h₄, rfl, -, hservice⟩ := runs_bind_ok.mp hread
    obtain ⟨hknown, hdone⟩ := runs_raiseIf_bind_ok.mp hservice
    obtain ⟨-, hincident⟩ := runs_done.mp hdone
    cases hincident
    obtain ⟨row, hrow, hpayload⟩ := get_returns hget rfl
    exact ⟨not_not.mp hscope, not_not.mp hknown, row, List.mem_append_left _ hrow, hpayload⟩

/-- The worker's authority over an incident was found valid by the requests of `h`. -/
def Authority (incidentId : Identifier) (incident : Incident) (h : History Host) : Prop :=
  ∃ principal now row, ⟨.principal, .ok (some principal)⟩ ∈ h ∧ ⟨.utcNow, .ok now⟩ ∈ h ∧
    ⟨.getRow incidentId.val, .ok (some row)⟩ ∈ h ∧ row.payload = incident ∧
    incident.nameSpace.val = "payops-sandbox" ∧ incident.service.val ∈ SERVICES ∧
    incident.nameSpace ∈ principal.nameSpaces ∧
    identityValid (some principal) .responder incident.nameSpace now = true

theorem authorized_returns {incidentId : Identifier} {h : History Host} {incident : Incident}
    (hr : Runs (authorized incidentId) h (.ok incident)) : Authority incidentId incident h := by
  obtain ⟨found, h₁, rfl, hfound⟩ := runs_perform_bind_ok.mp hr
  cases found with
  | none => cases (runs_fail.mp hfound).2
  | some principal =>
    obtain ⟨read, h₂, h₃, rfl, hread, hrest⟩ := runs_bind_ok.mp hfound
    obtain ⟨u, h₄, h₅, rfl, hwrite, hdone⟩ := runs_bind_ok.mp hrest
    obtain ⟨-, hincident⟩ := runs_done.mp hdone
    cases hincident
    obtain ⟨hnameSpaces, hservice, row, hrow, hpayload⟩ := scopedIncident_returns hread
    obtain ⟨hsandbox, now, hnow, hvalid⟩ := authorize_returns hwrite
    exact ⟨principal, now, row, by simp, by simp [hnow], by simp [hrow], hpayload, hsandbox, hservice,
      hnameSpaces, hvalid⟩

/-- The parts of a completed publication: authority, then the report is saved. -/
theorem publish_returns {mode : OperationMode} {incident : Incident} {found : Option IncidentReport}
    {h : History Host} {u : Unit} (hr : Runs (publish mode incident found) h (.ok u)) :
    ∃ report checked saved h₁ h₂, h = h₁ ++ h₂ ∧ report.incidentId = incident.incidentId ∧
      report.mode = mode.report ∧ Authority incident.incidentId checked h₁ ∧
      Runs (IncidentStore.saveReport report) h₂ (.ok saved) ∧
      ∃ r, saved.report = some r ∧ r.mode = mode.report := by
  obtain ⟨report, hscope, hrest⟩ := runs_ofResult_bind_ok.mp hr
  obtain ⟨checked, h₁, h₂, rfl, hauthorized, hpublish⟩ := runs_bind_ok.mp hrest
  obtain ⟨saved, h₃, h₄, rfl, hsave, hlast⟩ := runs_bind_ok.mp hpublish
  obtain ⟨rfl, hmode⟩ := runs_raiseIf_ok.mp hlast
  have hreport : report.incidentId = incident.incidentId ∧ report.mode = mode.report := by
    cases found with
    | none => cases hscope
    | some r =>
      unfold reportScope at hscope
      dsimp only at hscope
      split_ifs at hscope with hbad
      cases hscope
      exact not_or.mp hbad |>.imp not_not.mp not_not.mp
  rw [List.append_nil]
  refine ⟨report, checked, saved, h₁, h₃, rfl, hreport.1, hreport.2, authorized_returns hauthorized,
    hsave, ?_⟩
  cases hr' : saved.report with
  | none => simp [hr'] at hmode
  | some r => exact ⟨r, rfl, by simpa [hr'] using hmode⟩

end Returns

/-- **What a completed processing has asked for**: its authority over the incident of the message was
valid after the investigation, and then the report was saved. -/
theorem process_returns {mode : OperationMode} {data : Message} {h : History Host} {u : Unit}
    (hr : Runs (process mode data) h (.ok u)) :
    ∃ incidentId incident row report checked saved h₁ h₂ h₃, h = h₁ ++ (h₂ ++ h₃) ∧
      Requests.validate data = .ok incidentId ∧
      ⟨.getRow incidentId.val, .ok (some row)⟩ ∈ h₁ ∧ row.payload = incident ∧
      report.incidentId = incident.incidentId ∧ report.mode = mode.report ∧
      (∀ ev ∈ h₂ ++ h₃, Saving ev.effect) ∧ Authority incident.incidentId checked h₂ ∧
      Runs (IncidentStore.saveReport report) h₃ (.ok saved) ∧
      ∃ r, saved.report = some r ∧ r.mode = mode.report := by
  obtain ⟨-, hvalidate⟩ := runs_raiseIf_bind_ok.mp hr
  obtain ⟨incidentId, hdata, hfirst⟩ := runs_ofResult_bind_ok.mp hvalidate
  obtain ⟨incident, g₁, g₂, rfl, hauthorized, hrest⟩ := runs_bind_ok.mp hfirst
  have hpublish : ∃ found g g', g₂ = g ++ g' ∧ Runs (publish mode incident found) g' (.ok u) := by
    cases hreport : incident.report with
    | some report =>
      rw [hreport] at hrest
      exact ⟨some report, [], g₂, rfl, hrest⟩
    | none =>
      rw [hreport] at hrest
      obtain ⟨found, g, g', rfl, -, hlast⟩ := runs_bind_ok.mp hrest
      exact ⟨found, g, g', rfl, hlast⟩
  obtain ⟨found, g, g', rfl, hpublished⟩ := hpublish
  have hsaving := ((publish_saving mode incident found).path hpublished).1
  obtain ⟨report, checked, saved, h₂, h₃, rfl, hid, hmode, hauthority, hsave, hsaved⟩ :=
    publish_returns hpublished
  obtain ⟨-, -, row, -, -, hrow, hpayload, -⟩ := authorized_returns hauthorized
  exact ⟨incidentId, incident, row, report, checked, saved, g₁ ++ g, h₂, h₃,
    (List.append_assoc ..).symm, hdata, List.mem_append_left _ hrow, hpayload, hid, hmode, hsaving,
    hauthority, hsave, hsaved⟩

end PubSubIncidentWorker

/-! ### Deliveries in a run -/

section Reached

open PubSubIncidentWorker

variable {c : Config Host Rows Reply}

/-- What a delivery has published when its processing has ended. -/
theorem published (h : Reached c) {i : ℕ} {mode : OperationMode} {data : Message} {u : Unit}
    (hprocess : Runs (process mode data) (c.trace.own i) (.ok u)) :
    ∃ incidentId row report, Requests.validate data = .ok incidentId ∧ row ∈ c.shared ∧
      row.incidentId = incidentId.val ∧ row.payload.report = some report ∧
      report.incidentId = incidentId ∧ report.mode = mode.report ∧
      ∃ checked h₁ h₂ h₃, c.trace.own i = h₁ ++ (h₂ ++ h₃) ∧ Authority incidentId checked h₂ ∧
        ∀ ev ∈ h₂ ++ h₃, Saving ev.effect := by
  have ha := reached_account h
  obtain ⟨incidentId, incident, read, report, checked, saved, h₁, h₂, h₃, hown, hdata, hread,
    hpayload, hid, -, hsaving, hauthority, hsave, r, hr, hmode⟩ := process_returns hprocess
  have traced : ∀ {ev}, ev ∈ h₁ ++ (h₂ ++ h₃) → (i, ev) ∈ c.trace := fun hev =>
    mem_own.mp (hown ▸ hev)
  have hreadAt := traced (List.mem_append_left _ hread)
  obtain ⟨now, hnow, hon⟩ := ha.seen _ hreadAt read rfl
  -- The incident that was read is the one the message refers to.
  have hincident : incident.incidentId = incidentId := by
    apply Subtype.ext
    rw [← hpayload, ha.shown_own hnow hon, ha.got i _ read hreadAt]
  obtain ⟨hreport, hstored⟩ := save_returns hsave
  have hrow : ∃ row ∈ c.shared, row.incidentId = report.incidentId.val ∧ row.payload = saved := by
    rcases hstored with ⟨row, hrow, rfl⟩ | ⟨old, hcommit⟩
    · have hrowAt := traced (List.mem_append_right h₁ (List.mem_append_right h₂ hrow))
      obtain ⟨later, hmem, hlater⟩ := ha.seen _ hrowAt row rfl
      exact ⟨later, hmem, hlater.incidentId.trans (ha.got i _ row hrowAt), hlater.payload hr⟩
    · exact (ha.committed i _ old saved
        (traced (List.mem_append_right h₁ (List.mem_append_right h₂ hcommit)))).2
  obtain ⟨row, hmem, hrowId, rfl⟩ := hrow
  have hreportId : report.incidentId = incidentId := hid.trans hincident
  refine ⟨incidentId, row, r, hdata, hmem, hrowId.trans (by rw [hreportId]), hr, ?_, hmode, checked,
    h₁, h₂, h₃, hown, hincident ▸ hauthority, hsaving⟩
  apply Subtype.ext
  rw [row.payload.scope r hr, ha.sound.own row hmem, hrowId, hreportId]

/-- **A message is acknowledged after its report is published**, whatever the order of the deliveries,
whatever the investigator does and whoever crashes.

When a delivery is acknowledged, the table holds a report of the incident of its message, with the
mode of the worker, and the authority of the worker over that incident was found valid by requests
after which it asked nothing more of the investigator. A delivery whose processing raised asks for
its negative acknowledgement, and for nothing else. For an incident a report is stored at most once.
-/
theorem acked_published (h : Reached c) :
    (∀ c' i mode data q alive r, c.calls[i]? = some ⟨handleCall mode data, q, alive⟩ →
      Step Environment StoreCall c c' → c'.trace = c.trace ++ [(i, ⟨.ack, r⟩)] →
      ∃ incidentId row report, Requests.validate data = .ok incidentId ∧ row ∈ c.shared ∧
        row.incidentId = incidentId.val ∧ row.payload.report = some report ∧
        report.incidentId = incidentId ∧ report.mode = mode.report ∧
        ∃ checked h₁ h₂ h₃, c.trace.own i = h₁ ++ (h₂ ++ h₃) ∧ Authority incidentId checked h₂ ∧
          ∀ ev ∈ h₂ ++ h₃, Saving ev.effect) ∧
    (∀ (i : ℕ) mode data q alive h₁ h₂ x, c.calls[i]? = some ⟨handleCall mode data, q, alive⟩ →
      c.trace.own i = h₁ ++ h₂ → Runs (process mode data) h₁ (.error x) →
      (h₂ = [] ∧ ∃ k, q = .call .nack k) ∨ ∃ r, h₂ = [⟨.nack, r⟩]) ∧
    (∀ a ∈ c.shared, ∀ b ∈ c.shared, a.incidentId = b.incidentId → a = b) ∧
    (∀ row ∈ c.shared, row.payload.report ≠ none → ∃ (i : ℕ) (old : Incident),
      (i, ⟨.updateRow row.incidentId old row.payload, .ok true⟩) ∈ c.trace) ∧
    ∀ incidentId, (c.trace.countP fun x => commits incidentId x.2) ≤ 1 := by
  have ha := reached_account h
  refine ⟨?_, ?_, ha.sound.ids, ha.origin, ha.once⟩
  · intro c' i mode data q alive r hcall hstep htrace
    -- The delivery as it is after the acknowledgement.
    have h' : Reached c' := h.tail hstep
    have hmem : (i, (⟨.ack, r⟩ : Event Host)) ∈ c'.trace := by simp [htrace]
    obtain ⟨cl, hcl, -, hpath⟩ := Reachable.own_call h' hmem
    have hprogram : cl.program = handleCall mode data := by
      obtain ⟨cl', hcl', heq⟩ := hstep.program hcall
      rw [hcl'] at hcl
      cases hcl
      exact heq
    rw [hprogram, htrace, own_append_self] at hpath
    have hlast : (⟨.ack, r⟩ : Event Host) ∈ Trace.own c.trace i ++ [⟨.ack, r⟩] := by simp
    obtain ⟨out, h₁, hown, hprocess, hsettled⟩ := handle_settled hpath hlast fun hp => hp
    obtain ⟨rfl, -⟩ := List.append_inj' hown rfl
    cases out with
    | error x => cases hsettled
    | ok u => exact published h hprocess
  · intro i mode data q alive h₁ h₂ x hcall hown hraised
    exact handle_raised (hown ▸ (Reachable.wellTraced h).path i _ hcall) hraised

end Reached

end PayOps.Memory

namespace PayOps.Memory

open Process Program

attribute [local instance] storePlatform storeRequests

/-- The event acknowledges a message. -/
def acks : Event Host → Bool
  | ⟨.ack, _⟩ => true
  | _ => false

/-- An incident is created, and its message is delivered twice. -/
def sampleQueue : Config Host Rows Reply :=
  let call (c : Config Host Rows Reply) p := c.ran storeHandler p
  call (call (call ⟨[], [], []⟩ (createCall (sampleAsked sampleTitle) (some "key")))
    (handleCall .fixtureReplay ⟨1, none⟩)) (handleCall .fixtureReplay ⟨1, none⟩)

theorem sampleQueue_reached : Reached sampleQueue :=
  ((Reachable.call .refl storeHandler_answers (.create ..)).call storeHandler_answers
    (.handle ..)).call storeHandler_answers (.handle ..)

/-- In that run the message is acknowledged twice, and its report is stored once. -/
theorem acked_published_sample : (sampleQueue.trace.countP fun x => acks x.2) = 2 ∧
    (sampleQueue.trace.countP fun x => commits "inc-1" x.2) = 1 := by
  have hacks : (sampleQueue.trace.countP fun x => acks x.2) = 2 := by decide +kernel
  obtain ⟨-, -, -, horigin, honce⟩ := acked_published sampleQueue_reached
  have hrow : ∃ row ∈ sampleQueue.shared, row.incidentId = "inc-1" ∧ row.payload.report ≠ none := by
    decide +kernel
  obtain ⟨row, hmem, hid, hreport⟩ := hrow
  obtain ⟨i, old, hcommit⟩ := horigin row hmem hreport
  refine ⟨hacks, le_antisymm (honce "inc-1") (List.countP_pos_iff.mpr ⟨_, hcommit, ?_⟩)⟩
  exact commits_iff.mpr ⟨old, row.payload, by rw [hid]⟩

end PayOps.Memory
