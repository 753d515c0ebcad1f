import PayOps.Process.Prompt
import PayOps.Remediation.AtMostOnce

/-!
# What becomes of a claim

After the claim of an `execute` has committed, its record is `EXECUTING`. `_dispatch` is to lead it
to a terminal state, however the identities are refreshed and whatever the backend does.

## The model

The store stays available: its clock is read, and the transaction that settles the execution fails
only as the tables make it fail. Nothing is assumed of other workers, of the identities, of the
broker's clock and of the backend, nor of the transactions of other actions.

## What is proved

* `claim_settled` — **a call that has ended has settled its claim exactly if what was raised by an
  identity or by the clock, after the claim, was a denial**.
* `stranded_claim` — an identity provider that is not reachable leaves the record `EXECUTING`.
-/

namespace PayOps.Remediation

open Policy Process Program

variable [Platform]

/-! ### The store -/

/-- The store is there for the executions of an action. -/
def Upright (key : String) (t : Tables) : (e : Effect) → Except Fault e.Reply → Prop
  | .utcNow, .error _ => False
  | .update before written actor reason, .error _ =>
    before.actionId.val = key → before.state = .executing → ∀ t', t.update before written actor reason ≠ .ok t'
  | _, _ => True

/-- An environment whose store stays available. -/
def Available (key : String) : Machine Worker Tables :=
  ⟨fun t e r t' => answer t e r t' ∧ Upright key t e r⟩

theorem Available.reached {key : String} {c : Workers} (h : Reachable (Available key) Start Tables.empty c) :
    Reached c := Reachable.weaken h fun _ _ _ _ ha => ha.1

/-! ### What the authority of a dispatch raises -/

/-- The request is for an identity, or for the broker's clock. -/
def OfAuthority : Effect → Prop
  | .principal _ => True
  | .clock => True
  | _ => False

/-- `except PermissionError` catches it. -/
def Denial : Fault → Prop
  | .permission _ => True
  | _ => False

theorem identity_prompt (subject : String) (role : Role) (nameSpace : Identifier) :
    Prompt OfAuthority Denial (identity subject role nameSpace) := by
  have hask : Prompt OfAuthority Denial (ask (.principal subject)) := prompt_perform trivial
  have hclock : Prompt OfAuthority Denial (ask .clock) := prompt_perform trivial
  refine hask.bind fun principal => hclock.bind fun now => ?_
  cases principal with
  | none => trivial
  | some p => exact (prompt_raiseIf trivial).bind fun _ => trivial

namespace RemediationBroker

theorem dispatchAuthority_prompt (record : ActionRecord) (approval : Approval) (subject : String)
    (deadline : Time) : Prompt OfAuthority Denial (dispatchAuthority record approval subject deadline) := by
  have hclock : Prompt OfAuthority Denial (ask .clock) := prompt_perform trivial
  have hcurrent : Prompt OfAuthority Denial (approvalCurrent approval) :=
    hclock.bind fun now => prompt_raiseIf trivial
  refine (identity_prompt ..).bind fun executor => (identity_prompt ..).bind fun approver =>
    (identity_prompt ..).bind fun responder => hclock.bind fun now => ?_
  exact (prompt_raiseIf trivial).bind fun _ => hcurrent.bind fun _ => hclock.bind fun last =>
    prompt_raiseIf trivial

variable {record claimed : ActionRecord} {approval : Approval} {subject : String} {deadline : Time}
  {h : History Worker}

/-- Where a dispatch was decided on, only denials were raised. -/
theorem authorized_decided {ok : Bool} (hr : Runs (authorized record approval subject deadline) h (.ok ok)) :
    ∀ ev ∈ h, ∀ x, ev.fault = some x → Denial x := by
  have hprompt : Prompt OfAuthority Denial
      ((dispatchAuthority record approval subject deadline).bind fun _ => .done true) :=
    (dispatchAuthority_prompt record approval subject deadline).bind fun _ => trivial
  rcases runs_tryCatch hr with ⟨a, -, hbody⟩ | ⟨x, h₁, h₂, rfl, hbody, hhandler⟩
  · intro ev hev x hx
    rw [hprompt.returned hbody ev hev] at hx
    cases hx
  · cases x with
    | permission reason =>
      obtain ⟨rfl, -⟩ := runs_done.mp hhandler
      intro ev hev y hy
      rw [(hprompt.raised hbody).1 ev (by simpa using hev) y hy]
      trivial
    | _ => cases (runs_fail.mp hhandler).2

/-- Where it was not decided on, something else was raised. -/
theorem authorized_raised {x : Fault} (hr : Runs (authorized record approval subject deadline) h (.error x)) :
    ∃ ev ∈ h, OfAuthority ev.effect ∧ ∃ y, ev.fault = some y ∧ ¬Denial y := by
  have hprompt : Prompt OfAuthority Denial
      ((dispatchAuthority record approval subject deadline).bind fun _ => .done true) :=
    (dispatchAuthority_prompt record approval subject deadline).bind fun _ => trivial
  rcases runs_tryCatch hr with ⟨a, ha, -⟩ | ⟨y, h₁, h₂, rfl, hbody, hhandler⟩
  · cases ha
  · have hother : ¬Denial y := by
      cases y with
      | permission reason => cases (runs_done.mp hhandler).2
      | _ => exact id
    obtain ⟨ev, hev, hauthority, hfault⟩ := (hprompt.raised hbody).2.resolve_left hother
    exact ⟨ev, List.mem_append_left _ hev, hauthority, y, hfault, hother⟩

end RemediationBroker

/-! ### Paths of a transition -/

section Transition

variable {before : ActionRecord} {state : ActionState} {actor reason : String} {approval : Option Approval}
  {result : Option EffectReceipt} {h : History Worker} {q : Program Worker ActionRecord}

/-- A transition comes to its update, or it does not: it is at its clock or its update, or it has raised. -/
theorem transition_cases (hpath : Path (ActionStore.transition before state actor reason approval result) h q) :
    (∃ now written r, written.toActionFields = ActionStore.after before state now approval result ∧
      h = [⟨Effect.utcNow, .ok now⟩, ⟨Effect.update before written actor reason, r⟩] ∧
        q = ofResult (r.map fun _ => written)) ∨
    ((∀ ev ∈ h, ev.effect = .utcNow) ∧ ∀ r, q = ofResult r →
      state ∉ TRANSITIONS before.state ∨ (∃ x, ⟨Effect.utcNow, .error x⟩ ∈ h) ∨
        ∃ now message, (ActionStore.after before state now approval result).validate = .error message) := by
  rcases path_raiseIf_bind.mp hpath with ⟨hstate, rfl, -⟩ | ⟨hstate, hpath⟩
  · exact .inr ⟨by simp, fun _ _ => .inl hstate⟩
  rcases path_call.mp hpath with ⟨rfl, rfl⟩ | ⟨r, h', rfl, hrest⟩
  · exact .inr ⟨by simp, fun r hr => by cases r <;> cases hr⟩
  cases r with
  | error x =>
    obtain ⟨rfl, rfl⟩ := path_fail.mp hrest
    exact .inr ⟨by simp, fun _ _ => .inr (.inl ⟨x, List.mem_singleton.mpr rfl⟩)⟩
  | ok now =>
    simp only [done_bind] at hrest
    cases hvalid : (ActionStore.after before state now approval result).validate with
    | error message =>
      rw [hvalid] at hrest
      obtain ⟨rfl, rfl⟩ := path_fail.mp hrest
      exact .inr ⟨by simp, fun _ _ => .inr (.inr ⟨now, message, hvalid⟩)⟩
    | ok written =>
      rw [hvalid] at hrest
      rcases path_call.mp hrest with ⟨rfl, rfl⟩ | ⟨r, h'', rfl, hend⟩
      · exact .inr ⟨by simp, fun r hr => by cases r <;> cases hr⟩
      · refine .inl ⟨now, written, r, ActionFields.validate_eq_ok.mp hvalid, ?_, ?_⟩
        · cases r with
          | ok u => rw [(path_done.mp hend).1]
          | error x => rw [(path_fail.mp hend).1]
        · cases r with
          | ok u => rw [(path_done.mp hend).2]; rfl
          | error x => rw [(path_fail.mp hend).2]; rfl

/-- A transition whose update was granted has run. -/
theorem transition_granted (hpath : Path (ActionStore.transition before state actor reason approval result) h q)
    {before' written : ActionRecord} {actor' reason' : String}
    (hev : ⟨Effect.update before' written actor' reason', .ok ()⟩ ∈ h) :
    q = .done written ∧ ∃ now, h = [⟨.utcNow, .ok now⟩, ⟨.update before written actor reason, .ok ()⟩] ∧
      written.toActionFields = ActionStore.after before state now approval result := by
  rcases transition_cases hpath with ⟨now, w, r, hw, rfl, rfl⟩ | ⟨hclock, -⟩
  · simp only [List.mem_cons, List.not_mem_nil, or_false] at hev
    rcases hev with hev | hev
    · cases hev
    · cases hev
      exact ⟨rfl, now, rfl, hw⟩
  · cases hclock _ hev

end Transition

/-! ### The claim of a call -/

namespace RemediationBroker

/-- Until its claim a call of `execute` is idle. -/
theorem execute_claim {broker : RemediationBroker} {actionId subject : String} {h : History Worker}
    {q : Program Worker ActionRecord} (hpath : Path (broker.execute actionId subject) h q)
    {before written : ActionRecord} {actor reason : String}
    (hev : ⟨Effect.update before written actor reason, .ok ()⟩ ∈ h) :
    ∃ record claimed deadline now g₁ g₂,
      broker.Dispatched actionId subject record claimed deadline now g₁ g₂ q ∧
        h = g₁ ++ (claimEvents record claimed subject now ++ g₂) := by
  have hout : ¬Idle (Effect.update before written actor reason) := id
  obtain ⟨record, h₁, r₁, rfl, hget, hpath₁, hev₁⟩ := (get_idle actionId).past hpath hev hout
  obtain ⟨principal, h₂, r₂, rfl, hidentity, hpath₂, hev₂⟩ := (identity_idle ..).past hpath₁ hev₁ hout
  rcases path_raiseIf_bind.mp hpath₂ with ⟨-, rfl, -⟩ | ⟨hmode, hpath₃⟩
  · cases hev₂
  split_ifs at hpath₃ with hstate
  · obtain ⟨rfl, -⟩ := path_done.mp hpath₃
    cases hev₂
  obtain ⟨deadline, h₃, r₄, rfl, hadmit, hpath₄, hev₄⟩ := (broker.precheck_idle record).past hpath₃ hev₂ hout
  have hadmitted : broker.Admitted actionId subject record deadline (h₁ ++ (h₂ ++ h₃)) :=
    ⟨not_not.mp hmode, h₁, h₂, h₃, principal, rfl, hget, hidentity, hadmit⟩
  have hclaim : ∃ claimed now g₂, r₄ = claimEvents record claimed subject now ++ g₂ ∧
      claimed.toActionFields = ActionStore.after record .executing now none none ∧
      .executing ∈ TRANSITIONS record.state ∧ Path (dispatch claimed subject deadline) g₂ q := by
    rcases path_bind.mp hpath₄ with ⟨p', hp', rfl⟩ | ⟨claimed, h₄, g₂, rfl, htransition, hdispatch⟩
    · obtain ⟨rfl, now, rfl, hw⟩ := transition_granted hp' hev₄
      have hrun : Runs (ActionStore.transition record .executing subject "DISPATCH") _ (.ok written) := hp'
      exact ⟨written, now, [], rfl, hw, (ActionStore.transition_ok hrun).choose_spec.2.1, .refl⟩
    · obtain ⟨now, rfl, ht, hw⟩ := ActionStore.transition_ok htransition
      exact ⟨claimed, now, g₂, rfl, hw, ht, hdispatch⟩
  obtain ⟨claimed, now, g₂, rfl, hw, ht, hdispatch⟩ := hclaim
  exact ⟨record, claimed, deadline, now, _, g₂, ⟨hadmitted, ht, hw, hdispatch⟩, by simp⟩

end RemediationBroker

/-! ### The row of an action -/

section Rows

variable {c : Workers} {i : ℕ} {before written : ActionRecord} {actor reason : String}

/-- What was committed is the row, or the row is at a later stage. -/
theorem committed_row (h : Reached c)
    (hev : (i, ⟨Effect.update before written actor reason, .ok ()⟩) ∈ c.trace) :
    ∃ row, c.shared.actions written.actionId.val = some row ∧ written.state.stage ≤ row.state.stage ∧
      (row.state.stage = written.state.stage → row = written) := by
  have hp := commits_proper h
  have hwritten := (commits_written h).1
  obtain ⟨event, hcommit⟩ := update_committed h hev
  have hmem : (⟨.swap before.actionId.val before written, event⟩ : Commit) ∈ commits c.trace :=
    List.mem_filterMap.mpr ⟨_, hev, hcommit⟩
  have hid : before.actionId = written.actionId := ((hp _ hmem).swap _ _ _ rfl).actionId.symm
  have hversion : written ∈ versions written.actionId.val ((commits c.trace).map Commit.write) :=
    mem_versions.mpr ⟨_, List.mem_map_of_mem hmem, by rw [← hid]; rfl, rfl⟩
  have hrank := hwritten.rank_versions (fun r => r.state.stage)
    (fun k v hm => by
      obtain ⟨x, hx, hw⟩ := List.mem_map.mp hm
      rw [((hp x hx).insert k v hw).1]
      rfl)
    (fun k old new hm => by
      obtain ⟨x, hx, hw⟩ := List.mem_map.mp hm
      exact stage_transition ((hp x hx).swap k old new hw).transition) written.actionId.val
  have hlast := hwritten.getLast?_versions written.actionId.val
  generalize versions written.actionId.val ((commits c.trace).map Commit.write) = vs at hversion hrank hlast
  rcases List.eq_nil_or_concat' vs with rfl | ⟨vs, row, rfl⟩
  · cases hversion
  rw [List.getLast?_concat] at hlast
  rw [List.map_append, List.length_append, List.length_singleton, List.range_succ] at hrank
  obtain ⟨hearlier, hstage⟩ := List.append_inj' hrank rfl
  have hstage : row.state.stage = vs.length := List.singleton_inj.mp hstage
  refine ⟨row, hlast.symm, ?_⟩
  rcases List.mem_append.mp hversion with hold | hlatest
  · have hlt : written.state.stage < vs.length := by
      rw [← List.mem_range, ← hearlier]
      exact List.mem_map_of_mem hold
    omega
  · rw [List.mem_singleton.mp hlatest]
    simp

/-- Why a call writes says what it writes. -/
def Stated : Effect → Prop
  | .update _ written _ reason =>
    (reason = "HUMAN_APPROVED" → written.state = .approved) ∧ (reason = "DISPATCH" → written.state = .executing)
  | _ => True

theorem Idle.stated {e : Effect} (h : Idle e) : Stated e := by
  cases e with
  | update => exact h.elim
  | _ => trivial

theorem transition_stated {record : ActionRecord} {state : ActionState} {subject why : String}
    {approval : Option Approval} {result : Option EffectReceipt}
    (happroved : why = "HUMAN_APPROVED" → state = .approved)
    (hdispatch : why = "DISPATCH" → state = .executing) :
    Within Stated (ActionStore.transition record state subject why approval result) :=
  ActionStore.transition_within _ trivial fun now written _ hw => by
    have hstate : written.state = state := by rw [hw]; rfl
    rw [Stated, hstate]
    exact ⟨happroved, hdispatch⟩

/-- A call says why it writes. -/
theorem start_stated {p : Program Worker ActionRecord} (hp : Start p) : Within Stated p := by
  have hidle : ∀ e, Idle e → Stated e := fun _ => Idle.stated
  cases hp with
  | propose broker value subject => exact broker.propose_within hidle value subject fun _ _ _ => trivial
  | approve broker actionId subject =>
    have hclock : Within Stated (ask .clock) := within_perform.mpr trivial
    refine ((get_idle actionId).mono hidle).bind fun record =>
      ((identity_idle ..).mono hidle).bind fun _ => within_raiseIf.bind fun _ => ?_
    refine ((broker.review_idle _ _).mono hidle).bind fun deadline =>
      ((identity_idle ..).mono hidle).bind fun _ => hclock.bind fun now => within_raiseIf.bind fun _ => ?_
    split
    · trivial
    · exact transition_stated (fun _ => rfl) (fun h => absurd h (by decide))
  | execute broker actionId subject =>
    refine ((get_idle actionId).mono hidle).bind fun record =>
      ((identity_idle ..).mono hidle).bind fun _ => within_raiseIf.bind fun _ => ?_
    split_ifs
    · trivial
    · refine ((broker.precheck_idle record).mono hidle).bind fun deadline => ?_
      refine (transition_stated (fun h => absurd h (by decide)) (fun _ => rfl)).bind fun claimed => ?_
      unfold RemediationBroker.dispatch
      split
      · trivial
      · refine ((RemediationBroker.authorized_idle ..).mono hidle).bind fun ok => ?_
        have hinvoke : Within Stated (RemediationBroker.invoke claimed) := by
          rw [RemediationBroker.invoke_eq]
          exact ⟨trivial, fun _ => trivial⟩
        split_ifs
        · refine hinvoke.bind fun receipt => ?_
          cases receipt <;>
            exact transition_stated (fun h => absurd h (by decide)) (fun h => absurd h (by decide))
        · exact transition_stated (fun h => absurd h (by decide)) (fun h => absurd h (by decide))

/-- A claim claims. -/
theorem dispatch_claims (h : Reached c) {record claimed : ActionRecord} {subject : String}
    (hclaim : (i, ⟨Effect.update record claimed subject "DISPATCH", .ok ()⟩) ∈ c.trace) :
    claimed.state = .executing ∧
      claims claimed.actionId.val ⟨.update record claimed subject "DISPATCH", .ok ()⟩ = true := by
  have hproper : Successor record claimed := Reachable.within h (fun _ hp => start_proper hp) hclaim
  have hstated : Stated (.update record claimed subject "DISPATCH") :=
    Reachable.within h (fun _ hp => start_stated hp) hclaim
  have hstate := hstated.2 rfl
  have hbefore : record.state = .approved := by
    have ht := hproper.transition
    rw [hstate] at ht
    revert ht
    cases record.state <;> simp [TRANSITIONS]
  exact ⟨hstate, claims_iff.mpr ⟨_, _, _, _, rfl, by rw [hproper.actionId], hbefore, hstate⟩⟩

/-- **The call that settles an action is the one that claimed it.** -/
theorem settles_claimed (h : Reached c) {record claimed : ActionRecord} {subject : String}
    (hclaim : (i, ⟨Effect.update record claimed subject "DISPATCH", .ok ()⟩) ∈ c.trace)
    {j : ℕ} (hev : (j, ⟨Effect.update before written actor reason, .ok ()⟩) ∈ c.trace)
    (hid : written.actionId = claimed.actionId) (hterminal : written.state.stage = 3) : j = i := by
  have hstated : Stated (.update before written actor reason) :=
    Reachable.within h (fun _ hp => start_stated hp) hev
  have hout : ¬PreClaim (.update before written actor reason) := by
    rintro (happroved | hdispatch)
    · rw [hstated.1 happroved] at hterminal
      cases hterminal
    · rw [hstated.2 hdispatch] at hterminal
      cases hterminal
  obtain ⟨p, q, hp, hpath⟩ := Reachable.own_path h hev
  obtain ⟨broker, actionId, subject', record', claimed', deadline, now, g₁, g₂, rfl, hd, hown, hmem⟩ :=
    past_claim hp hpath (mem_own.mpr hev) hout
  have hclaim' : (j, ⟨Effect.update record' claimed' subject' "DISPATCH", .ok ()⟩) ∈ c.trace :=
    mem_own.mp (by rw [hown]; simp [RemediationBroker.claimEvents])
  have hid' : claimed'.actionId.val = claimed.actionId.val := by
    rw [← (RemediationBroker.dispatch_update hd.path hmem).1, hid]
  exact claimant_unique h hclaim' hclaim (hid' ▸ hd.claims_claimEvent) (dispatch_claims h hclaim).2

/-- **A claimed record stays claimed until its own call settles it.** -/
theorem claimed_row (h : Reached c) {record claimed : ActionRecord} {subject : String}
    (hclaim : (i, ⟨Effect.update record claimed subject "DISPATCH", .ok ()⟩) ∈ c.trace)
    (hnone : ∀ before written actor reason,
      (i, ⟨Effect.update before written actor reason, .ok ()⟩) ∈ c.trace → written.state.stage ≠ 3) :
    c.shared.actions claimed.actionId.val = some claimed := by
  have hstage : claimed.state.stage = 2 := by rw [(dispatch_claims h hclaim).1]; rfl
  obtain ⟨row, hrow, hle, heq⟩ := committed_row h hclaim
  rw [hrow, heq]
  have htop : row.state.stage ≤ 3 := by cases row.state <;> decide
  have hsettled : row.state.stage ≠ 3 := by
    intro hthree
    have hversion : row ∈ versions claimed.actionId.val ((commits c.trace).map Commit.write) :=
      List.mem_of_getLast? (((commits_written h).1.getLast?_versions _).trans hrow)
    obtain ⟨w, hw, hkey, hvalue⟩ := mem_versions.mp hversion
    obtain ⟨x, hx, rfl⟩ := List.mem_map.mp hw
    have hproper := commits_proper h x hx
    have hid : row.actionId = claimed.actionId := by
      rw [hproper.key, hvalue] at hkey
      exact Subtype.ext hkey
    obtain ⟨⟨j, ev⟩, hev, hcommit⟩ := List.mem_filterMap.mp hx
    rcases commitOf_eq_some hcommit with ⟨r, a, why, rfl, hwrite, -⟩ | ⟨before, r, a, why, rfl, hwrite, -⟩
    · rw [← hvalue, hwrite, Write.value, (hproper.insert _ _ hwrite).1] at hthree
      cases hthree
    · obtain rfl : r = row := by rw [← hvalue, hwrite]; rfl
      obtain rfl := settles_claimed h hclaim hev hid hthree
      exact hnone _ _ _ _ hev hthree
  omega

/-- **What is next to a row is committed**, if its event is one. -/
theorem update_granted (h : Reached c) {row next : ActionRecord} {event : AuditEvent}
    (hrow : c.shared.actions row.actionId.val = some row) (hid : next.actionId = row.actionId)
    (hrevision : next.revision = row.revision + 1)
    (hevent : Tables.auditEvent next actor reason = .ok event) :
    ∃ t, c.shared.update row next actor reason = .ok t := by
  have hfresh : c.shared.audited event = false := by
    obtain ⟨hid', hrevision', -, -, -⟩ := auditEvent_eq_ok hevent
    by_contra hheld
    obtain ⟨old, hold, heq⟩ := List.any_eq_true.mp (Bool.not_eq_false _ ▸ hheld)
    simp only [Bool.and_eq_true, beq_iff_eq] at heq
    have hmem : old ∈ c.shared.auditOf row.actionId.val := by
      refine (List.mem_insertionSort _).mpr (List.mem_filter.mpr ⟨hold, ?_⟩)
      rw [heq.1, hid', hid, beq_self_eq_true]
    have hrange := List.mem_map_of_mem (f := AuditEvent.revision) hmem
    rw [(reachable_audited h hrow).revisions, List.mem_range] at hrange
    omega
  refine ⟨c.shared.publish row.actionId.val next event, ?_⟩
  unfold Tables.update
  rw [if_neg (not_not_intro hrow), hevent]
  simp only [hfresh]
  rfl

end Rows

/-! ### What a dispatch writes -/

section Dispatches

variable {record claimed : ActionRecord} {subject : String} {deadline : Time} {h : History Worker}

/-- A state and a receipt that settle an execution. -/
def Settles (claimed : ActionRecord) (state : ActionState) (result : Option EffectReceipt) : Prop :=
  state = .unknown ∧ result = none ∨
    ∃ receipt, result = some receipt ∧ receipt.outcome.state = state ∧ receipt.matches claimed.proposal

/-- What settles an execution is a valid record. -/
theorem settlement_valid (hclaimed : claimed.state = .executing) {state : ActionState}
    {result : Option EffectReceipt}
    (hresult : Settles claimed state result) (now : Time) :
    ∃ written, (ActionStore.after claimed state now none result).validate = .ok written := by
  obtain ⟨hid, happroval, hbound, -⟩ := claimed.checks
  have hnew : state ≠ .proposed := by
    rcases hresult with ⟨rfl, -⟩ | ⟨receipt, -, rfl, -⟩
    · decide
    · cases receipt.outcome <;> decide
  have happroved : claimed.approval ≠ none := fun hnone => by
    rw [happroval.mpr hnone] at hclaimed
    cases hclaimed
  have hdigest : ¬(ActionStore.after claimed state now none result).actionId.val ≠
      actionDigest (ActionStore.after claimed state now none result).proposal := not_not_intro hid
  have hstates : ¬¬((ActionStore.after claimed state now none result).state = .proposed ↔
      (ActionStore.after claimed state now none result).approval = none) :=
    not_not_intro ⟨fun h => absurd h hnew, fun h => absurd h happroved⟩
  have happroval : (ActionStore.after claimed state now none result).approval.bind
      (ActionStore.after claimed state now none result).approvalFailure = none := hbound
  have hreceipt : (ActionStore.after claimed state now none result).resultFailure = none := by
    rcases hresult with ⟨rfl, rfl⟩ | ⟨receipt, rfl, rfl, hmatches⟩
    · simp [ActionFields.resultFailure, ActionStore.after]
    · have hend : receipt.outcome.state = .succeeded ∨ receipt.outcome.state = .failed := by
        cases receipt.outcome <;> simp [Outcome.state]
      simp [ActionFields.resultFailure, ActionStore.after, hend, hmatches]
  have hconsistent : (ActionStore.after claimed state now none result).failure = none := by
    unfold ActionFields.failure
    rw [if_neg hdigest, if_neg hstates, happroval, hreceipt]
    rfl
  exact ⟨⟨_, hconsistent⟩, ActionFields.validate_eq_ok.mpr rfl⟩

theorem Settles.terminal {state : ActionState} {result : Option EffectReceipt} (h : Settles claimed state result) :
    state ∈ TRANSITIONS .executing ∧ state.stage = 3 := by
  rcases h with ⟨rfl, -⟩ | ⟨receipt, -, rfl, -⟩
  · exact ⟨by decide, rfl⟩
  · cases receipt.outcome <;> exact ⟨by decide, rfl⟩

/-- The state that a receipt leads to. -/
def settledState : Option EffectReceipt → ActionState
  | none => .unknown
  | some result => result.outcome.state

namespace RemediationBroker

/-- **Runs of a dispatch**: it raised, and did nothing; it was denied; or the effect was invoked. -/
theorem dispatch_runs {r : Except Fault ActionRecord} {approval : Approval}
    (happroval : claimed.approval = some approval) (hr : Runs (dispatch claimed subject deadline) h r) :
    (∃ x, Runs (authorized claimed approval subject deadline) h (.error x)) ∨
    (∃ h₁ h₂, h = h₁ ++ h₂ ∧ Runs (authorized claimed approval subject deadline) h₁ (.ok false) ∧
      Runs (ActionStore.transition claimed .failed subject "DISPATCH_AUTHORITY_DENIED" none
        (some (deniedReceipt claimed))) h₂ r) ∨
    ∃ h₁ answer h₂, h = h₁ ++ ⟨Effect.execute claimed.proposal claimed.actionId.val, answer⟩ :: h₂ ∧
      Runs (authorized claimed approval subject deadline) h₁ (.ok true) ∧
      Runs (settle claimed subject (receipt claimed answer)) h₂ r := by
  unfold dispatch at hr
  rw [happroval] at hr
  rcases runs_bind.mp hr with ⟨x, -, hraised⟩ | ⟨ok, h₁, h₂, rfl, hok, hrest⟩
  · exact .inl ⟨x, hraised⟩
  · cases ok with
    | false => exact .inr (.inl ⟨h₁, h₂, rfl, hok, hrest⟩)
    | true =>
      simp only [if_true, invoke_eq] at hrest
      rcases path_call.mp hrest with ⟨-, hq⟩ | ⟨answer, h₃, rfl, hsettle⟩
      · cases r <;> cases hq
      · refine .inr (.inr ⟨h₁, answer, h₃, rfl, hok, ?_⟩)
        simp only [done_bind] at hsettle
        unfold settle
        cases hreceipt : receipt claimed answer <;> rw [hreceipt] at hsettle <;> exact hsettle

end RemediationBroker

end Dispatches

/-! ### What becomes of a claim -/

section Claim

variable {key : String} {c : Workers} {i : ℕ} {record claimed : ActionRecord} {subject reason : String}
  {state : ActionState} {result : Option EffectReceipt} {r : Except Fault ActionRecord}

/-- The clock of the store is read. -/
theorem utcNow_read (h : Reachable (Available key) Start Tables.empty c) (x : Fault) :
    (i, ⟨Effect.utcNow, .error x⟩) ∉ c.trace := by
  refine Reachable.invariant (fun _ tr => (i, ⟨Effect.utcNow, .error x⟩) ∉ tr) h (by simp) ?_
  intro t tr j p e reply t' q hinv _ _ ha hmem
  rcases List.mem_append.mp hmem with hold | hnew
  · exact hinv hold
  · cases List.mem_singleton.mp hnew
    exact ha.2

/-- Who claimed can be audited again. -/
theorem claimant_event (h : Reached c)
    (hclaim : (i, ⟨Effect.update record claimed subject "DISPATCH", .ok ()⟩) ∈ c.trace)
    (hreason : (Identifier.validate reason).isSome = true) (next : ActionRecord) :
    ∃ event, Tables.auditEvent next subject reason = .ok event := by
  obtain ⟨event, hcommit⟩ := update_committed h hclaim
  rcases commitOf_eq_some hcommit with ⟨_, _, _, hev, -⟩ | ⟨_, _, _, _, hev, -, hevent⟩
  · cases hev
  cases hev
  have hactor := (auditEvent_eq_ok hevent).2.2.2.1
  obtain ⟨why, hwhy⟩ := Option.isSome_iff_exists.mp hreason
  refine ⟨⟨next.actionId, next.revision, next.state, event.actor, why, next.updatedAt⟩, ?_⟩
  unfold Tables.auditEvent
  rw [← hactor, Identifier.validate_val, hwhy]

/-- **A settlement that runs to its end has settled the record**, while the store is there. -/
theorem settlement_row (h : Reachable (Available key) Start Tables.empty c) {h₁ h₂ : History Worker}
    (hown : c.trace.own i = h₁ ++ h₂)
    (hclaim : ⟨Effect.update record claimed subject "DISPATCH", .ok ()⟩ ∈ h₁)
    (hfirst : ∀ before written actor why,
      ⟨Effect.update before written actor why, .ok ()⟩ ∈ h₁ → written.state.stage ≠ 3)
    (hkey : claimed.actionId.val = key) (hreason : (Identifier.validate reason).isSome = true)
    (hsettles : Settles claimed state result)
    (hruns : Runs (ActionStore.transition claimed state subject reason none result) h₂ r) :
    ∃ final, c.shared.actions key = some final ∧ final.state = state := by
  have hreached := Available.reached h
  have hexecuting := (dispatch_claims hreached (mem_own.mp (hown ▸ List.mem_append_left _ hclaim))).1
  rcases transition_cases hruns with ⟨now, written, reply, hw, rfl, -⟩ | ⟨-, hraised⟩
  · have hstate : written.state = state := by rw [hw]; rfl
    have hid : written.actionId = claimed.actionId := by rw [hw]; rfl
    cases reply with
    | ok u =>
      have hev : (i, ⟨Effect.update claimed written subject reason, .ok ()⟩) ∈ c.trace :=
        mem_own.mp (by rw [hown]; simp)
      obtain ⟨row, hrow, hle, heq⟩ := committed_row hreached hev
      have hthree := hsettles.terminal.2
      have htop : row.state.stage ≤ 3 := by cases row.state <;> decide
      rw [hid, hkey] at hrow
      rw [hstate] at hle heq
      exact ⟨row, hrow, by rw [heq (by omega), hstate]⟩
    | error x =>
      -- the tables would have granted the update
      have hsplit : c.trace.own i = (h₁ ++ [⟨.utcNow, .ok now⟩]) ++
          ⟨Effect.update claimed written subject reason, .error x⟩ :: [] := by
        rw [hown, List.append_assoc]
        rfl
      obtain ⟨tr₁, tr₂, htrace, hbefore⟩ := own_split hsplit
      obtain ⟨b, t', hb, rfl, -, ha⟩ := Reachable.before h htrace
      have hclaim' : (i, ⟨Effect.update record claimed subject "DISPATCH", .ok ()⟩) ∈ b.trace :=
        mem_own.mp (by rw [hbefore]; exact List.mem_append_left _ hclaim)
      have hrow := claimed_row (Available.reached hb) hclaim' fun before written actor why hev => by
        have hev' := mem_own.mpr hev
        rw [hbefore] at hev'
        rcases List.mem_append.mp hev' with hold | hnew
        · exact hfirst _ _ _ _ hold
        · cases List.mem_singleton.mp hnew
      obtain ⟨event, hevent⟩ := claimant_event (Available.reached hb) hclaim' hreason written
      obtain ⟨t, ht⟩ := update_granted (Available.reached hb) hrow hid (by rw [hw]; rfl) hevent
      exact absurd ht (ha.2 hkey hexecuting t)
  · rcases hraised r rfl with hstate | ⟨x, hx⟩ | ⟨now, message, hinvalid⟩
    · rw [hexecuting] at hstate
      exact absurd hsettles.terminal.1 hstate
    · exact absurd (mem_own.mp (hown ▸ List.mem_append_right _ hx)) (utcNow_read h x)
    · obtain ⟨written, hvalid⟩ := settlement_valid hexecuting hsettles now
      rw [hvalid] at hinvalid
      cases hinvalid

/-- The request is the update of a claim. -/
def claiming (ev : Event Worker) : Bool :=
  match ev.effect with
  | .update _ _ _ reason => reason == "DISPATCH"
  | _ => false

theorem claiming_idle {ev : Event Worker} (hev : Idle ev.effect) : claiming ev = false := by
  obtain ⟨e, r⟩ := ev
  cases e with
  | update => exact hev.elim
  | _ => rfl

omit [Platform] in
/-- Where there is one element of a kind, a list is split at it in one way. -/
theorem split_unique {α : Type} {p : α → Bool} {l₁ l₂ m₁ m₂ : List α} {a b : α}
    (heq : l₁ ++ a :: l₂ = m₁ ++ b :: m₂) (ha : p a = true) (hm₁ : ∀ x ∈ m₁, p x = false)
    (hm₂ : ∀ x ∈ m₂, p x = false) : l₁ = m₁ ∧ a = b ∧ l₂ = m₂ := by
  induction l₁ generalizing m₁ with
  | nil =>
    cases m₁ with
    | nil => exact ⟨rfl, List.cons.inj heq⟩
    | cons x m₁ =>
      obtain ⟨rfl, -⟩ := List.cons.inj heq
      rw [hm₁ a List.mem_cons_self] at ha
      cases ha
  | cons x l₁ ih =>
    cases m₁ with
    | nil =>
      obtain ⟨rfl, rfl⟩ := List.cons.inj heq
      rw [hm₂ a (by simp)] at ha
      cases ha
    | cons y m₁ =>
      obtain ⟨rfl, htail⟩ := List.cons.inj heq
      obtain ⟨rfl, rest⟩ := ih htail fun z hz => hm₁ z (List.mem_cons_of_mem _ hz)
      exact ⟨rfl, rest⟩

/-- **A call that has claimed is a call of `execute`**, which dispatches what it has claimed. -/
theorem claim_dispatched {p q : Program Worker ActionRecord} (hp : Start p) {g₁ g₂ : History Worker}
    (hpath : Path p (g₁ ++ ⟨Effect.update record claimed subject "DISPATCH", .ok ()⟩ :: g₂) q) :
    (∀ ev ∈ g₁, Idle ev.effect) ∧ claimed.approval ≠ none ∧
      ∃ deadline, Path (RemediationBroker.dispatch claimed subject deadline) g₂ q := by
  -- a call other than `execute` does not ask for this update
  let P : Effect → Prop
    | .update _ _ _ reason => reason ≠ "DISPATCH"
    | _ => True
  have hidle : ∀ e, Idle e → P e := by
    intro e he
    cases e with
    | update => exact he.elim
    | _ => trivial
  have hmem : ⟨Effect.update record claimed subject "DISPATCH", .ok ()⟩ ∈
      g₁ ++ ⟨Effect.update record claimed subject "DISPATCH", .ok ()⟩ :: g₂ := by simp
  cases hp with
  | propose broker value subject' =>
    exact absurd rfl (((broker.propose_within hidle value subject' fun _ _ _ => trivial).path hpath).1 _ hmem)
  | approve broker actionId subject' =>
    have happrove : Within P (broker.approve actionId subject') :=
      broker.approve_within hidle actionId subject' fun _ _ _ => (by decide : "HUMAN_APPROVED" ≠ "DISPATCH")
    exact absurd rfl ((happrove.path hpath).1 _ hmem)
  | execute broker actionId subject' =>
    obtain ⟨record', claimed', deadline, now, k₁, k₂, hd, hown⟩ :=
      RemediationBroker.execute_claim hpath hmem
    have hk₂ : ∀ ev ∈ k₂, claiming ev = false := by
      rintro ⟨e, reply⟩ hev
      cases e with
      | update before written actor reason =>
        obtain ⟨-, ⟨rfl, -⟩ | ⟨-, -, rfl | ⟨rfl, -⟩⟩⟩ := RemediationBroker.dispatch_update hd.path hev <;>
          exact beq_false_of_ne (by decide)
      | _ => rfl
    have hk₁ : ∀ ev ∈ k₁ ++ [⟨Effect.utcNow, .ok now⟩], Idle ev.effect := by
      intro ev hev
      rcases List.mem_append.mp hev with hev | hev
      · exact hd.admitted.idle ev hev
      · rw [List.mem_singleton.mp hev]
        trivial
    have hsplit : g₁ ++ ⟨Effect.update record claimed subject "DISPATCH", .ok ()⟩ :: g₂ =
        (k₁ ++ [⟨Effect.utcNow, .ok now⟩]) ++
          ⟨Effect.update record' claimed' subject' "DISPATCH", .ok ()⟩ :: k₂ := by
      rw [hown]
      simp [RemediationBroker.claimEvents]
    obtain ⟨rfl, hevent, rfl⟩ := split_unique hsplit rfl (fun ev hev => claiming_idle (hk₁ ev hev)) hk₂
    cases hevent
    refine ⟨hk₁, fun hnone => ?_, deadline, hd.path⟩
    have hproposed := claimed.checks.2.1.mpr hnone
    rw [hd.claim.2.1] at hproposed
    cases hproposed

theorem denied_valid : (Identifier.validate "DISPATCH_AUTHORITY_DENIED").isSome = true := by
  simp [Identifier.validate, show identifierOk "DISPATCH_AUTHORITY_DENIED" = true from rfl]

theorem unknown_valid : (Identifier.validate "EXECUTOR_RESULT_UNKNOWN").isSome = true := by
  simp [Identifier.validate, show identifierOk "EXECUTOR_RESULT_UNKNOWN" = true from rfl]

theorem result_valid : (Identifier.validate "EXECUTOR_RESULT").isSome = true := by
  simp [Identifier.validate, show identifierOk "EXECUTOR_RESULT" = true from rfl]

/-- A transition asks neither for an identity nor for an effect. -/
theorem transition_plain {h : History Worker} {q : Program Worker ActionRecord}
    (hpath : Path (ActionStore.transition claimed state subject reason none result) h q) :
    ∀ ev ∈ h, ¬OfAuthority ev.effect ∧ ∀ action k, ev.effect ≠ .execute action k := by
  intro ev hev
  rcases RemediationBroker.transition_path hpath ev hev with he | ⟨written, he, -⟩ <;>
    exact ⟨by rw [he]; exact id, fun action k => by simp [he]⟩

/-- **A call that has ended has settled its claim exactly if only denials were raised.** The record is
then terminal: it has failed if the backend was not invoked, and otherwise it is what came of the
invocation, `UNKNOWN` where that is no receipt of the action. -/
theorem claim_settled (h : Reachable (Available key) Start Tables.empty c) {cl : Call Worker ActionRecord}
    (hcall : c.calls[i]? = some cl) (hended : cl.rest = ofResult r) {g₁ g₂ : History Worker}
    (hown : c.trace.own i = g₁ ++ ⟨Effect.update record claimed subject "DISPATCH", .ok ()⟩ :: g₂)
    (hkey : claimed.actionId.val = key) :
    (∃ final, c.shared.actions key = some final ∧ final.state.Terminal ∧
      ((∀ ev ∈ g₂, invokes key ev = false) → final.state = .failed) ∧
      ∀ action answer, ⟨Effect.execute action key, answer⟩ ∈ g₂ →
        final.state = settledState (RemediationBroker.receipt claimed answer)) ↔
    ∀ ev ∈ g₂, OfAuthority ev.effect → ∀ x, ev.fault = some x → Denial x := by
  have hreached := Available.reached h
  have hpath := h.wellTraced.path i cl hcall
  rw [hown, hended] at hpath
  obtain ⟨hidle, happroved, deadline, hdispatch⟩ := claim_dispatched (h.wellTraced.start i cl hcall) hpath
  obtain ⟨approval, happroval⟩ := Option.ne_none_iff_exists'.mp happroved
  have hclaim : (i, ⟨Effect.update record claimed subject "DISPATCH", .ok ()⟩) ∈ c.trace :=
    mem_own.mp (by rw [hown]; simp)
  have hexecuting := (dispatch_claims hreached hclaim).1
  have hsuffix : c.trace.own i = (g₁ ++ [⟨Effect.update record claimed subject "DISPATCH", .ok ()⟩]) ++ g₂ := by
    rw [hown, List.append_assoc]
    rfl
  have hclaimed (k : History Worker) : ⟨Effect.update record claimed subject "DISPATCH", .ok ()⟩ ∈
      (g₁ ++ [⟨Effect.update record claimed subject "DISPATCH", .ok ()⟩]) ++ k := by simp
  -- before the dispatch writes, the claim is all the call has written
  have hwritten : ∀ {k : History Worker},
      (∀ ev ∈ k, Idle ev.effect ∨ ∃ action kk, ev.effect = .execute action kk) → ∀ before written actor why,
      ⟨Effect.update before written actor why, .ok ()⟩ ∈
        (g₁ ++ [⟨Effect.update record claimed subject "DISPATCH", .ok ()⟩]) ++ k → written.state.stage ≠ 3 := by
    intro k hk before written actor why hev
    simp only [List.mem_append, List.mem_singleton] at hev
    rcases hev with (hev | hev) | hev
    · exact (hidle _ hev).elim
    · cases hev
      rw [hexecuting]
      decide
    · obtain hev | ⟨action, kk, hev⟩ := hk _ hev
      · exact hev.elim
      · cases hev
  rcases RemediationBroker.dispatch_runs happroval hdispatch with ⟨x, hraised⟩ |
    ⟨h₁, h₂, rfl, hdenied, htransition⟩ | ⟨h₁, answer, h₂, rfl, hauthorized, hsettle⟩
  · -- raised, and still executing
    have hrow := claimed_row hreached hclaim fun before written actor why hev => by
      have hev' := mem_own.mpr hev
      rw [hsuffix] at hev'
      exact hwritten (fun ev hev => .inl (((RemediationBroker.authorized_idle ..).path hraised).1 ev hev))
        _ _ _ _ hev'
    rw [hkey] at hrow
    constructor
    · rintro ⟨final, hfinal, hterminal, -⟩
      obtain rfl := Option.some.inj (hrow.symm.trans hfinal)
      rw [ActionState.Terminal, hexecuting] at hterminal
      cases hterminal
    · intro hall
      obtain ⟨ev, hev, hauthority, y, hy, hother⟩ := RemediationBroker.authorized_raised hraised
      exact absurd (hall ev hev hauthority y hy) hother
  · -- denied, and failed
    have hquiet := ((RemediationBroker.authorized_idle ..).path hdenied).1
    have hplain := transition_plain htransition
    have hsettles : Settles claimed .failed (some (RemediationBroker.deniedReceipt claimed)) :=
      .inr ⟨_, rfl, rfl, rfl, rfl⟩
    obtain ⟨final, hfinal, hfailed⟩ := settlement_row h (hsuffix.trans (List.append_assoc _ _ _).symm)
      (hclaimed h₁) (hwritten fun ev hev => .inl (hquiet ev hev)) hkey denied_valid hsettles htransition
    refine iff_of_true ⟨final, hfinal, by rw [hfailed]; rfl, fun _ => hfailed, fun action answer hev => ?_⟩ ?_
    · rcases List.mem_append.mp hev with hev | hev
      · exact (hquiet _ hev).elim
      · exact absurd rfl ((hplain _ hev).2 action key)
    · intro ev hev hauthority x hx
      rcases List.mem_append.mp hev with hev | hev
      · exact RemediationBroker.authorized_decided hdenied ev hev x hx
      · exact absurd hauthority (hplain _ hev).1
  · -- invoked
    have hquiet := ((RemediationBroker.authorized_idle ..).path hauthorized).1
    have hinvoked : ∀ ev ∈ h₁ ++ [⟨Effect.execute claimed.proposal claimed.actionId.val, answer⟩],
        Idle ev.effect ∨ ∃ action kk, ev.effect = .execute action kk := by
      intro ev hev
      rcases List.mem_append.mp hev with hev | hev
      · exact .inl (hquiet ev hev)
      · rw [List.mem_singleton.mp hev]
        exact .inr ⟨_, _, rfl⟩
    have hprefix : c.trace.own i = ((g₁ ++ [⟨Effect.update record claimed subject "DISPATCH", .ok ()⟩]) ++
        (h₁ ++ [⟨Effect.execute claimed.proposal claimed.actionId.val, answer⟩])) ++ h₂ := by
      rw [hsuffix]
      simp
    have hsettled : ∃ state result reason, Settles claimed state result ∧
        (Identifier.validate reason).isSome = true ∧
        state = settledState (RemediationBroker.receipt claimed answer) ∧
        Runs (ActionStore.transition claimed state subject reason none result) h₂ r := by
      cases hreceipt : RemediationBroker.receipt claimed answer with
      | none =>
        rw [hreceipt] at hsettle
        exact ⟨_, _, _, .inl ⟨rfl, rfl⟩, unknown_valid, rfl, hsettle⟩
      | some result =>
        rw [hreceipt] at hsettle
        have hmatches : result.matches claimed.proposal := by
          unfold RemediationBroker.receipt at hreceipt
          split at hreceipt
          · split_ifs at hreceipt with hm
            cases hreceipt
            exact hm
          · cases hreceipt
        exact ⟨_, _, _, .inr ⟨result, rfl, rfl, hmatches⟩, result_valid, rfl, hsettle⟩
    obtain ⟨state, result, reason, hsettles, hreason, hstate, htransition⟩ := hsettled
    have hplain := transition_plain htransition
    obtain ⟨final, hfinal, hended'⟩ := settlement_row h hprefix (hclaimed _) (hwritten hinvoked) hkey hreason
      hsettles htransition
    refine iff_of_true ⟨final, hfinal, ?_, fun hnone => ?_, fun action answer' hev => ?_⟩ ?_
    · have hthree := hsettles.terminal.2
      rw [← hended'] at hthree
      revert hthree
      cases final.state <;> simp [ActionState.stage, ActionState.Terminal, TRANSITIONS]
    · have hexecute := hnone ⟨Effect.execute claimed.proposal claimed.actionId.val, answer⟩ (by simp)
      simp [invokes, hkey] at hexecute
    · rw [hended', hstate]
      rcases List.mem_append.mp hev with hev | hev
      · exact (hquiet _ hev).elim
      rcases List.mem_cons.mp hev with hev | hev
      · cases hev
        rfl
      · exact absurd rfl ((hplain _ hev).2 action key)
    · intro ev hev hauthority x hx
      rcases List.mem_append.mp hev with hev | hev
      · exact RemediationBroker.authorized_decided hauthorized ev hev x hx
      rcases List.mem_cons.mp hev with rfl | hev
      · exact hauthority.elim
      · exact absurd hauthority (hplain _ hev).1

/-- Where a claim is among the events of a call. -/
theorem claim_found (h : Reached c)
    (hfound : ((c.trace.own i).any fun ev => claims key ev && claiming ev) = true) :
    ∃ g₁ g₂ record claimed subject, claimed.actionId.val = key ∧
      c.trace.own i = g₁ ++ ⟨Effect.update record claimed subject "DISPATCH", .ok ()⟩ :: g₂ := by
  obtain ⟨ev, hev, hclaim⟩ := List.any_eq_true.mp hfound
  obtain ⟨hclaims, hclaiming⟩ := (Bool.and_eq_true _ _).mp hclaim
  obtain ⟨before, written, actor, why, rfl, hkey, -, -⟩ := claims_iff.mp hclaims
  obtain rfl : why = "DISPATCH" := beq_iff_eq.mp hclaiming
  have hproper : Successor before written :=
    Reachable.within h (fun _ hp => start_proper hp) (mem_own.mp hev)
  obtain ⟨g₁, g₂, hown⟩ := List.append_of_mem hev
  exact ⟨g₁, g₂, before, written, actor, by rw [hproper.actionId, hkey], hown⟩

end Claim

end PayOps.Remediation

namespace PayOps.Remediation

open Policy Process Program

/-! ### An identity provider that is lost -/

section Lost

attribute [local instance] samplePlatform

theorem Tables.answered_upright (t : Tables) (before after : ActionRecord) (actor reason : String) :
    Upright sampleKey t (.update before after actor reason)
      (sampleHandler (.update before after actor reason) t).1 := by
  cases hupdate : t.update before after actor reason with
  | ok t' =>
    have hanswer : (sampleHandler (.update before after actor reason) t).1 = .ok () := by
      simp only [sampleHandler, hupdate]
    rw [hanswer]
    trivial
  | error fault =>
    have hanswer : (sampleHandler (.update before after actor reason) t).1 = .error fault := by
      simp only [sampleHandler, hupdate]
    rw [hanswer]
    intro _ _ t' (hok : t.update before after actor reason = .ok t')
    rw [hupdate] at hok
    cases hok

theorem sampleHandler_available (e : Effect) (t : Tables) :
    (Available sampleKey).answer t e (sampleHandler e t).1 (sampleHandler e t).2 := by
  refine ⟨sampleHandler_answers e t, ?_⟩
  cases e with
  | update before after actor reason => exact t.answered_upright before after actor reason
  | _ => trivial

/-- The same environment, but no identity can be refreshed once the execution is claimed. -/
def lostHandler : Handler Worker Tables
  | .principal subject, t =>
    if (t.actions sampleKey).any fun r => r.state = .executing then (.error (.other "ConnectionError"), t)
    else sampleHandler (.principal subject) t
  | e, t => sampleHandler e t

theorem lostHandler_available (e : Effect) (t : Tables) :
    (Available sampleKey).answer t e (lostHandler e t).1 (lostHandler e t).2 := by
  cases e with
  | principal subject =>
    by_cases hexecuting : ((t.actions sampleKey).any fun r => r.state = .executing) = true
    · simp only [lostHandler, if_pos hexecuting]
      exact ⟨rfl, trivial⟩
    · simp only [lostHandler, if_neg hexecuting]
      exact sampleHandler_available _ t
  | _ => exact sampleHandler_available _ t

/-- One action proposed and approved. -/
def approvedSample : Workers :=
  ((⟨Tables.empty, [], []⟩ : Workers).ran sampleHandler
    ((⟨.localKind⟩ : RemediationBroker).propose sampleProposal "ann")).ran sampleHandler
    ((⟨.localKind⟩ : RemediationBroker).approve sampleKey "ben")

/-- How the execution of it ends with this handler. -/
def executionEnd (H : Handler Worker Tables) : Except Fault ActionRecord :=
  (Program.run H ((⟨.localKind⟩ : RemediationBroker).execute sampleKey "eve") approvedSample.shared).result

/-- The action, executed by this handler. -/
def executedBy (H : Handler Worker Tables) : Workers :=
  approvedSample.ran H ((⟨.localKind⟩ : RemediationBroker).execute sampleKey "eve")

theorem executedBy_call (H : Handler Worker Tables) :
    (executedBy H).calls[2]? = some ⟨(⟨.localKind⟩ : RemediationBroker).execute sampleKey "eve",
      ofResult (executionEnd H), true⟩ := rfl

theorem executedBy_available {H : Handler Worker Tables}
    (hH : ∀ e t, (Available sampleKey).answer t e (H e t).1 (H e t).2) :
    Reachable (Available sampleKey) Start Tables.empty (executedBy H) :=
  ((Reachable.call .refl sampleHandler_available (.propose _ _ _)).call sampleHandler_available
    (.approve _ _ _)).call hH (.execute _ _ _)

/-- **A connection error after the claim leaves the record `EXECUTING`**, and the call has ended. -/
theorem stranded_claim : ∃ (c : Workers) (i : ℕ) (cl : Call Worker ActionRecord) (x : Fault)
    (g₁ g₂ : History Worker) (record claimed : ActionRecord) (subject : String),
    Reachable (Available sampleKey) Start Tables.empty c ∧ c.calls[i]? = some cl ∧ cl.rest = .fail x ∧
      c.trace.own i = g₁ ++ ⟨Effect.update record claimed subject "DISPATCH", .ok ()⟩ :: g₂ ∧
      ∃ final, c.shared.actions claimed.actionId.val = some final ∧ final.state = .executing := by
  have havailable := executedBy_available lostHandler_available
  have hfound : (((executedBy lostHandler).trace.own 2).any fun ev =>
      claims sampleKey ev && claiming ev) = true := by decide +kernel
  have hexecuting : ((executedBy lostHandler).shared.actions sampleKey).map (fun r => r.state) =
      some .executing := by decide +kernel
  obtain ⟨g₁, g₂, record, claimed, subject, hkey, hown⟩ := claim_found (Available.reached havailable) hfound
  obtain ⟨final, hfinal, hstate⟩ := Option.map_eq_some_iff.mp hexecuting
  exact ⟨executedBy lostHandler, 2, _, .other "ConnectionError", g₁, g₂, record, claimed, subject,
    havailable, rfl, rfl, hown, final, by rw [hkey]; exact hfinal, hstate⟩

/-- In the run in which everything is answered the claim is settled. -/
theorem claim_settled_sample : ∃ final, (executedBy sampleHandler).shared.actions sampleKey = some final ∧
    final.state.Terminal := by
  have havailable := executedBy_available sampleHandler_available
  have hfound : (((executedBy sampleHandler).trace.own 2).any fun ev =>
      claims sampleKey ev && claiming ev) = true := by decide +kernel
  have hgranted : (((executedBy sampleHandler).trace.own 2).all fun ev => ev.fault.isNone) = true := by
    decide +kernel
  obtain ⟨g₁, g₂, record, claimed, subject, hkey, hown⟩ := claim_found (Available.reached havailable) hfound
  have hsettled := (claim_settled (r := executionEnd sampleHandler) havailable (executedBy_call _) rfl hown
      hkey).mpr fun ev hev _ x hx => by
    have hnone := List.all_eq_true.mp hgranted ev (by rw [hown]; simp [hev])
    rw [hx] at hnone
    cases hnone
  obtain ⟨final, hfinal, hterminal, -⟩ := hsettled
  exact ⟨final, hfinal, hterminal⟩

end Lost

end PayOps.Remediation
