import PayOps.Remediation.Broker

/-!
# What one call of the broker does

The paths of `propose`, `approve` and `execute`, however the environment answers.

## What is proved

* `start_proper` — whatever a call writes, it inserts a proposal of revision `0` or replaces a
  record by a successor of it.
* `past_claim` — an effect, or a write that records what came of one, is only asked for by an
  `execute` that was admitted and whose own claim has committed.
* `dispatch_path` — after its claim a call records a denial without any effect, or it asks for one
  effect and then records what came of it.
-/

namespace PayOps.Remediation

open Policy Process Program

variable [Platform]

/-! ### Effects that change nothing -/

/-- The request neither changes the tables nor invokes the backend. -/
def Idle : Effect → Prop
  | .execute _ _ => False
  | .insert _ _ _ => False
  | .update _ _ _ _ => False
  | _ => True

theorem identity_idle (subject : String) (role : Role) (nameSpace : Identifier) :
    Within Idle (identity subject role nameSpace) := by
  have hask : Within Idle (ask (.principal subject)) := within_perform.mpr trivial
  have hclock : Within Idle (ask .clock) := within_perform.mpr trivial
  refine hask.bind fun principal => hclock.bind fun now => ?_
  cases principal with
  | none => trivial
  | some p => exact within_raiseIf.bind fun _ => trivial

theorem get_idle (actionId : String) : Within Idle (ActionStore.get actionId) := by
  have hask : Within Idle (ask (.select actionId)) := within_perform.mpr trivial
  refine hask.bind fun row => ?_
  cases row with
  | none => trivial
  | some record => exact within_raiseIf.bind fun _ => trivial

namespace RemediationBroker

theorem review_idle (broker : RemediationBroker) (action : Action) (subject : String) :
    Within Idle (broker.review action subject) := by
  have hcontext : Within Idle (ask (.context action subject)) := within_perform.mpr trivial
  refine (identity_idle ..).bind fun principal => hcontext.bind fun context => ?_
  refine within_raiseIf.bind fun _ => ?_
  refine (evaluate_within (I := Worker) (within_perform.mpr trivial)
    (fun _ _ => within_perform.mpr trivial) (fun _ _ => within_perform.mpr trivial) _ _).bind ?_
  rintro (reason | ⟨riskTier, proposal, digest⟩)
  · trivial
  · cases context.incident.report <;> trivial

theorem approvalCurrent_idle (approval : Approval) : Within Idle (approvalCurrent approval) := by
  have hclock : Within Idle (ask .clock) := within_perform.mpr trivial
  exact hclock.bind fun now => within_raiseIf

theorem dispatchAuthority_idle (record : ActionRecord) (approval : Approval) (subject : String)
    (deadline : Time) : Within Idle (dispatchAuthority record approval subject deadline) := by
  have hclock : Within Idle (ask .clock) := within_perform.mpr trivial
  refine (identity_idle ..).bind fun executor => (identity_idle ..).bind fun approver =>
    (identity_idle ..).bind fun responder => hclock.bind fun now => ?_
  exact within_raiseIf.bind fun _ => (approvalCurrent_idle approval).bind fun _ =>
    hclock.bind fun last => within_raiseIf

theorem authorized_idle (record : ActionRecord) (approval : Approval) (subject : String)
    (deadline : Time) : Within Idle (authorized record approval subject deadline) := by
  refine ((dispatchAuthority_idle ..).bind fun _ => ?_).tryCatch fun fault => ?_
  · trivial
  · cases fault <;> trivial

theorem precheck_idle (broker : RemediationBroker) (record : ActionRecord) :
    Within Idle (broker.precheck record) := by
  have hclock : Within Idle (ask .clock) := within_perform.mpr trivial
  unfold precheck
  split
  · trivial
  · exact within_raiseIf.bind fun _ => hclock.bind fun now => within_raiseIf.bind fun _ =>
      (identity_idle ..).bind fun _ => (review_idle ..).bind fun deadline =>
        (approvalCurrent_idle _).bind fun _ => trivial

end RemediationBroker

/-! ### Transitions -/

/-- `after` is `before` one transition later. -/
structure Successor (before after : ActionRecord) : Prop where
  /-- The transition is one of `TRANSITIONS`. -/
  transition : after.state ∈ TRANSITIONS before.state
  /-- The revision goes up by one. -/
  revision : after.revision = before.revision + 1
  /-- The row stays the same. -/
  actionId : after.actionId = before.actionId
  /-- So does the proposal, -/
  proposal : after.proposal = before.proposal
  /-- its proposer, -/
  proposer : after.proposer = before.proposer
  /-- and the time of the proposal. -/
  createdAt : after.createdAt = before.createdAt
  /-- An approval stays. -/
  approval : ∀ a, before.approval = some a → after.approval = some a

namespace ActionStore

variable {before : ActionRecord} {state : ActionState} {actor reason : String}
  {approval : Option Approval} {result : Option EffectReceipt}

/-- A transition reads the clock and asks for its own update. -/
theorem transition_within (P : Effect → Prop) (hnow : P .utcNow)
    (hupdate : ∀ now written, state ∈ TRANSITIONS before.state →
      written.toActionFields = after before state now approval result →
      P (.update before written actor reason)) :
    Within P (transition before state actor reason approval result) := by
  refine within_raiseIf_bind fun hstate => ?_
  have hask : Within P (ask .utcNow) := within_perform.mpr hnow
  refine hask.bind fun now => ?_
  cases hv : (after before state now approval result).validate with
  | error message => trivial
  | ok written =>
    have hfields := ActionFields.validate_eq_ok.mp hv
    have hwrite : Within P (ask (.update before written actor reason)) :=
      within_perform.mpr (hupdate now written (not_not.mp hstate) hfields)
    exact hwrite.bind fun _ => trivial

/-- A transition that returns has committed. -/
theorem transition_ok {h : History Worker} {written : ActionRecord}
    (hr : Runs (transition before state actor reason approval result) h (.ok written)) :
    ∃ now, h = [⟨Effect.utcNow, .ok now⟩, ⟨Effect.update before written actor reason, .ok ()⟩] ∧
      state ∈ TRANSITIONS before.state ∧
      written.toActionFields = after before state now approval result := by
  rcases runs_raiseIf_bind.mp hr with ⟨-, -, hx⟩ | ⟨hstate, hr⟩
  · cases hx
  rcases runs_perform_bind.mp hr with ⟨x, -, hx⟩ | ⟨now, h', rfl, hrest⟩
  · cases hx
  cases hv : (after before state now approval result).validate with
  | error message =>
    rw [hv] at hrest
    cases (runs_fail.mp hrest).2
  | ok record =>
    rw [hv] at hrest
    rcases runs_perform_bind.mp hrest with ⟨x, -, hx⟩ | ⟨_, h'', rfl, hdone⟩
    · cases hx
    obtain ⟨rfl, hw⟩ := runs_done.mp hdone
    obtain rfl : written = record := Except.ok.inj hw
    exact ⟨now, rfl, not_not.mp hstate, ActionFields.validate_eq_ok.mp hv⟩

/-- What a transition writes is a successor, if it does not approve a second time. -/
theorem successor_of_after {written : ActionRecord} {now : Time} (hstate : state ∈ TRANSITIONS before.state)
    (hw : written.toActionFields = after before state now approval result)
    (hold : approval = none ∨ before.approval = none) : Successor before written := by
  have hrev : written.revision = before.revision + 1 := by rw [hw]; rfl
  have happroval : written.approval = approval.or before.approval := by rw [hw]; rfl
  refine ⟨?_, hrev, by rw [hw]; rfl, by rw [hw]; rfl, by rw [hw]; rfl, by rw [hw]; rfl, ?_⟩
  · rw [hw]
    exact hstate
  · intro a ha
    rcases hold with rfl | hnone
    · rw [happroval, Option.none_or, ha]
    · rw [hnone] at ha
      cases ha

end ActionStore

/-! ### Everything a call writes is proper -/

/-- An insertion is of a new proposal; an update is by a successor. -/
def Proper : Effect → Prop
  | .insert record _ reason =>
    (record.state = .proposed ∧ record.revision = 0) ∧ reason = "POLICY_REVIEWED"
  | .update before written _ _ => Successor before written
  | _ => True

theorem Idle.proper {e : Effect} (h : Idle e) : Proper e := by
  cases e with
  | insert => exact h.elim
  | update => exact h.elim
  | _ => trivial

theorem create_within (P : Effect → Prop) (record : ActionRecord) (hselect : ∀ i, P (.select i))
    (hinsert : record.state = .proposed → record.revision = 0 →
      P (.insert record record.proposer.val "POLICY_REVIEWED")) :
    Within P (ActionStore.create record) := by
  refine within_raiseIf_bind fun hnew => ?_
  push Not at hnew
  have hask : Within P (ask (.insert record record.proposer.val "POLICY_REVIEWED")) :=
    within_perform.mpr (hinsert hnew.1 hnew.2)
  have hget : ∀ i, Within P (ActionStore.get i) := fun i =>
    (within_perform.mpr (hselect i)).bind (p := ask (.select i)) fun row => by
      cases row with
      | none => trivial
      | some r => exact within_raiseIf.bind fun _ => trivial
  refine (hask.bind fun _ => ?_).tryCatch fun fault => ?_
  · trivial
  · split
    · exact (hget _).bind fun previous => within_raiseIf.bind fun _ => trivial
    · trivial

/-- An approved record still to be approved has no approval yet. -/
theorem ActionRecord.approval_of_proposed {r : ActionRecord} (h : r.state = .proposed) :
    r.approval = none := r.checks.2.1.mp h

namespace RemediationBroker

variable {P : Effect → Prop} (hidle : ∀ e, Idle e → P e)

include hidle in
theorem propose_within (broker : RemediationBroker) (value : JsonObject) (subject : String)
    (hinsert : ∀ record : ActionRecord, record.state = .proposed → record.revision = 0 →
      P (.insert record record.proposer.val "POLICY_REVIEWED")) :
    Within P (broker.propose value subject) := by
  unfold propose
  have hclock : Within P (ask .clock) := within_perform.mpr (hidle _ trivial)
  split
  · trivial
  · refine ((broker.review_idle _ _).mono hidle).bind fun _ => hclock.bind fun now => ?_
    split
    · split
      · trivial
      · exact create_within P _ (fun i => hidle _ trivial) (hinsert _)
    · trivial

include hidle in
theorem approve_within (broker : RemediationBroker) (actionId subject : String)
    (hupdate : ∀ before written : ActionRecord, Successor before written →
      P (.update before written subject "HUMAN_APPROVED")) :
    Within P (broker.approve actionId subject) := by
  have hclock : Within P (ask .clock) := within_perform.mpr (hidle _ trivial)
  refine ((get_idle actionId).mono hidle).bind fun record =>
    ((identity_idle ..).mono hidle).bind fun _ => within_raiseIf_bind fun hstate => ?_
  push Not at hstate
  refine ((broker.review_idle _ _).mono hidle).bind fun deadline =>
    ((identity_idle ..).mono hidle).bind fun _ => hclock.bind fun now =>
      within_raiseIf.bind fun _ => ?_
  split
  · trivial
  · refine ActionStore.transition_within P (hidle _ trivial) fun now written ht hw => ?_
    exact hupdate _ _ (ActionStore.successor_of_after ht hw
      (.inr (ActionRecord.approval_of_proposed hstate.2)))

include hidle in
theorem dispatch_within (record : ActionRecord) (subject : String) (deadline : Time)
    (hexecute : ∀ action key, P (.execute action key))
    (hupdate : ∀ before written reason, Successor before written → P (.update before written subject reason)) :
    Within P (dispatch record subject deadline) := by
  have htransition : ∀ state reason result,
      Within P (ActionStore.transition record state subject reason none result) := fun _ _ _ =>
    ActionStore.transition_within P (hidle _ trivial) fun _ _ ht hw =>
      hupdate _ _ _ (ActionStore.successor_of_after ht hw (.inl rfl))
  have hinvoke : Within P (invoke record) := by
    have hask : Within P (ask (.execute record.proposal record.actionId.val)) :=
      within_perform.mpr (hexecute _ _)
    refine (hask.bind fun result => ?_).tryCatch fun _ => ?_
    · exact within_raiseIf.bind fun _ => trivial
    · trivial
  unfold dispatch
  split
  · trivial
  · refine ((authorized_idle ..).mono hidle).bind fun ok => ?_
    split_ifs
    · refine hinvoke.bind fun receipt => ?_
      cases receipt with
      | none => exact htransition _ _ _
      | some result => exact htransition _ _ _
    · exact htransition _ _ _

include hidle in
theorem execute_within (broker : RemediationBroker) (actionId subject : String)
    (hexecute : ∀ action key, P (.execute action key))
    (hupdate : ∀ before written reason, Successor before written → P (.update before written subject reason)) :
    Within P (broker.execute actionId subject) := by
  refine ((get_idle actionId).mono hidle).bind fun record =>
    ((identity_idle ..).mono hidle).bind fun _ => within_raiseIf.bind fun _ => ?_
  split_ifs
  · trivial
  · refine ((broker.precheck_idle record).mono hidle).bind fun deadline => ?_
    refine (ActionStore.transition_within P (hidle _ trivial) fun _ _ ht hw =>
      hupdate _ _ _ (ActionStore.successor_of_after ht hw (.inl rfl))).bind fun claimed => ?_
    exact dispatch_within hidle claimed subject deadline hexecute hupdate

end RemediationBroker

/-- **Whatever a call asks for is proper.** -/
theorem start_proper {p : Program Worker ActionRecord} (h : Start p) : Within Proper p := by
  have hidle : ∀ e, Idle e → Proper e := fun _ => Idle.proper
  cases h with
  | propose broker value subject =>
    exact broker.propose_within hidle value subject fun _ hs hr => ⟨⟨hs, hr⟩, rfl⟩
  | approve broker actionId subject =>
    exact broker.approve_within hidle actionId subject fun _ _ hs => hs
  | execute broker actionId subject =>
    exact broker.execute_within hidle actionId subject (fun _ _ => trivial) fun _ _ _ hs => hs

/-! ### Past the claim -/

/-- What a call may ask for before its claim has committed: no effect, and no write that records
what came of one. -/
def PreClaim : Effect → Prop
  | .execute _ _ => False
  | .update _ _ _ reason => reason = "HUMAN_APPROVED" ∨ reason = "DISPATCH"
  | _ => True

theorem Idle.preClaim {e : Effect} (h : Idle e) : PreClaim e := by
  cases e with
  | execute => exact h.elim
  | update => exact h.elim
  | _ => trivial

namespace RemediationBroker

/-- An `execute` was admitted: it read the record, the executor's identity was valid, the mode is
the broker's, and the checks before the claim gave a deadline. -/
structure Admitted (broker : RemediationBroker) (actionId subject : String) (record : ActionRecord)
    (deadline : Time) (h : History Worker) : Prop where
  /-- The mode of the action is the broker's. -/
  mode : record.proposal.mode = broker.mode
  /-- What was asked, in this order. -/
  runs : ∃ h₁ h₂ h₃ principal, h = h₁ ++ (h₂ ++ h₃) ∧
    Runs (ActionStore.get actionId) h₁ (.ok record) ∧
    Runs (identity subject .executor record.proposal.nameSpace) h₂ (.ok principal) ∧
    Runs (broker.precheck record) h₃ (.ok deadline)

/-- The two events of a claim. -/
def claimEvents (record claimed : ActionRecord) (subject : String) (now : Time) : History Worker :=
  [⟨Effect.utcNow, .ok now⟩, ⟨Effect.update record claimed subject "DISPATCH", .ok ()⟩]

/-- A call of `execute` that has dispatched: it was admitted, it claimed, and it is on a path of
`dispatch`. -/
structure Dispatched (broker : RemediationBroker) (actionId subject : String)
    (record claimed : ActionRecord) (deadline now : Time) (g₁ g₂ : History Worker)
    (q : Program Worker ActionRecord) : Prop where
  /-- It was admitted. -/
  admitted : Admitted broker actionId subject record deadline g₁
  /-- The record was approved. -/
  transition : .executing ∈ TRANSITIONS record.state
  /-- What the claim wrote. -/
  wrote : claimed.toActionFields = ActionStore.after record .executing now none none
  /-- What happened since. -/
  path : Path (dispatch claimed subject deadline) g₂ q

theorem Admitted.idle {broker : RemediationBroker} {actionId subject : String} {record : ActionRecord}
    {deadline : Time} {h : History Worker} (ha : Admitted broker actionId subject record deadline h) :
    ∀ ev ∈ h, Idle ev.effect := by
  obtain ⟨h₁, h₂, h₃, principal, rfl, hr₁, hr₂, hr₃⟩ := ha.runs
  intro ev hev
  rcases List.mem_append.mp hev with hev | hev
  · exact ((get_idle _).path hr₁).1 ev hev
  rcases List.mem_append.mp hev with hev | hev
  · exact ((identity_idle ..).path hr₂).1 ev hev
  · exact ((precheck_idle ..).path hr₃).1 ev hev

/-- **Past the claim**: an `execute` whose path has left what may be asked before a claim has
dispatched. -/
theorem execute_past {broker : RemediationBroker} {actionId subject : String} {h : History Worker}
    {q : Program Worker ActionRecord} (hpath : Path (broker.execute actionId subject) h q)
    {ev : Event Worker} (hev : ev ∈ h) (hout : ¬PreClaim ev.effect) :
    ∃ record claimed deadline now g₁ g₂,
      Dispatched broker actionId subject record claimed deadline now g₁ g₂ q ∧
        h = g₁ ++ (claimEvents record claimed subject now ++ g₂) ∧ ev ∈ g₂ := by
  have hidle : ∀ e, Idle e → PreClaim e := fun _ => Idle.preClaim
  obtain ⟨record, h₁, r₁, rfl, hget, hpath₁, hev₁⟩ := ((get_idle actionId).mono hidle).past hpath hev hout
  obtain ⟨principal, h₂, r₂, rfl, hidentity, hpath₂, hev₂⟩ :=
    ((identity_idle ..).mono hidle).past hpath₁ hev₁ hout
  rcases path_raiseIf_bind.mp hpath₂ with ⟨-, rfl, -⟩ | ⟨hmode, hpath₃⟩
  · cases hev₂
  split_ifs at hpath₃ with hstate
  · obtain ⟨rfl, -⟩ := path_done.mp hpath₃
    cases hev₂
  obtain ⟨deadline, h₃, r₄, rfl, hadmit, hpath₄, hev₄⟩ :=
    ((broker.precheck_idle record).mono hidle).past hpath₃ hev₂ hout
  have hclaim : Within PreClaim (ActionStore.transition record .executing subject "DISPATCH") :=
    ActionStore.transition_within PreClaim trivial fun _ _ _ _ => .inr rfl
  obtain ⟨claimed, h₄, g₂, rfl, htransition, hpath₅, hev₅⟩ := hclaim.past hpath₄ hev₄ hout
  obtain ⟨now, rfl, ht, hw⟩ := ActionStore.transition_ok htransition
  refine ⟨record, claimed, deadline, now, h₁ ++ (h₂ ++ h₃), g₂,
    ⟨⟨not_not.mp hmode, h₁, h₂, h₃, principal, rfl, hget, hidentity, hadmit⟩, ht, hw, hpath₅⟩, ?_, hev₅⟩
  simp [claimEvents]

/-- The receipt `invoke` makes of the backend's answer. -/
def receipt (record : ActionRecord) : Except Fault EffectReceipt → Option EffectReceipt
  | .ok result => if result.matches record.proposal then some result else none
  | .error _ => none

theorem invoke_eq (record : ActionRecord) :
    invoke record = .call (.execute record.proposal record.actionId.val) fun r =>
      .done (receipt record r) := by
  change Program.call (I := Worker) (.execute record.proposal record.actionId.val) _ = _
  congr 1
  funext r
  cases r with
  | error fault => rfl
  | ok result =>
    change Program.tryCatch (Program.bind (raiseIf (¬result.matches record.proposal) _) _) _ = _
    by_cases hm : result.matches record.proposal <;> simp [raiseIf, receipt, hm]

/-- What `dispatch` does with the receipt. -/
def settle (claimed : ActionRecord) (subject : String) : Option EffectReceipt → Program Worker ActionRecord
  | none => ActionStore.transition claimed .unknown subject "EXECUTOR_RESULT_UNKNOWN"
  | some result =>
    ActionStore.transition claimed result.outcome.state subject "EXECUTOR_RESULT" none (some result)

/-- **Paths of a dispatch**: still being authorised; or denied, and recording that; or authorised,
with one effect invoked and what came of it being recorded. -/
theorem dispatch_path {claimed : ActionRecord} {subject : String} {deadline : Time} {h : History Worker}
    {q : Program Worker ActionRecord} (hpath : Path (dispatch claimed subject deadline) h q) :
    (∀ ev ∈ h, Idle ev.effect) ∨
      ∃ approval h₁ h₂, claimed.approval = some approval ∧ h = h₁ ++ h₂ ∧
        (Runs (authorized claimed approval subject deadline) h₁ (.ok false) ∧
            Path (ActionStore.transition claimed .failed subject "DISPATCH_AUTHORITY_DENIED" none
              (some (deniedReceipt claimed))) h₂ q ∨
          Runs (authorized claimed approval subject deadline) h₁ (.ok true) ∧
            ∃ r h₃, h₂ = ⟨Effect.execute claimed.proposal claimed.actionId.val, r⟩ :: h₃ ∧
              Path (settle claimed subject (receipt claimed r)) h₃ q) := by
  unfold dispatch at hpath
  split at hpath
  · obtain ⟨rfl, -⟩ := path_fail.mp hpath
    exact .inl (by simp)
  · rename_i approval happroval
    rcases path_bind.mp hpath with ⟨p', hp', -⟩ | ⟨ok, h₁, h₂, rfl, hr, hpath⟩
    · exact .inl ((authorized_idle ..).path hp').1
    · cases ok with
      | false => exact .inr ⟨approval, h₁, h₂, happroval, rfl, .inl ⟨hr, hpath⟩⟩
      | true =>
        simp only [if_true, invoke_eq] at hpath
        rcases path_call.mp hpath with ⟨rfl, -⟩ | ⟨r, h₃, rfl, hrest⟩
        · rw [List.append_nil]
          exact .inl ((authorized_idle ..).path hr).1
        · refine .inr ⟨approval, h₁, _, happroval, rfl, .inr ⟨hr, r, h₃, rfl, ?_⟩⟩
          simp only [Program.done_bind] at hrest
          unfold settle
          cases hrec : receipt claimed r <;> rw [hrec] at hrest <;> exact hrest

end RemediationBroker

/-- **Past the claim**: an effect, or a write that records what came of one, is only asked for by an
`execute` that has dispatched. -/
theorem past_claim {p q : Program Worker ActionRecord} {h : History Worker} (hp : Start p)
    (hpath : Path p h q) {ev : Event Worker} (hev : ev ∈ h) (hout : ¬PreClaim ev.effect) :
    ∃ (broker : RemediationBroker) (actionId subject : String) (record claimed : ActionRecord)
      (deadline now : Time) (g₁ g₂ : History Worker),
      p = broker.execute actionId subject ∧
        broker.Dispatched actionId subject record claimed deadline now g₁ g₂ q ∧
          h = g₁ ++ (RemediationBroker.claimEvents record claimed subject now ++ g₂) ∧ ev ∈ g₂ := by
  have hidle : ∀ e, Idle e → PreClaim e := fun _ => Idle.preClaim
  cases hp with
  | propose broker value subject =>
    exact absurd
      (((broker.propose_within hidle value subject fun _ _ _ => trivial).path hpath).1 ev hev) hout
  | approve broker actionId subject =>
    exact absurd
      (((broker.approve_within hidle actionId subject fun _ _ _ => .inl rfl).path hpath).1 ev hev) hout
  | execute broker actionId subject =>
    obtain ⟨record, claimed, deadline, now, g₁, g₂, hd, rfl, hev₂⟩ :=
      RemediationBroker.execute_past hpath hev hout
    exact ⟨broker, actionId, subject, record, claimed, deadline, now, g₁, g₂, rfl, hd, rfl, hev₂⟩

end PayOps.Remediation
