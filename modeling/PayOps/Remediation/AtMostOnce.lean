import PayOps.Remediation.History

/-!
# Effects are at most once

However the calls of any number of workers interleave, crash and are answered, the backend is
invoked at most once for each action.

## What is proved

* `claims_le_one` — the claim of an action commits at most once: the states of its versions rise
  by one stage each.
* `start_covered` — a call invokes the backend for an action only after its own claim of it has
  committed, and then once.
* `effects_at_most_once` — **main result**: both together, and what the audit reason of a terminal
  record says of the invocations.
-/

namespace PayOps.Remediation

open Policy Process Program

/-- How far a state is. -/
def ActionState.stage : ActionState → ℕ
  | proposed => 0
  | approved => 1
  | executing => 2
  | _ => 3

/-- A transition leads to the next stage. -/
theorem stage_transition {s s' : ActionState} (h : s' ∈ TRANSITIONS s) : s'.stage = s.stage + 1 := by
  cases s <;> cases s' <;> simp [TRANSITIONS] at h <;> rfl

variable [Platform]

/-- The event is an invocation of the backend under the key. -/
def invokes (key : String) (ev : Event Worker) : Bool :=
  match ev.effect with
  | .execute _ k => k == key
  | _ => false

/-- The event is a committed claim of the action. -/
def claims (key : String) : Event Worker → Bool
  | ⟨.update before written _ _, .ok _⟩ =>
    before.actionId.val == key && before.state == .approved && written.state == .executing
  | _ => false

/-! ### Claims -/

theorem claims_iff {key : String} {ev : Event Worker} : claims key ev ↔
    ∃ before written actor reason, ev = ⟨.update before written actor reason, .ok ()⟩ ∧
      before.actionId.val = key ∧ before.state = .approved ∧ written.state = .executing := by
  constructor
  · intro h
    unfold claims at h
    split at h
    · simp only [Bool.and_eq_true, beq_iff_eq] at h
      exact ⟨_, _, _, _, rfl, h.1.1, h.1.2, h.2⟩
    · cases h
  · rintro ⟨before, written, actor, reason, rfl, rfl, hs, hs'⟩
    simp [claims, hs, hs']

/-- An update that was answered has committed. -/
theorem update_committed {c : Workers} (h : Reached c) {i : ℕ} {before written : ActionRecord}
    {actor reason : String}
    (hev : (i, ⟨Effect.update before written actor reason, .ok ()⟩) ∈ c.trace) :
    ∃ event, commitOf ⟨.update before written actor reason, .ok ()⟩ =
      some ⟨.swap before.actionId.val before written, event⟩ := by
  refine Reachable.invariant (M := Environment) (fun _ tr => ∀ i before written actor reason,
    (i, ⟨Effect.update before written actor reason, .ok ()⟩) ∈ tr →
      ∃ event, commitOf ⟨.update before written actor reason, .ok ()⟩ =
        some ⟨.swap before.actionId.val before written, event⟩) h (by simp) ?_ i _ _ _ _ hev
  intro t tr j p e r t' q hinv _ _ ha i before written actor reason hmem
  rcases List.mem_append.mp hmem with hmem | hmem
  · exact hinv i before written actor reason hmem
  · cases List.mem_singleton.mp hmem
    cases ha with
    | commit hok =>
      obtain ⟨event, hevent, -, -⟩ := update_eq_ok hok
      exact ⟨event, commitOf_update hevent⟩

/-- **The claim of an action commits at most once.** -/
theorem claims_le_one {c : Workers} (h : Reached c) (key : String) :
    (c.trace.countP fun x => claims key x.2) ≤ 1 := by
  have hp := commits_proper h
  have hone := (commits_written h).1.count_rank_le_one (fun r => r.state.stage)
    (fun k v hm => by
      obtain ⟨x, hx, hw⟩ := List.mem_map.mp hm
      rw [((hp x hx).insert k v hw).1]
      rfl)
    (fun k old new hm => by
      obtain ⟨x, hx, hw⟩ := List.mem_map.mp hm
      exact stage_transition ((hp x hx).swap k old new hw).transition) key 2
  rw [countP_versions, List.countP_map, commits, List.countP_filterMap] at hone
  refine le_trans (List.countP_mono_left ?_) hone
  rintro ⟨i, ev⟩ hmem hclaim
  obtain ⟨before, written, actor, reason, rfl, rfl, -, hstate⟩ := claims_iff.mp hclaim
  obtain ⟨event, hcommit⟩ := update_committed h hmem
  simp [hcommit, Write.key, Write.value, hstate, ActionState.stage]

/-- Two calls that claimed one action are one call. -/
theorem claimant_unique {c : Workers} (h : Reached c) {key : String} {i j : ℕ} {ev ev' : Event Worker}
    (hi : (i, ev) ∈ c.trace) (hj : (j, ev') ∈ c.trace) (hci : claims key ev) (hcj : claims key ev') :
    i = j :=
  congrArg Prod.fst (eq_of_countP_le_one (claims_le_one h key) hi hj hci hcj)

/-! ### Invocations -/

namespace RemediationBroker

variable {broker : RemediationBroker} {actionId subject : String} {record claimed : ActionRecord}
  {deadline now : Time} {g₁ g₂ h : History Worker} {q : Program Worker ActionRecord}

/-- An idle event invokes nothing. -/
theorem invokes_idle (key : String) {ev : Event Worker} (hev : Idle ev.effect) :
    invokes key ev = false := by
  obtain ⟨e, r⟩ := ev
  cases e with
  | execute => exact hev.elim
  | _ => rfl

theorem countP_invokes_idle (key : String) (hall : ∀ ev ∈ h, Idle ev.effect) :
    h.countP (invokes key) = 0 :=
  List.countP_eq_zero.mpr fun ev hev => by simp [invokes_idle key (hall ev hev)]

/-- What a transition may ask for. -/
theorem transition_path {state : ActionState} {reason : String} {result : Option EffectReceipt}
    (hpath : Path (ActionStore.transition record state subject reason none result) h q) :
    ∀ ev ∈ h, ev.effect = .utcNow ∨ ∃ written : ActionRecord,
      ev.effect = .update record written subject reason ∧ written.result = result ∧
        written.actionId = record.actionId := by
  have hwithin : Within (fun e : Effect => e = .utcNow ∨ ∃ written : ActionRecord,
      e = .update record written subject reason ∧ written.result = result ∧
        written.actionId = record.actionId)
      (ActionStore.transition record state subject reason none result) :=
    ActionStore.transition_within _ (.inl rfl) fun now written _ hw =>
      .inr ⟨written, rfl, by rw [hw]; rfl, by rw [hw]; rfl⟩
  exact (hwithin.path hpath).1

/-- A transition invokes nothing. -/
theorem countP_invokes_transition (key : String) {state : ActionState} {reason : String}
    {result : Option EffectReceipt}
    (hpath : Path (ActionStore.transition record state subject reason none result) h q) :
    h.countP (invokes key) = 0 := by
  refine List.countP_eq_zero.mpr fun ev hev => ?_
  rcases transition_path hpath ev hev with he | ⟨written, he, -⟩ <;> simp [invokes, he]

/-- Settling invokes nothing. -/
theorem countP_invokes_settle (key : String) {o : Option EffectReceipt}
    (hpath : Path (settle claimed subject o) h q) : h.countP (invokes key) = 0 := by
  cases o <;> exact countP_invokes_transition key hpath

/-- **A dispatch invokes the backend at most once**, under the digest of its own action. -/
theorem countP_invokes_dispatch (key : String) (hpath : Path (dispatch claimed subject deadline) h q) :
    h.countP (invokes key) ≤ if claimed.actionId.val = key then 1 else 0 := by
  rcases dispatch_path hpath with hidle | ⟨approval, h₁, h₂, -, rfl, hcase⟩
  · rw [countP_invokes_idle key hidle]
    exact Nat.zero_le _
  · rcases hcase with ⟨hr, ht⟩ | ⟨hr, r, h₃, rfl, hs⟩
    · rw [List.countP_append, countP_invokes_idle key ((authorized_idle ..).path hr).1,
        countP_invokes_transition key ht]
      exact Nat.zero_le _
    · rw [List.countP_append, countP_invokes_idle key ((authorized_idle ..).path hr).1,
        List.countP_cons, countP_invokes_settle key hs]
      simp [invokes]

/-- **Why a dispatch writes**: it was denied and invoked nothing, or it invoked the backend and the
reason says what came of it. -/
theorem dispatch_update (hpath : Path (dispatch claimed subject deadline) h q)
    {before written : ActionRecord} {actor reason : String} {r : Except Fault Unit}
    (hev : ⟨Effect.update before written actor reason, r⟩ ∈ h) :
    written.actionId = claimed.actionId ∧
      (reason = "DISPATCH_AUTHORITY_DENIED" ∧ (∀ key, h.countP (invokes key) = 0) ∨
        ∃ answer, ⟨Effect.execute claimed.proposal claimed.actionId.val, answer⟩ ∈ h ∧
          (reason = "EXECUTOR_RESULT_UNKNOWN" ∨ reason = "EXECUTOR_RESULT" ∧
            ∃ result, answer = .ok result ∧ written.result = some result)) := by
  have noUpdate : ∀ {g : History Worker}, (∀ ev ∈ g, Idle ev.effect) →
      ⟨Effect.update before written actor reason, r⟩ ∉ g := fun hg hm => hg _ hm
  rcases dispatch_path hpath with hidle | ⟨approval, h₁, h₂, -, rfl, hcase⟩
  · exact absurd hev (noUpdate hidle)
  rcases hcase with ⟨hr, ht⟩ | ⟨hr, answer, h₃, rfl, hs⟩
  · have hidle := ((authorized_idle ..).path hr).1
    rcases List.mem_append.mp hev with hev | hev
    · exact absurd hev (noUpdate hidle)
    rcases transition_path ht _ hev with he | ⟨w, he, -, hid⟩
    · cases he
    · cases he
      refine ⟨hid, .inl ⟨rfl, fun key => ?_⟩⟩
      rw [List.countP_append, countP_invokes_idle key hidle, countP_invokes_transition key ht]
  · have hmem : ⟨Effect.execute claimed.proposal claimed.actionId.val, answer⟩ ∈
        h₁ ++ ⟨Effect.execute claimed.proposal claimed.actionId.val, answer⟩ :: h₃ := by simp
    rcases List.mem_append.mp hev with hev | hev
    · exact absurd hev (noUpdate ((authorized_idle ..).path hr).1)
    rcases List.mem_cons.mp hev with hev | hev
    · cases hev
    cases hreceipt : receipt claimed answer with
    | none =>
      rw [hreceipt] at hs
      rcases transition_path hs _ hev with he | ⟨w, he, -, hid⟩
      · cases he
      · cases he
        exact ⟨hid, .inr ⟨answer, hmem, .inl rfl⟩⟩
    | some result =>
      rw [hreceipt] at hs
      rcases transition_path hs _ hev with he | ⟨w, he, hresult, hid⟩
      · cases he
      · cases he
        refine ⟨hid, .inr ⟨answer, hmem, .inr ⟨rfl, result, ?_, hresult⟩⟩⟩
        unfold receipt at hreceipt
        split at hreceipt
        · split_ifs at hreceipt
          rw [Option.some.inj hreceipt]
        · cases hreceipt

/-- The two events of a claim claim the action, and invoke nothing. -/
theorem Dispatched.claim (hd : broker.Dispatched actionId subject record claimed deadline now g₁ g₂ q) :
    record.state = .approved ∧ claimed.state = .executing ∧ claimed.actionId = record.actionId ∧
      claimed.proposal = record.proposal ∧ claimed.approval = record.approval := by
  refine ⟨?_, by rw [hd.wrote]; rfl, by rw [hd.wrote]; rfl, by rw [hd.wrote]; rfl, by rw [hd.wrote]; rfl⟩
  have ht := hd.transition
  revert ht
  cases record.state <;> simp [TRANSITIONS]

theorem Dispatched.claims_claimEvent
    (hd : broker.Dispatched actionId subject record claimed deadline now g₁ g₂ q) :
    claims claimed.actionId.val ⟨.update record claimed subject "DISPATCH", .ok ()⟩ := by
  obtain ⟨hs, hs', hid, -, -⟩ := hd.claim
  simp [claims, hs, hs', hid]

/-- Before a dispatch, nothing is invoked. -/
theorem Dispatched.countP_invokes
    (hd : broker.Dispatched actionId subject record claimed deadline now g₁ g₂ q) (key : String) :
    (g₁ ++ (claimEvents record claimed subject now ++ g₂)).countP (invokes key) =
      g₂.countP (invokes key) := by
  rw [List.countP_append, List.countP_append, countP_invokes_idle key hd.admitted.idle]
  simp [claimEvents, invokes]

/-- **A dispatched call claims what it invokes.** -/
theorem Dispatched.covered
    (hd : broker.Dispatched actionId subject record claimed deadline now g₁ g₂ q) (key : String) :
    (g₁ ++ (claimEvents record claimed subject now ++ g₂)).countP (invokes key) ≤
      (g₁ ++ (claimEvents record claimed subject now ++ g₂)).countP (claims key) := by
  rw [hd.countP_invokes]
  refine le_trans (countP_invokes_dispatch key hd.path) ?_
  split_ifs with hkey
  · subst hkey
    exact List.countP_pos_iff.mpr ⟨_, by simp [claimEvents], hd.claims_claimEvent⟩
  · exact Nat.zero_le _

end RemediationBroker

/-- **A call invokes only what it has claimed**, and that once. -/
theorem start_covered {p : Program Worker ActionRecord} (hp : Start p) (key : String) :
    Covered (invokes key) (claims key) p := by
  intro h q hpath
  by_cases hinvoked : ∃ ev ∈ h, invokes key ev = true
  · obtain ⟨ev, hev, hinv⟩ := hinvoked
    have hout : ¬PreClaim ev.effect := by
      obtain ⟨e, r⟩ := ev
      cases e with
      | execute => exact id
      | _ => cases hinv
    obtain ⟨broker, actionId, subject, record, claimed, deadline, now, g₁, g₂, rfl, hd, rfl, -⟩ :=
      past_claim hp hpath hev hout
    exact hd.covered key
  · push Not at hinvoked
    rw [List.countP_eq_zero.mpr fun ev hev => by simpa using hinvoked ev hev]
    exact Nat.zero_le _

/-- The backend is invoked at most once for each action. -/
theorem invoked_le_one {c : Workers} (h : Reached c) (key : String) :
    (c.trace.countP fun x => invokes key x.2) ≤ 1 :=
  (Reachable.count_le h fun _ hp => start_covered hp key).trans (claims_le_one h key)

/-- **An invocation is by the call whose claim committed.** -/
theorem invoked_by_claimant {c : Workers} (h : Reached c) {i : ℕ} {action : Action} {key : String}
    {r : Except Fault EffectReceipt} (hev : (i, ⟨Effect.execute action key, r⟩) ∈ c.trace) :
    ∃ before claimed subject g₁ g₂,
      Trace.own c.trace i = g₁ ++ ⟨Effect.update before claimed subject "DISPATCH", .ok ()⟩ :: g₂ ∧
        ⟨Effect.execute action key, r⟩ ∈ g₂ ∧ before.actionId.val = key ∧
          before.state = .approved ∧ claimed.state = .executing := by
  obtain ⟨p, q, hp, hpath⟩ := Reachable.own_path h hev
  obtain ⟨broker, actionId, subject, record, claimed, deadline, now, g₁, g₂, rfl, hd, hown, hmem⟩ :=
    past_claim hp hpath (mem_own.mpr hev) id
  obtain ⟨hs, hs', hid, -, -⟩ := hd.claim
  refine ⟨record, claimed, subject, g₁ ++ [⟨.utcNow, .ok now⟩], g₂, ?_, hmem, ?_, hs, hs'⟩
  · rw [hown]
    simp [RemediationBroker.claimEvents]
  · by_contra hne
    have hzero := RemediationBroker.countP_invokes_dispatch key hd.path
    rw [hid, if_neg hne, Nat.le_zero, List.countP_eq_zero] at hzero
    exact hzero _ hmem (by simp [invokes])

/-! ### What the audit says of the invocations -/

/-- **What the reason of a settled dispatch says of the invocations** of its action. -/
theorem settled {c : Workers} (h : Reached c) {i : ℕ} {before written : ActionRecord}
    {actor reason : String}
    (hev : (i, ⟨Effect.update before written actor reason, .ok ()⟩) ∈ c.trace)
    (happroved : reason ≠ "HUMAN_APPROVED") (hdispatch : reason ≠ "DISPATCH") :
    reason = "DISPATCH_AUTHORITY_DENIED" ∧
        (c.trace.countP fun x => invokes written.actionId.val x.2) = 0 ∨
      ∃ action answer, (i, ⟨Effect.execute action written.actionId.val, answer⟩) ∈ c.trace ∧
        (reason = "EXECUTOR_RESULT_UNKNOWN" ∨ reason = "EXECUTOR_RESULT" ∧
          ∃ result, answer = .ok result ∧ written.result = some result) := by
  obtain ⟨p, q, hp, hpath⟩ := Reachable.own_path h hev
  have hout : ¬PreClaim (Effect.update before written actor reason) := fun hpre =>
    hpre.elim happroved hdispatch
  obtain ⟨broker, actionId, subject, record, claimed, deadline, now, g₁, g₂, rfl, hd, hown, hmem⟩ :=
    past_claim hp hpath (mem_own.mpr hev) hout
  obtain ⟨hid, ⟨rfl, hzero⟩ | ⟨answer, hexecute, hcase⟩⟩ := RemediationBroker.dispatch_update hd.path hmem
  · refine .inl ⟨rfl, List.countP_eq_zero.mpr ?_⟩
    -- another invocation would need a second claim, and this call has none
    rintro ⟨j, ev⟩ hj hinvokes
    have hkey : ∃ action r, ev = ⟨Effect.execute action written.actionId.val, r⟩ := by
      obtain ⟨e, r⟩ := ev
      cases e with
      | execute action key => exact ⟨action, r, by rw [eq_of_beq hinvokes]⟩
      | _ => cases hinvokes
    obtain ⟨action, r, rfl⟩ := hkey
    obtain ⟨before', claimed', subject', k₁, k₂, hownj, -, hid', hs, hs'⟩ := invoked_by_claimant h hj
    have hclaimj : (j, ⟨Effect.update before' claimed' subject' "DISPATCH", .ok ()⟩) ∈ c.trace :=
      mem_own.mp (by rw [hownj]; simp)
    have hclaimi : (i, ⟨Effect.update record claimed subject "DISPATCH", .ok ()⟩) ∈ c.trace :=
      mem_own.mp (by rw [hown]; simp [RemediationBroker.claimEvents])
    have hij : i = j := claimant_unique h hclaimi hclaimj (hid ▸ hd.claims_claimEvent)
      (claims_iff.mpr ⟨_, _, _, _, rfl, hid', hs, hs'⟩)
    subst hij
    have hnone := hd.countP_invokes written.actionId.val
    rw [← hown, hzero, List.countP_eq_zero] at hnone
    exact hnone _ (mem_own.mpr hj) hinvokes
  · refine .inr ⟨claimed.proposal, answer, mem_own.mp ?_, hcase⟩
    rw [hown, hid]
    exact List.mem_append_right _ (List.mem_append_right _ hexecute)

/-- The last audit event of an action is of the commit that wrote its record. -/
theorem lastReason_commit {c : Workers} (h : Reached c) {key reason : String} {record : ActionRecord}
    (hrow : c.shared.actions key = some record) (hreason : c.shared.lastReason key = some reason)
    (hnew : reason ≠ "POLICY_REVIEWED") :
    ∃ i before actor, (i, ⟨Effect.update before record actor reason, .ok ()⟩) ∈ c.trace ∧
      record.actionId.val = key := by
  have hrefines := commits_written h
  have hp := commits_proper h
  unfold Tables.lastReason at hreason
  rw [auditOf_eq key hrefines hp, List.getLast?_map, Option.map_map] at hreason
  obtain ⟨x, hlast, hx⟩ := Option.map_eq_some_iff.mp hreason
  have hversion := hrefines.1.getLast?_versions key
  rw [versions_ofAction, List.getLast?_map, hlast, hrow, Option.map_some] at hversion
  have hvalue : x.write.value = record := Option.some.inj hversion
  obtain ⟨hmem, hkey⟩ := List.mem_filter.mp (List.mem_of_getLast? hlast)
  obtain ⟨⟨i, ev⟩, hev, hcommit⟩ := List.mem_filterMap.mp hmem
  have hrecord : record.actionId.val = key := by
    rw [← hvalue, ← (hp x hmem).key]
    exact of_decide_eq_true hkey
  rcases commitOf_eq_some hcommit with ⟨r, actor, why, rfl, -, he⟩ | ⟨before, written, actor, why, rfl, hw, he⟩
  · have hproper : Proper (.insert r actor why) := Reachable.within h (fun _ hp => start_proper hp) hev
    exact absurd (hx.symm.trans ((auditEvent_eq_ok he).2.2.2.2.trans hproper.2)) hnew
  · obtain rfl : written = record := by rw [← hvalue, hw]; rfl
    obtain rfl : why = reason := (auditEvent_eq_ok he).2.2.2.2.symm.trans hx
    exact ⟨i, before, actor, hev, hrecord⟩

/-- **Main result: effects are at most once.** For every action the backend is invoked at most once,
only by a call whose own claim committed; and the audit reason of a terminal record says whether it
was invoked, and with which receipt. -/
theorem effects_at_most_once {c : Workers} (h : Reached c) (key : String) :
    (c.trace.countP fun x => invokes key x.2) ≤ 1 ∧
    (∀ i action r, (i, ⟨Effect.execute action key, r⟩) ∈ c.trace →
      ∃ before claimed subject g₁ g₂,
        Trace.own c.trace i = g₁ ++ ⟨Effect.update before claimed subject "DISPATCH", .ok ()⟩ :: g₂ ∧
          ⟨Effect.execute action key, r⟩ ∈ g₂ ∧ before.actionId.val = key ∧
            before.state = .approved ∧ claimed.state = .executing) ∧
    (∀ record, c.shared.actions key = some record → record.state.Terminal →
      (c.shared.lastReason key = some "EXECUTOR_RESULT" →
        (c.trace.countP fun x => invokes key x.2) = 1 ∧ ∃ i action result,
          (i, ⟨Effect.execute action key, .ok result⟩) ∈ c.trace ∧ record.result = some result) ∧
      (c.shared.lastReason key = some "EXECUTOR_RESULT_UNKNOWN" →
        (c.trace.countP fun x => invokes key x.2) = 1) ∧
      (c.shared.lastReason key = some "DISPATCH_AUTHORITY_DENIED" →
        (c.trace.countP fun x => invokes key x.2) = 0)) := by
  have hone := invoked_le_one h key
  have exactly : ∀ {i action answer}, (i, ⟨Effect.execute action key, answer⟩) ∈ c.trace →
      (c.trace.countP fun x => invokes key x.2) = 1 := fun hev =>
    le_antisymm hone (List.countP_pos_iff.mpr ⟨_, hev, by simp [invokes]⟩)
  refine ⟨hone, fun i action r => invoked_by_claimant h, fun record hrow _ => ⟨?_, ?_, ?_⟩⟩
  · intro hreason
    obtain ⟨i, before, actor, hev, rfl⟩ := lastReason_commit h hrow hreason (by decide)
    rcases settled h hev (by decide) (by decide) with ⟨hr, -⟩ | ⟨action, answer, hexecute, hr | ⟨-, hr⟩⟩
    · exact absurd hr (by decide)
    · exact absurd hr (by decide)
    · obtain ⟨result, rfl, hresult⟩ := hr
      exact ⟨exactly hexecute, i, action, result, hexecute, hresult⟩
  · intro hreason
    obtain ⟨i, before, actor, hev, rfl⟩ := lastReason_commit h hrow hreason (by decide)
    rcases settled h hev (by decide) (by decide) with ⟨hr, -⟩ | ⟨action, answer, hexecute, -⟩
    · exact absurd hr (by decide)
    · exact exactly hexecute
  · intro hreason
    obtain ⟨i, before, actor, hev, rfl⟩ := lastReason_commit h hrow hreason (by decide)
    rcases settled h hev (by decide) (by decide) with ⟨-, hzero⟩ | ⟨_, _, -, hr | ⟨hr, -⟩⟩
    · exact hzero
    · exact absurd hr (by decide)
    · exact absurd hr (by decide)

end PayOps.Remediation

namespace PayOps.Remediation

attribute [local instance] samplePlatform

/-- In the sample run the backend is invoked once. -/
theorem effects_at_most_once_sample :
    (sampleRun.trace.countP fun x => invokes sampleKey x.2) = 1 := by
  obtain ⟨record, hrow, hstate⟩ := Option.map_eq_some_iff.mp sampleRun_ended.2
  have hterminal : record.state.Terminal := by rw [hstate]; rfl
  exact (((effects_at_most_once sampleRun_reached sampleKey).2.2 record hrow hterminal).1
    sampleRun_ended.1).1

end PayOps.Remediation
