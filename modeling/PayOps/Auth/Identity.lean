import PayOps.Faults
import PayOps.Policy.Engine
import PayOps.Process.Assures

/-!
# The identity service

`IdentityService` of `payops.auth.identity`: a principal has the roles that its account grants when it is asked for, it
lasts for sixty seconds at most, and it never outlives the token it was authenticated by.

## The model

The provider of identities and the clock are asked for by effects, as the switch of the emulator is. The provider is a
directory of accounts that may change at any time, and the tokens that it has signed; a request takes any time.

## What is proved

* `account_runs`, `claims_runs`, `principalOf_runs` — what a check that did not raise has read.
* `principal_runs`, `authenticate_runs` — **exactly** what is read before a principal is given.
* `principal_issued` — the grants of a principal are those of an account that was looked up no earlier than it says.
* `session_current` — **main result**: whoever is authenticated held a session that was not revoked, of a token of this
  project and tenant, and is valid for as long as both allow.
-/

namespace PayOps.Process

open Program

variable {I : Interface} {σ α : Type}

/-! ### Answers along a history -/

/-- The machine may answer the requests of a history one after the other. -/
def Answers (M : Machine I σ) (s : σ) : History I → σ → Prop
  | [], s' => s' = s
  | ev :: h, s' => ∃ mid, M.answer s ev.effect ev.reply mid ∧ Answers M mid h s'

/-- **A run of the machine** is a path of the program with answers of the machine. -/
theorem performs_iff {M : Machine I σ} {p q : Program I α} {h : History I} {s s' : σ} :
    Performs M p s h q s' ↔ Path p h q ∧ Answers M s h s' := by
  constructor
  · intro hp
    induction hp with
    | refl => exact ⟨.refl, rfl⟩
    | step ha _ ih => exact ⟨.step ih.1, _, ha, ih.2⟩
  · rintro ⟨hp, ha⟩
    induction hp generalizing s with
    | refl =>
      obtain rfl := ha
      exact .refl
    | step _ ih =>
      obtain ⟨mid, hmid, hrest⟩ := ha
      exact .step hmid (ih hrest)

theorem answers_append {M : Machine I σ} {s s' : σ} {h₁ h₂ : History I} :
    Answers M s (h₁ ++ h₂) s' ↔ ∃ mid, Answers M s h₁ mid ∧ Answers M mid h₂ s' := by
  induction h₁ generalizing s with
  | nil => exact ⟨fun ha => ⟨s, rfl, ha⟩, by rintro ⟨_, rfl, ha⟩; exact ha⟩
  | cons ev h₁ ih =>
    constructor
    · rintro ⟨next, hnext, ha⟩
      obtain ⟨mid, hfirst, hrest⟩ := ih.mp ha
      exact ⟨mid, ⟨next, hnext, hfirst⟩, hrest⟩
    · rintro ⟨mid, ⟨next, hnext, hfirst⟩, hrest⟩
      exact ⟨next, hnext, ih.mpr ⟨mid, hfirst, hrest⟩⟩

/-- A handled program returns what its body does. -/
theorem Runs.handled {p : Program I α} {f : I.Fault → Program I α} {h : History I} {a : α}
    (hp : Runs p h (.ok a)) : Runs (p.tryCatch f) h (.ok a) := by
  induction p generalizing h with
  | done b => exact hp
  | fail x => cases (runs_fail.mp hp).2
  | call e k ih =>
    rcases path_call.mp hp with ⟨-, hcall⟩ | ⟨r, h', rfl, hrest⟩
    · cases hcall
    · exact .step (ih r hrest)

end PayOps.Process

namespace PayOps.Auth

open Policy Process Program
open Json (field asArr asStr asInt)

/-! ### Settings, accounts and tokens -/

/-- `^[a-z][a-z0-9-]{4,28}[a-z0-9]$`. -/
def projectIdOk (s : String) : Bool :=
  match s.toList with
  | [] => false
  | c :: cs =>
    c.isLower && 5 ≤ cs.length && cs.length ≤ 29 && cs.dropLast.all (fun d => d.isLower || d.isDigit || d == '-') &&
      cs.getLast?.all fun d => d.isLower || d.isDigit

/-- A bearer token is of visible ASCII. -/
def bearerOk (token : String) : Bool :=
  0 < token.toList.length && token.toList.length ≤ 8192 && token.toList.all fun c => 33 ≤ c.toNat && c.toNat ≤ 126

/-- A literal of `Role`. -/
def roleOf : String → Option Role
  | "viewer" => some .viewer
  | "responder" => some .responder
  | "approver" => some .approver
  | "executor" => some .executor
  | _ => none

variable [Platform]

/-- `IdentitySettings`: the project and the tenant, if there is one. -/
structure IdentitySettings where
  /-- The project. -/
  projectId : String
  /-- The tenant. -/
  tenantId : Option Identifier
  /-- The pattern of `project_id`. -/
  project_ok : projectIdOk projectId = true

/-- `Account`: what is kept of an account of the provider. -/
structure Account where
  /-- Whose it is. -/
  subject : Identifier
  /-- A disabled account grants nothing. -/
  disabled : Bool
  /-- Its tenant. -/
  tenantId : Option Identifier
  /-- Sessions from before this are revoked. -/
  tokensValidAfter : Time
  /-- The grants, as they are stored. -/
  grants : JsonObject

/-- `Grants`: the roles, and where they hold. -/
structure Grants where
  /-- The roles. -/
  roles : List Role
  /-- The namespaces. -/
  nameSpaces : List Identifier
  /-- `Field(min_length=1, max_length=4)`. -/
  roles_bounded : 1 ≤ roles.length ∧ roles.length ≤ 4
  /-- `Field(min_length=1, max_length=8)`. -/
  nameSpaces_bounded : 1 ≤ nameSpaces.length ∧ nameSpaces.length ≤ 8

omit [Platform] in
/-- A tuple of texts that are all accepted. -/
def tupleField {α : Type} (item : String → Option α) (fields : JsonObject) (key : String) : Option (List α) := do
  (← (← field fields key).asArr).mapM fun x => x.asStr.bind item

/-- `Grants.model_validate(fields)`. -/
def Grants.modelValidate (fields : JsonObject) : Except Fault Grants :=
  match tupleField roleOf fields "roles", tupleField Identifier.validate fields "namespaces" with
  | some roles, some nameSpaces =>
    if h : (1 ≤ roles.length ∧ roles.length ≤ 4) ∧ (1 ≤ nameSpaces.length ∧ nameSpaces.length ≤ 8) ∧
        fields.all (fun f => ["roles", "namespaces"].contains f.1) = true then
      .ok ⟨roles, nameSpaces, h.1, h.2.1⟩
    else .error (.value "ValidationError")
  | _, _ => .error (.value "ValidationError")

/-- `TokenClaims`: what is read of the claims of a token; the times are in whole seconds. -/
structure TokenClaims where
  /-- Whose token it is. -/
  sub : Identifier
  /-- The project it is for. -/
  aud : String
  /-- Who issued it. -/
  iss : String
  /-- When it was issued. -/
  iat : ℕ
  /-- When it expires. -/
  exp : ℕ
  /-- When the session began. -/
  authTime : ℕ
  /-- What the provider adds. -/
  firebase : JsonObject
  /-- `Field(ge=0, le=4102444800, strict=True)`. -/
  bounded : iat ≤ 4102444800 ∧ exp ≤ 4102444800 ∧ authTime ≤ 4102444800

omit [Platform] in
/-- A field of whole seconds. -/
def secondsField (fields : JsonObject) (key : String) : Option ℕ := do
  let n ← (← field fields key).asInt
  if 0 ≤ n then some n.toNat else none

/-- `TokenClaims.model_validate(fields)`; other fields are ignored. -/
def TokenClaims.modelValidate (fields : JsonObject) : Except Fault TokenClaims :=
  match Action.identifierField fields "sub", (field fields "aud").bind asStr, (field fields "iss").bind asStr,
    secondsField fields "iat", secondsField fields "exp", secondsField fields "auth_time", field fields "firebase" with
  | some sub, some aud, some iss, some iat, some exp, some authTime, some (.obj firebase) =>
    if h : iat ≤ 4102444800 ∧ exp ≤ 4102444800 ∧ authTime ≤ 4102444800 then
      .ok ⟨sub, aud, iss, iat, exp, authTime, firebase, h⟩
    else .error (.value "ValidationError")
  | _, _, _, _, _, _, _ => .error (.value "ValidationError")

/-- `claims.firebase.get("tenant") == self.settings.tenant_id`. -/
def tenantMatches (firebase : JsonObject) (tenant : Option Identifier) : Bool :=
  match field firebase "tenant", tenant with
  | none, none => true
  | some .null, none => true
  | some (.str s), some t => s == t.val
  | _, _ => false

/-- The claims are of this project and tenant, and current. Whole seconds up to the year 2100 are compared with a
float of microseconds as the numbers are. -/
def InScope (settings : IdentitySettings) (claims : TokenClaims) (now : Time) : Prop :=
  claims.aud = settings.projectId ∧ claims.iss = "https://securetoken.google.com/" ++ settings.projectId ∧
    tenantMatches claims.firebase settings.tenantId = true ∧
    (claims.authTime ≤ claims.iat ∧ seconds claims.iat ≤ now ∧ now < seconds claims.exp) ∧
    claims.exp ≤ claims.iat + 3600

instance (settings : IdentitySettings) (claims : TokenClaims) (now : Time) : Decidable (InScope settings claims now) :=
  inferInstanceAs (Decidable (_ ∧ _))

/-- The account is the subject's own, enabled, and of the tenant. -/
def Available (settings : IdentitySettings) (subject : String) (account : Account) : Prop :=
  account.subject.val = subject ∧ account.disabled = false ∧ account.tenantId = settings.tenantId

instance (settings : IdentitySettings) (subject : String) (account : Account) :
    Decidable (Available settings subject account) := inferInstanceAs (Decidable (_ ∧ _))

/-! ### What the service asks of its environment -/

/-- One request of the service. -/
inductive Effect where
  /-- `os.environ.get("FIREBASE_AUTH_EMULATOR_HOST") is not None`. -/
  | emulator
  /-- `utc_now()`. -/
  | utcNow
  /-- `source.verify(token)`. -/
  | verify (token : String)
  /-- `source.lookup(subject)`. -/
  | lookup (subject : String)

/-- The reply to a request. -/
abbrev Effect.Reply : Effect → Type
  | emulator => Bool
  | utcNow => Time
  | verify _ => JsonObject
  | lookup _ => Account

/-- The interface of the service. -/
abbrev Source : Interface := ⟨Effect, Effect.Reply, Fault⟩

/-- One request. -/
def ask (e : Effect) : Program Source e.Reply := perform (I := Source) e

/-! ### The service -/

/-- `reject_emulator`. -/
def rejectEmulator : Program Source Unit := do
  let set ← ask .emulator
  raiseIf (set = true) (.value "Identity Platform emulator is not an operational identity source")

namespace IdentityService

variable (settings : IdentitySettings)

/-- `_account`: the account, and the time from before it was looked up. -/
def account (subject : String) : Program Source (Account × Time) := do
  rejectEmulator
  let started ← ask .utcNow
  let found ← ask (.lookup subject)
  -- the clock is not read again for an account that is refused anyway
  raiseIf (¬Available settings subject found) (.value "account unavailable")
  let now ← ask .utcNow
  raiseIf (¬(0 ≤ now - started ∧ now - started ≤ seconds 60)) (.value "account unavailable")
  return (found, started)

/-- `_claims`. -/
def claims (token : String) : Program Source TokenClaims := do
  rejectEmulator
  raiseIf (bearerOk token = false) (.value "malformed bearer")
  let fields ← ask (.verify token)
  let read ← ofResult (TokenClaims.modelValidate fields)
  let now ← ask .utcNow
  raiseIf (¬InScope settings read now) (.value "invalid token scope")
  return read

/-- When a principal expires: sixty seconds after its account was asked for, and no later than its token. -/
def expiresAt (observedAt : Time) (expiry : Option Time) : Time :=
  (expiry.map fun t => min t (observedAt + seconds 60)).getD (observedAt + seconds 60)

/-- The principal that an account and its grants make. -/
def granted (found : Account) (grants : Grants) (observedAt : Time) (expiry : Option Time) : Principal where
  subject := found.subject
  roles := grants.roles
  nameSpaces := grants.nameSpaces
  verifiedAt := observedAt
  expiresAt := expiresAt observedAt expiry
  roles_bounded := grants.roles_bounded
  nameSpaces_bounded := grants.nameSpaces_bounded

/-- `_principal`. -/
def principalOf (found : Account) (observedAt : Time) (expiry : Option Time) : Program Source Principal := do
  let grants ← ofResult (Grants.modelValidate found.grants)
  let now ← ask .utcNow
  raiseIf (expiresAt observedAt expiry ≤ now) (.value "identity expired")
  return granted found grants observedAt expiry

/-- `authenticate`. -/
def authenticate (token : String) : Program Source Principal :=
  try do
    let read ← claims settings token
    let (found, observedAt) ← account settings read.sub.val
    raiseIf (seconds read.authTime < found.tokensValidAfter) (.value "session revoked")
    principalOf found observedAt (some (seconds read.exp))
  catch _ => throw (.permission "AUTHENTICATION_DENIED")

/-- `principal`. -/
def principal (subject : String) : Program Source (Option Principal) :=
  try do
    let (found, observedAt) ← account settings subject
    let p ← principalOf found observedAt none
    pure (some p)
  catch _ => pure none

/-! ### What the checks have read -/

section Runs

variable {settings} {h : History Source}

/-- The events of a check of the emulator's switch, which is not set. -/
theorem rejectEmulator_runs {α : Type} {f : Unit → Program Source α} {a : α} :
    Runs (rejectEmulator.bind f) h (.ok a) ↔ ∃ h', h = ⟨Effect.emulator, .ok false⟩ :: h' ∧ Runs (f ()) h' (.ok a) := by
  unfold rejectEmulator ask
  rw [bind_eq, bind_assoc, runs_perform_bind_ok]
  constructor
  · rintro ⟨set, h', rfl, hr⟩
    obtain ⟨hset, hr⟩ := runs_raiseIf_bind_ok.mp hr
    obtain rfl : set = false := Bool.eq_false_of_not_eq_true hset
    exact ⟨h', rfl, hr⟩
  · rintro ⟨h', rfl, hr⟩
    exact ⟨false, h', rfl, runs_raiseIf_bind_ok.mpr ⟨Bool.false_ne_true, hr⟩⟩

/-- **An account that was not refused** is available, and was answered within sixty seconds. -/
theorem account_runs {subject : String} {found : Account} {started : Time} :
    Runs (account settings subject) h (.ok (found, started)) ↔ ∃ now,
      h = [⟨Effect.emulator, .ok false⟩, ⟨Effect.utcNow, .ok started⟩, ⟨Effect.lookup subject, .ok found⟩,
        ⟨Effect.utcNow, .ok now⟩] ∧
      Available settings subject found ∧ 0 ≤ now - started ∧ now - started ≤ seconds 60 := by
  unfold account
  rw [bind_eq, rejectEmulator_runs]
  constructor
  · rintro ⟨h₁, rfl, hr₁⟩
    obtain ⟨_, h₂, rfl, hr₂⟩ := runs_perform_bind_ok.mp hr₁
    obtain ⟨_, h₃, rfl, hr₃⟩ := runs_perform_bind_ok.mp hr₂
    obtain ⟨havailable, hr₄⟩ := runs_raiseIf_bind_ok.mp hr₃
    obtain ⟨now, h₄, rfl, hr₅⟩ := runs_perform_bind_ok.mp hr₄
    obtain ⟨hprompt, hr₆⟩ := runs_raiseIf_bind_ok.mp hr₅
    obtain ⟨rfl, hpair⟩ := runs_done.mp hr₆
    cases hpair
    exact ⟨now, rfl, not_not.mp havailable, not_not.mp hprompt⟩
  · rintro ⟨now, rfl, havailable, hprompt⟩
    refine ⟨_, rfl, runs_perform_bind_ok.mpr ⟨started, _, rfl, runs_perform_bind_ok.mpr ⟨found, _, rfl, ?_⟩⟩⟩
    refine runs_raiseIf_bind_ok.mpr ⟨not_not.mpr havailable, runs_perform_bind_ok.mpr ⟨now, _, rfl, ?_⟩⟩
    exact runs_raiseIf_bind_ok.mpr ⟨not_not.mpr hprompt, runs_done.mpr ⟨rfl, rfl⟩⟩

/-- **Claims that were not refused** are those of a well-formed token that was verified, and in scope. -/
theorem claims_runs {token : String} {read : TokenClaims} :
    Runs (claims settings token) h (.ok read) ↔ ∃ fields now,
      h = [⟨Effect.emulator, .ok false⟩, ⟨Effect.verify token, .ok fields⟩, ⟨Effect.utcNow, .ok now⟩] ∧
      bearerOk token = true ∧ TokenClaims.modelValidate fields = .ok read ∧ InScope settings read now := by
  unfold claims
  rw [bind_eq, rejectEmulator_runs]
  constructor
  · rintro ⟨h₁, rfl, hr₁⟩
    obtain ⟨hbearer, hr₂⟩ := runs_raiseIf_bind_ok.mp hr₁
    obtain ⟨fields, h₂, rfl, hr₃⟩ := runs_perform_bind_ok.mp hr₂
    obtain ⟨read', hread, hr₄⟩ := runs_ofResult_bind_ok.mp hr₃
    obtain ⟨now, h₃, rfl, hr₅⟩ := runs_perform_bind_ok.mp hr₄
    obtain ⟨hscope, hr₆⟩ := runs_raiseIf_bind_ok.mp hr₅
    obtain ⟨rfl, hsame⟩ := runs_done.mp hr₆
    cases hsame
    exact ⟨fields, now, rfl, Bool.eq_true_of_not_eq_false hbearer, hread, not_not.mp hscope⟩
  · rintro ⟨fields, now, rfl, hbearer, hread, hscope⟩
    refine ⟨_, rfl, runs_raiseIf_bind_ok.mpr ⟨by simp [hbearer], runs_perform_bind_ok.mpr ⟨fields, _, rfl, ?_⟩⟩⟩
    refine runs_ofResult_bind_ok.mpr ⟨read, hread, runs_perform_bind_ok.mpr ⟨now, _, rfl, ?_⟩⟩
    exact runs_raiseIf_bind_ok.mpr ⟨not_not.mpr hscope, runs_done.mpr ⟨rfl, rfl⟩⟩

/-- **A principal that was not refused** has the grants of its account, and has not expired yet. -/
theorem principalOf_runs {found : Account} {observedAt : Time} {expiry : Option Time} {p : Principal} :
    Runs (principalOf found observedAt expiry) h (.ok p) ↔ ∃ grants now, h = [⟨Effect.utcNow, .ok now⟩] ∧
      Grants.modelValidate found.grants = .ok grants ∧ now < expiresAt observedAt expiry ∧
      p = granted found grants observedAt expiry := by
  unfold principalOf
  rw [bind_eq, runs_ofResult_bind_ok]
  constructor
  · rintro ⟨grants, hgrants, hr₁⟩
    obtain ⟨now, h₁, rfl, hr₂⟩ := runs_perform_bind_ok.mp hr₁
    obtain ⟨hlater, hr₃⟩ := runs_raiseIf_bind_ok.mp hr₂
    obtain ⟨rfl, hsame⟩ := runs_done.mp hr₃
    exact ⟨grants, now, rfl, hgrants, not_le.mp hlater, Except.ok.inj hsame⟩
  · rintro ⟨grants, now, rfl, hgrants, hlater, rfl⟩
    refine ⟨grants, hgrants, runs_perform_bind_ok.mpr ⟨now, _, rfl, ?_⟩⟩
    exact runs_raiseIf_bind_ok.mpr ⟨not_le.mpr hlater, runs_done.mpr ⟨rfl, rfl⟩⟩

/-- **What `principal` has read** when it gives one. -/
theorem principal_runs {subject : String} {p : Principal} :
    Runs (principal settings subject) h (.ok (some p)) ↔ ∃ found started h₁ h₂, h = h₁ ++ h₂ ∧
      Runs (account settings subject) h₁ (.ok (found, started)) ∧ Runs (principalOf found started none) h₂ (.ok p) := by
  constructor
  · intro hr
    rcases runs_tryCatch hr with ⟨given, hgiven, hbody⟩ | ⟨x, h₁, h₂, rfl, -, hhandler⟩
    · cases hgiven
      obtain ⟨⟨found, started⟩, h₁, h₂, rfl, haccount, hrest⟩ := runs_bind_ok.mp hbody
      obtain ⟨p', h₃, h₄, rfl, hmade, hdone⟩ := runs_bind_ok.mp hrest
      obtain ⟨rfl, hsame⟩ := runs_done.mp hdone
      cases hsame
      exact ⟨found, started, h₁, h₃, by rw [List.append_nil], haccount, hmade⟩
    · cases (runs_done.mp hhandler).2
  · rintro ⟨found, started, h₁, h₂, rfl, haccount, hmade⟩
    refine Runs.handled (runs_bind_ok.mpr ⟨(found, started), h₁, h₂, rfl, haccount, ?_⟩)
    exact runs_bind_ok.mpr ⟨p, h₂, [], (List.append_nil h₂).symm, hmade, runs_done.mpr ⟨rfl, rfl⟩⟩

/-- **What `authenticate` has read** when it returns. -/
theorem authenticate_runs {token : String} {p : Principal} :
    Runs (authenticate settings token) h (.ok p) ↔ ∃ read found started h₁ h₂ h₃, h = h₁ ++ (h₂ ++ h₃) ∧
      Runs (claims settings token) h₁ (.ok read) ∧
      Runs (account settings read.sub.val) h₂ (.ok (found, started)) ∧
      found.tokensValidAfter ≤ seconds read.authTime ∧
      Runs (principalOf found started (some (seconds read.exp))) h₃ (.ok p) := by
  constructor
  · intro hr
    rcases runs_tryCatch hr with ⟨p', hsame, hbody⟩ | ⟨x, h₁, h₂, rfl, -, hhandler⟩
    · cases hsame
      obtain ⟨read, h₁, h₂, rfl, hclaims, hrest⟩ := runs_bind_ok.mp hbody
      obtain ⟨⟨found, started⟩, h₃, h₄, rfl, haccount, hlast⟩ := runs_bind_ok.mp hrest
      obtain ⟨hsession, hmade⟩ := runs_raiseIf_bind_ok.mp hlast
      exact ⟨read, found, started, h₁, h₃, h₄, rfl, hclaims, haccount, not_lt.mp hsession, hmade⟩
    · cases (runs_fail.mp hhandler).2
  · rintro ⟨read, found, started, h₁, h₂, h₃, rfl, hclaims, haccount, hsession, hmade⟩
    refine Runs.handled (runs_bind_ok.mpr ⟨read, h₁, _, rfl, hclaims, ?_⟩)
    refine runs_bind_ok.mpr ⟨(found, started), h₂, h₃, rfl, haccount, ?_⟩
    exact runs_raiseIf_bind_ok.mpr ⟨not_lt.mpr hsession, hmade⟩

end Runs

end IdentityService

/-! ### The provider -/

/-- A provider: its accounts at every time, and the claims of the tokens that it has signed. -/
structure Provider where
  /-- The account of a subject. -/
  accounts : Time → String → Option Account
  /-- The claims of a token. -/
  signed : String → Option JsonObject

namespace Provider

/-- The answers of the environment, whose state is the time. A request may fail in any case. -/
inductive Answer (provider : Provider) (t : Time) : (e : Effect) → Except Fault e.Reply → Time → Prop where
  /-- The request fails. -/
  | fails {e : Effect} {x : Fault} {t' : Time} : t ≤ t' → Answer provider t e (.error x) t'
  /-- The switch may be set or not. -/
  | emulator {set : Bool} {t' : Time} : t ≤ t' → Answer provider t .emulator (.ok set) t'
  /-- The clock is right. -/
  | utcNow {t' : Time} : t ≤ t' → Answer provider t .utcNow (.ok t') t'
  /-- The claims of a signed token. -/
  | verify {token : String} {fields : JsonObject} {t' : Time} : t ≤ t' → provider.signed token = some fields →
      Answer provider t (.verify token) (.ok fields) t'
  /-- The account, as it is when it is looked up. -/
  | lookup {subject : String} {found : Account} {t' : Time} : t ≤ t' → provider.accounts t' subject = some found →
      Answer provider t (.lookup subject) (.ok found) t'

/-- The environment of the service. -/
def World (provider : Provider) : Machine Source Time := ⟨provider.Answer⟩

variable {provider : Provider} {t t' : Time}

theorem answer_le {e : Effect} {r : Except Fault e.Reply} (h : provider.Answer t e r t') : t ≤ t' := by
  cases h <;> assumption

@[simp] theorem answer_utcNow {now : Time} : provider.Answer t .utcNow (.ok now) t' ↔ t ≤ t' ∧ now = t' :=
  ⟨by rintro ⟨⟩; exact ⟨‹_›, rfl⟩, by rintro ⟨h, rfl⟩; exact .utcNow h⟩

@[simp] theorem answer_verify {token : String} {fields : JsonObject} :
    provider.Answer t (.verify token) (.ok fields) t' ↔ t ≤ t' ∧ provider.signed token = some fields :=
  ⟨by rintro ⟨⟩; exact ⟨‹_›, ‹_›⟩, fun h => .verify h.1 h.2⟩

@[simp] theorem answer_lookup {subject : String} {found : Account} :
    provider.Answer t (.lookup subject) (.ok found) t' ↔ t ≤ t' ∧ provider.accounts t' subject = some found :=
  ⟨by rintro ⟨⟩; exact ⟨‹_›, ‹_›⟩, fun h => .lookup h.1 h.2⟩

end Provider

open Provider IdentityService

/-! ### What a principal stands for -/

variable {provider : Provider} {settings : IdentitySettings} {t₀ t₁ : Time}

/-- At `t`, the subject's account is available and grants the role in the namespace. -/
def Holds (provider : Provider) (settings : IdentitySettings) (t : Time) (subject : String) (role : Role)
    (nameSpace : Identifier) : Prop :=
  ∃ found grants, provider.accounts t subject = some found ∧ Available settings subject found ∧
    Grants.modelValidate found.grants = .ok grants ∧ role ∈ grants.roles ∧ nameSpace ∈ grants.nameSpaces

/-- In a run from `t₀` to `t₁`, the service gives `p` for the subject. -/
def Issues (provider : Provider) (settings : IdentitySettings) (subject : String) (p : Principal) (t₀ t₁ : Time) :
    Prop :=
  ∃ h, Performs (World provider) (principal settings subject) t₀ h (ofResult (.ok (some p))) t₁

/-- **An account that was given** is that of a time after the service asked for it. -/
theorem account_current {subject : String} {found : Account} {started : Time} {h : History Source}
    (hr : Runs (account settings subject) h (.ok (found, started))) (ha : Answers (World provider) t₀ h t₁) :
    ∃ t, t₀ ≤ started ∧ started ≤ t ∧ t ≤ t₁ ∧ provider.accounts t subject = some found := by
  obtain ⟨now, rfl, -, -⟩ := account_runs.mp hr
  obtain ⟨s₁, h₁, s₂, h₂, s₃, h₃, s₄, h₄, rfl⟩ := ha
  obtain ⟨hle₂, rfl⟩ := answer_utcNow.mp h₂
  obtain ⟨hle₃, hfound⟩ := answer_lookup.mp h₃
  exact ⟨s₃, (answer_le h₁).trans hle₂, hle₃, answer_le h₄, hfound⟩

/-- **Claims that were given** are those of a signed token, in scope at a time of the run. -/
theorem claims_current {token : String} {read : TokenClaims} {h : History Source}
    (hr : Runs (claims settings token) h (.ok read)) (ha : Answers (World provider) t₀ h t₁) :
    t₀ ≤ t₁ ∧ InScope settings read t₁ ∧
      ∃ fields, provider.signed token = some fields ∧ TokenClaims.modelValidate fields = .ok read := by
  obtain ⟨fields, now, rfl, -, hread, hscope⟩ := claims_runs.mp hr
  obtain ⟨s₁, h₁, s₂, h₂, s₃, h₃, rfl⟩ := ha
  obtain ⟨hle₂, hsigned⟩ := answer_verify.mp h₂
  obtain ⟨hle₃, rfl⟩ := answer_utcNow.mp h₃
  exact ⟨((answer_le h₁).trans hle₂).trans hle₃, hscope, fields, hsigned, hread⟩

/-- **A principal that was given** has not expired when the run ends. -/
theorem principalOf_current {found : Account} {observedAt : Time} {expiry : Option Time} {p : Principal}
    {h : History Source} (hr : Runs (principalOf found observedAt expiry) h (.ok p))
    (ha : Answers (World provider) t₀ h t₁) :
    t₀ ≤ t₁ ∧ t₁ < expiresAt observedAt expiry ∧
      ∃ grants, Grants.modelValidate found.grants = .ok grants ∧ p = granted found grants observedAt expiry := by
  obtain ⟨grants, now, rfl, hgrants, hlater, hp⟩ := principalOf_runs.mp hr
  obtain ⟨s₁, h₁, rfl⟩ := ha
  obtain ⟨hle, rfl⟩ := answer_utcNow.mp h₁
  exact ⟨hle, hlater, grants, hgrants, hp⟩

/-- A principal of at most sixty seconds that is valid at `now`. -/
theorem valid_granted {found : Account} {grants : Grants} {observedAt now : Time} {expiry : Option Time} {role : Role}
    {nameSpace : Identifier}
    (h : identityValid (some (granted found grants observedAt expiry)) role nameSpace now = true) :
    role ∈ grants.roles ∧ nameSpace ∈ grants.nameSpaces ∧ now - seconds 60 < observedAt ∧ ∀ t ∈ expiry, now < t := by
  simp only [identityValid, Bool.and_eq_true, decide_eq_true_eq] at h
  obtain ⟨⟨⟨⟨⟨-, hrole⟩, hspace⟩, hexpires⟩, -⟩, -⟩ := h
  cases expiry with
  | none => exact ⟨hrole, hspace, sub_lt_iff_lt_add.mpr hexpires, by simp⟩
  | some t =>
    obtain ⟨hearly, hlate⟩ := lt_min_iff.mp hexpires
    exact ⟨hrole, hspace, sub_lt_iff_lt_add.mpr hlate, by simpa using hearly⟩

/-- **A principal is of a current account**: what it is valid for, the account granted when it was looked up, less than
sixty seconds before. -/
theorem issued_holds {subject : String} {p : Principal} (h : Issues provider settings subject p t₀ t₁) {role : Role}
    {nameSpace : Identifier} {now : Time} (hvalid : identityValid (some p) role nameSpace now = true) :
    ∃ t, t₀ ≤ t ∧ t ≤ t₁ ∧ now - seconds 60 < t ∧ Holds provider settings t subject role nameSpace := by
  obtain ⟨history, hperforms⟩ := h
  obtain ⟨hpath, hanswers⟩ := performs_iff.mp hperforms
  obtain ⟨found, started, h₁, h₂, rfl, haccount, hmade⟩ := principal_runs.mp hpath
  obtain ⟨mid, ha₁, ha₂⟩ := answers_append.mp hanswers
  obtain ⟨t, hstarted, hlooked, hended, hfound⟩ := account_current haccount ha₁
  obtain ⟨hle, -, grants, hgrants, rfl⟩ := principalOf_current hmade ha₂
  obtain ⟨-, -, havailable, -, -⟩ := account_runs.mp haccount
  obtain ⟨hrole, hspace, hrecent, -⟩ := valid_granted hvalid
  exact ⟨t, hstarted.trans hlooked, hended.trans hle, hrecent.trans_le hlooked,
    found, grants, hfound, havailable, hgrants, hrole, hspace⟩

/-- **A current account is given**, when the provider answers at once. -/
theorem issues_now {subject : String} {found : Account} {grants : Grants} {t : Time}
    (hfound : provider.accounts t subject = some found) (havailable : Available settings subject found)
    (hgrants : Grants.modelValidate found.grants = .ok grants) :
    Issues provider settings subject (granted found grants t none) t t := by
  have hminute : 0 < seconds 60 := by decide
  have hlater : t < expiresAt t none := lt_add_of_pos_right t hminute
  have haccount := account_runs.mpr ⟨t, rfl, havailable, (sub_self t).ge, (sub_self t).trans_le hminute.le⟩
  have hmade := principalOf_runs.mpr ⟨grants, t, rfl, hgrants, hlater, rfl⟩
  refine ⟨_, performs_iff.mpr ⟨principal_runs.mpr ⟨found, t, _, _, rfl, haccount, hmade⟩, ?_⟩⟩
  exact ⟨t, .emulator le_rfl, t, .utcNow le_rfl, t, .lookup le_rfl hfound, t, .utcNow le_rfl, t, .utcNow le_rfl, rfl⟩

/-- **Who is authenticated holds a current session.** In every run of `authenticate` that returns, with whatever delays
and changes of the accounts: the token was signed, and in scope when its claims were compared; the account that was
looked up after that was available, and had not revoked the session. What the principal is valid for at any later time,
this account granted less than sixty seconds before, and the token has not expired then. -/
theorem session_current {token : String} {p : Principal} {h : History Source}
    (hrun : Performs (World provider) (authenticate settings token) t₀ h (ofResult (.ok p)) t₁) :
    ∃ fields read compared looked found, t₀ ≤ compared ∧ compared ≤ p.verifiedAt ∧ p.verifiedAt ≤ looked ∧ looked ≤ t₁ ∧
      provider.signed token = some fields ∧ TokenClaims.modelValidate fields = .ok read ∧
      InScope settings read compared ∧
      provider.accounts looked read.sub.val = some found ∧ Available settings read.sub.val found ∧
      found.tokensValidAfter ≤ seconds read.authTime ∧ p.subject = read.sub ∧
      ∀ role nameSpace now, identityValid (some p) role nameSpace now = true →
        now < seconds read.exp ∧ now - seconds 60 < looked ∧
          Holds provider settings looked read.sub.val role nameSpace := by
  obtain ⟨hpath, hanswers⟩ := performs_iff.mp hrun
  obtain ⟨read, found, started, h₁, h₂, h₃, rfl, hclaims, haccount, hsession, hmade⟩ := authenticate_runs.mp hpath
  obtain ⟨compared, ha₁, ha⟩ := answers_append.mp hanswers
  obtain ⟨mid, ha₂, ha₃⟩ := answers_append.mp ha
  obtain ⟨hfirst, hscope, fields, hsigned, hread⟩ := claims_current hclaims ha₁
  obtain ⟨looked, hstarted, hlooked, hended, hfound⟩ := account_current haccount ha₂
  obtain ⟨hle, -, grants, hgrants, rfl⟩ := principalOf_current hmade ha₃
  obtain ⟨-, -, havailable, -, -⟩ := account_runs.mp haccount
  refine ⟨fields, read, compared, looked, found, hfirst, hstarted, hlooked, hended.trans hle, hsigned, hread, hscope,
    hfound, havailable, hsession, Subtype.ext havailable.1, ?_⟩
  intro role nameSpace now hvalid
  obtain ⟨hrole, hspace, hrecent, hexpiry⟩ := valid_granted hvalid
  exact ⟨hexpiry _ rfl, hrecent.trans_le hlooked, found, grants, hfound, havailable, hgrants, hrole, hspace⟩

end PayOps.Auth

namespace PayOps.Auth

open Process Policy Program Provider IdentityService

/-- An instance of the parameters; the sample has ASCII texts only. -/
@[reducible] def providerPlatform : Platform where
  sha256 text := text
  patternWord _ := false
  reWord _ := false
  nesting := 64
  floatRepr text := text

attribute [local instance] providerPlatform

theorem sample_project : projectIdOk "payops-project" = true := by decide

/-- A project without tenants. -/
def sampleSettings : IdentitySettings := ⟨"payops-project", none, sample_project⟩

/-- An account with one role. -/
def sampleAccount : Account :=
  ⟨⟨"ann", by decide⟩, false, none, 0,
    [("roles", .arr [.str "responder"]), ("namespaces", .arr [.str "payops-sandbox"])]⟩

/-- The claims of a session that began at the first second. -/
def sampleClaims : JsonObject :=
  [("sub", .str "ann"), ("aud", .str "payops-project"), ("iss", .str "https://securetoken.google.com/payops-project"),
    ("iat", .int 1), ("exp", .int 601), ("auth_time", .int 1), ("firebase", .obj [])]

/-- A provider of one account and one token. -/
def sampleProvider : Provider where
  accounts _ subject := if subject = "ann" then some sampleAccount else none
  signed token := if token = "token" then some sampleClaims else none

/-- Where the sample has its role. -/
def sampleSpace : Identifier := ⟨"payops-sandbox", by decide⟩

/-- What the sample account grants. -/
def sampleGrants : Grants := ⟨[.responder], [sampleSpace], by simp, by simp⟩

/-- The claims, as they are read. -/
def sampleRead : TokenClaims :=
  ⟨⟨"ann", by decide⟩, "payops-project", "https://securetoken.google.com/payops-project", 1, 601, 1, [], by decide⟩

theorem sample_read : TokenClaims.modelValidate sampleClaims = .ok sampleRead ∧
    Grants.modelValidate sampleAccount.grants = .ok sampleGrants ∧ InScope sampleSettings sampleRead (seconds 2) :=
  ⟨rfl, rfl, by decide +kernel⟩

/-- Two seconds after the epoch, the token is good for ten minutes. -/
theorem sample_authenticated : ∃ h, Performs (World sampleProvider) (authenticate sampleSettings "token") (seconds 2) h
    (ofResult (.ok (granted sampleAccount sampleGrants (seconds 2) (some (seconds 601))))) (seconds 2) := by
  obtain ⟨hread, hgrants, hscope⟩ := sample_read
  have hminute : 0 < seconds 60 := by decide
  have hlater : seconds 2 < expiresAt (seconds 2) (some (seconds 601)) := by decide
  have hbearer : bearerOk "token" = true := by decide
  have hclaims := claims_runs.mpr ⟨sampleClaims, seconds 2, rfl, hbearer, hread, hscope⟩
  have havailable : Available sampleSettings sampleRead.sub.val sampleAccount := ⟨rfl, rfl, rfl⟩
  have haccount := account_runs.mpr ⟨seconds 2, rfl, havailable, (sub_self _).ge, (sub_self _).trans_le hminute.le⟩
  have hmade := principalOf_runs.mpr ⟨sampleGrants, seconds 2, rfl, hgrants, hlater, rfl⟩
  have hsession : sampleAccount.tokensValidAfter ≤ seconds sampleRead.authTime := by decide
  have hruns := authenticate_runs.mpr
    ⟨sampleRead, sampleAccount, seconds 2, _, _, _, rfl, hclaims, haccount, hsession, hmade⟩
  refine ⟨_, performs_iff.mpr ⟨hruns, ?_⟩⟩
  exact ⟨_, .emulator le_rfl, _, .verify le_rfl rfl, _, .utcNow le_rfl, _, .emulator le_rfl, _, .utcNow le_rfl,
    _, .lookup le_rfl rfl, _, .utcNow le_rfl, _, .utcNow le_rfl, rfl⟩

/-- What it is good for, the account grants. -/
theorem session_current_sample : ∃ p h,
    Performs (World sampleProvider) (authenticate sampleSettings "token") (seconds 2) h (ofResult (.ok p)) (seconds 2) ∧
    identityValid (some p) .responder sampleSpace (seconds 3) = true ∧
    ∃ looked, Holds sampleProvider sampleSettings looked p.subject.val .responder sampleSpace := by
  obtain ⟨h, hrun⟩ := sample_authenticated
  obtain ⟨fields, read, compared, looked, found, -, -, -, -, -, -, -, -, -, -, hsubject, hvalid⟩ := session_current hrun
  refine ⟨_, h, hrun, by decide +kernel, looked, ?_⟩
  rw [hsubject]
  exact (hvalid .responder sampleSpace (seconds 3) (by decide +kernel)).2.2

end PayOps.Auth
