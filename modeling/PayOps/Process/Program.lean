import Mathlib

/-!
# Programs that act on an environment

A program here is a finite tree of requests: it finishes, it fails, or it asks its
environment for one effect and goes on with whatever the environment answers. An
answer is a reply or a fault, so that every request may raise. What the environment
answers is not fixed by the program; the other modules of this library say what the
answers may be (`Sequential`, `Network`).

## What is proved

* `path_bind`, `path_tryCatch` — a path of a sequential composition is a path of its
  first part, or a complete run of its first part followed by a path of the second.
* `runs_bind`, `runs_tryCatch` — the same for complete runs.
* `Within.path` — a program that only asks for effects of one kind leaves only events
  of that kind; `Within.past` — a path that has left them is past the program.
-/

namespace PayOps.Process

/-- What a program may ask of its environment, what it gets, and how a request fails. -/
structure Interface where
  /-- The requests. -/
  Effect : Type
  /-- The reply to a request. -/
  Reply : Effect → Type
  /-- The faults a request or a program may raise. -/
  Fault : Type

/-- A program over an interface. -/
inductive Program (I : Interface) (α : Type) : Type where
  /-- The program returns. -/
  | done (a : α)
  /-- The program raises. -/
  | fail (x : I.Fault)
  /-- The program asks for an effect and goes on with the answer. -/
  | call (e : I.Effect) (k : Except I.Fault (I.Reply e) → Program I α)

/-- One request with its answer. -/
structure Event (I : Interface) where
  /-- The request. -/
  effect : I.Effect
  /-- The answer. -/
  reply : Except I.Fault (I.Reply effect)

/-- The events of a run, oldest first. -/
abbrev History (I : Interface) := List (Event I)

variable {I : Interface} {α β : Type}

namespace Program

/-- Sequential composition: a failure of the first part is a failure of the whole. -/
def bind : Program I α → (α → Program I β) → Program I β
  | done a, f => f a
  | fail x, _ => fail x
  | call e k, f => call e fun r => (k r).bind f

/-- Run `p`, and handle its failure by `handler`. -/
def tryCatch : Program I α → (I.Fault → Program I α) → Program I α
  | done a, _ => done a
  | fail x, handler => handler x
  | call e k, handler => call e fun r => (k r).tryCatch handler

/-- Run `p` for how it comes out, so that its failure can be handled as a value. -/
def attempt : Program I α → Program I (Except I.Fault α)
  | done a => done (.ok a)
  | fail x => done (.error x)
  | call e k => call e fun r => (k r).attempt

instance : Monad (Program I) where
  pure := done
  bind := bind

instance : MonadExceptOf I.Fault (Program I) where
  throw := fail
  tryCatch := tryCatch

/-- Ask for one effect; a fault of the environment is raised. -/
def perform (e : I.Effect) : Program I (I.Reply e) :=
  call e fun
    | .ok v => done v
    | .error x => fail x

/-- Raise `x` if `c` holds. -/
def raiseIf (c : Prop) [Decidable c] (x : I.Fault) : Program I Unit := if c then fail x else done ()

/-- How a program that has stopped came out. -/
def ofResult : Except I.Fault α → Program I α
  | .ok a => done a
  | .error x => fail x

@[simp] theorem pure_eq (a : α) : (pure a : Program I α) = done a := rfl

@[simp] theorem throw_eq (x : I.Fault) : (throw x : Program I α) = fail x := rfl

@[simp] theorem bind_eq (p : Program I α) (f : α → Program I β) : (p >>= f) = p.bind f := rfl

@[simp] theorem tryCatch_eq (p : Program I α) (f : I.Fault → Program I α) :
    tryCatchThe I.Fault p f = p.tryCatch f := rfl

@[simp] theorem done_bind (a : α) (f : α → Program I β) : (done a).bind f = f a := rfl

@[simp] theorem fail_bind (x : I.Fault) (f : α → Program I β) : (fail x : Program I α).bind f = fail x :=
  rfl

@[simp] theorem call_bind (e : I.Effect) (k : Except I.Fault (I.Reply e) → Program I α)
    (f : α → Program I β) : (call e k).bind f = call e fun r => (k r).bind f := rfl

@[simp] theorem done_tryCatch (a : α) (f : I.Fault → Program I α) : (done a).tryCatch f = done a := rfl

@[simp] theorem fail_tryCatch (x : I.Fault) (f : I.Fault → Program I α) :
    (fail x : Program I α).tryCatch f = f x := rfl

@[simp] theorem call_tryCatch (e : I.Effect) (k : Except I.Fault (I.Reply e) → Program I α)
    (f : I.Fault → Program I α) : (call e k).tryCatch f = call e fun r => (k r).tryCatch f := rfl

@[simp] theorem attempt_done (a : α) : (done a : Program I α).attempt = done (.ok a) := rfl

@[simp] theorem attempt_fail (x : I.Fault) : (fail x : Program I α).attempt = done (.error x) := rfl

@[simp] theorem attempt_call (e : I.Effect) (k : Except I.Fault (I.Reply e) → Program I α) :
    (call e k).attempt = call e fun r => (k r).attempt := rfl

/-- Composition is associative. -/
theorem bind_assoc {γ : Type} (p : Program I α) (f : α → Program I β) (g : β → Program I γ) :
    (p.bind f).bind g = p.bind fun a => (f a).bind g := by
  induction p with
  | done a => rfl
  | fail x => rfl
  | call e k ih => simp only [call_bind]; congr; funext r; exact ih r

end Program

open Program

/-! ### Paths -/

/-- `Path p h q`: answered as in the history `h`, the program `p` comes to `q`. -/
inductive Path : Program I α → History I → Program I α → Prop where
  /-- Nothing asked yet. -/
  | refl {p : Program I α} : Path p [] p
  /-- One request answered. -/
  | step {e : I.Effect} {k : Except I.Fault (I.Reply e) → Program I α}
      {r : Except I.Fault (I.Reply e)} {h : History I} {q : Program I α} :
      Path (k r) h q → Path (call e k) (⟨e, r⟩ :: h) q

/-- A complete run: the program has come to a result. -/
def Runs (p : Program I α) (h : History I) (r : Except I.Fault α) : Prop := Path p h (ofResult r)

theorem Path.trans {p q r : Program I α} {h₁ h₂ : History I} (h : Path p h₁ q) (h' : Path q h₂ r) :
    Path p (h₁ ++ h₂) r := by
  induction h with
  | refl => exact h'
  | step _ ih => exact .step (ih h')

/-- A path goes through all its prefixes. -/
theorem Path.initial {p q : Program I α} {h₁ h₂ : History I} (h : Path p (h₁ ++ h₂) q) :
    ∃ mid, Path p h₁ mid := by
  induction h₁ generalizing p with
  | nil => exact ⟨p, .refl⟩
  | cons ev h₁ ih =>
    cases h with
    | step hrest =>
      obtain ⟨mid, hmid⟩ := ih hrest
      exact ⟨mid, .step hmid⟩

/-- A path goes on from where its prefix leads. -/
theorem Path.rest {p q q' : Program I α} {h₁ h₂ : History I} (h : Path p h₁ q)
    (h' : Path p (h₁ ++ h₂) q') : Path q h₂ q' := by
  induction h with
  | refl => exact h'
  | step _ ih =>
    cases h' with
    | step hrest => exact ih hrest

@[simp] theorem path_done {a : α} {h : History I} {q : Program I α} :
    Path (done a) h q ↔ h = [] ∧ q = done a := by
  constructor
  · rintro ⟨⟩
    exact ⟨rfl, rfl⟩
  · rintro ⟨rfl, rfl⟩
    exact .refl

@[simp] theorem path_fail {x : I.Fault} {h : History I} {q : Program I α} :
    Path (fail x) h q ↔ h = [] ∧ q = fail x := by
  constructor
  · rintro ⟨⟩
    exact ⟨rfl, rfl⟩
  · rintro ⟨rfl, rfl⟩
    exact .refl

theorem path_call {e : I.Effect} {k : Except I.Fault (I.Reply e) → Program I α} {h : History I}
    {q : Program I α} :
    Path (call e k) h q ↔ h = [] ∧ q = call e k ∨ ∃ r h', h = ⟨e, r⟩ :: h' ∧ Path (k r) h' q := by
  constructor
  · rintro (_ | hp)
    · exact .inl ⟨rfl, rfl⟩
    · exact .inr ⟨_, _, rfl, hp⟩
  · rintro (⟨rfl, rfl⟩ | ⟨r, h', rfl, hp⟩)
    · exact .refl
    · exact .step hp

/-- **Paths of a composition**: still in the first part, or past a complete run of it. -/
theorem path_bind {p : Program I α} {f : α → Program I β} {h : History I} {q : Program I β} :
    Path (p.bind f) h q ↔
      (∃ p', Path p h p' ∧ q = p'.bind f) ∨
        ∃ a h₁ h₂, h = h₁ ++ h₂ ∧ Runs p h₁ (.ok a) ∧ Path (f a) h₂ q := by
  constructor
  · induction p generalizing h with
    | done a => exact fun hp => .inr ⟨a, [], h, rfl, .refl, hp⟩
    | fail x =>
      intro hp
      obtain ⟨rfl, rfl⟩ := path_fail.mp hp
      exact .inl ⟨fail x, .refl, rfl⟩
    | call e k ih =>
      intro hp
      rcases path_call.mp hp with ⟨rfl, rfl⟩ | ⟨r, h', rfl, hk⟩
      · exact .inl ⟨call e k, .refl, rfl⟩
      · rcases ih r hk with ⟨p', hp', rfl⟩ | ⟨a, h₁, h₂, rfl, hr, hf⟩
        · exact .inl ⟨p', .step hp', rfl⟩
        · exact .inr ⟨a, ⟨e, r⟩ :: h₁, h₂, rfl, .step hr, hf⟩
  · rintro (⟨p', hp, rfl⟩ | ⟨a, h₁, h₂, rfl, hr, hf⟩)
    · induction hp with
      | refl => exact .refl
      | step _ ih => exact .step ih
    · have lift : ∀ {p : Program I α} {h₁ : History I} {q : Program I α},
          Path p h₁ q → Path (p.bind f) h₁ (q.bind f) := by
        intro p h₁ q hp
        induction hp with
        | refl => exact .refl
        | step _ ih => exact .step ih
      exact (lift hr).trans hf

/-- **Paths of a handled program**: still in the body, or past a failure of it and in
the handler. -/
theorem path_tryCatch {p : Program I α} {f : I.Fault → Program I α} {h : History I}
    {q : Program I α} (hp : Path (p.tryCatch f) h q) :
    (∃ p', Path p h p' ∧ q = p'.tryCatch f) ∨
      ∃ x h₁ h₂, h = h₁ ++ h₂ ∧ Runs p h₁ (.error x) ∧ Path (f x) h₂ q := by
  induction p generalizing h with
  | done a =>
    obtain ⟨rfl, rfl⟩ := path_done.mp hp
    exact .inl ⟨done a, .refl, rfl⟩
  | fail x => exact .inr ⟨x, [], h, rfl, .refl, hp⟩
  | call e k ih =>
    rcases path_call.mp hp with ⟨rfl, rfl⟩ | ⟨r, h', rfl, hk⟩
    · exact .inl ⟨call e k, .refl, rfl⟩
    · rcases ih r hk with ⟨p', hp', rfl⟩ | ⟨x, h₁, h₂, rfl, hr, hf⟩
      · exact .inl ⟨p', .step hp', rfl⟩
      · exact .inr ⟨x, ⟨e, r⟩ :: h₁, h₂, rfl, .step hr, hf⟩

/-- **Paths of an attempt** are those of the program. -/
theorem path_attempt {p : Program I α} {h : History I} {q : Program I (Except I.Fault α)} :
    Path p.attempt h q ↔ ∃ p', Path p h p' ∧ q = p'.attempt := by
  constructor
  · intro hp
    induction p generalizing h with
    | done a =>
      obtain ⟨rfl, rfl⟩ := path_done.mp hp
      exact ⟨done a, .refl, rfl⟩
    | fail x =>
      obtain ⟨rfl, rfl⟩ := path_done.mp hp
      exact ⟨fail x, .refl, rfl⟩
    | call e k ih =>
      rcases path_call.mp hp with ⟨rfl, rfl⟩ | ⟨r, h', rfl, hk⟩
      · exact ⟨call e k, .refl, rfl⟩
      · obtain ⟨p', hp', rfl⟩ := ih r hk
        exact ⟨p', .step hp', rfl⟩
  · rintro ⟨p', hp, rfl⟩
    induction hp with
    | refl => exact .refl
    | step _ ih => exact .step ih

/-! ### Complete runs -/

section Runs

variable {h : History I}

theorem ofResult_eq_bind {p : Program I α} {f : α → Program I β} {r : Except I.Fault β}
    (h : ofResult r = p.bind f) :
    (∃ x, r = .error x ∧ p = fail x) ∨ ∃ a, p = done a ∧ f a = ofResult r := by
  cases p with
  | done a => exact .inr ⟨a, rfl, h.symm⟩
  | fail x =>
    cases r with
    | ok b => cases h
    | error y => cases h; exact .inl ⟨x, rfl, rfl⟩
  | call e k => cases r <;> cases h

@[simp] theorem runs_done {a : α} {r : Except I.Fault α} :
    Runs (done a : Program I α) h r ↔ h = [] ∧ r = .ok a := by
  unfold Runs
  rw [path_done]
  cases r <;> simp [ofResult]

@[simp] theorem runs_fail {x : I.Fault} {r : Except I.Fault α} :
    Runs (fail x : Program I α) h r ↔ h = [] ∧ r = .error x := by
  unfold Runs
  rw [path_fail]
  cases r <;> simp [ofResult]

@[simp] theorem runs_ofResult {r r' : Except I.Fault α} :
    Runs (ofResult r' : Program I α) h r ↔ h = [] ∧ r = r' := by
  cases r' <;> simp [ofResult]

/-- One request and its answer. -/
@[simp] theorem runs_perform {e : I.Effect} {r : Except I.Fault (I.Reply e)} :
    Runs (perform e) h r ↔ h = [⟨e, r⟩] := by
  constructor
  · intro hr
    rcases path_call.mp hr with ⟨-, hq⟩ | ⟨r', h', rfl, hk⟩
    · cases r <;> cases hq
    · cases r' with
      | ok v =>
        obtain ⟨rfl, rfl⟩ := runs_done.mp hk
        rfl
      | error x =>
        obtain ⟨rfl, rfl⟩ := runs_fail.mp hk
        rfl
  · rintro rfl
    refine .step ?_
    cases r <;> exact .refl

@[simp] theorem runs_raiseIf_ok {c : Prop} [Decidable c] {x : I.Fault} {u : Unit} :
    Runs (raiseIf c x) h (.ok u) ↔ h = [] ∧ ¬c := by
  unfold raiseIf
  split_ifs with hc <;> simp [hc]

@[simp] theorem runs_raiseIf_error {c : Prop} [Decidable c] {x y : I.Fault} :
    Runs (raiseIf c x) h (.error y) ↔ h = [] ∧ c ∧ y = x := by
  unfold raiseIf
  split_ifs with hc <;> simp [hc]

/-- **Runs of an attempt** return how the program came out. -/
@[simp] theorem runs_attempt {p : Program I α} {r : Except I.Fault (Except I.Fault α)} :
    Runs p.attempt h r ↔ ∃ r', r = .ok r' ∧ Runs p h r' := by
  unfold Runs
  rw [path_attempt]
  constructor
  · rintro ⟨p', hp, hq⟩
    cases p' with
    | done a =>
      cases r with
      | ok r' => cases hq; exact ⟨.ok a, rfl, hp⟩
      | error x => cases hq
    | fail x =>
      cases r with
      | ok r' => cases hq; exact ⟨.error x, rfl, hp⟩
      | error x => cases hq
    | call e k => cases r <;> cases hq
  · rintro ⟨r', rfl, hp⟩
    cases r' with
    | ok a => exact ⟨done a, hp, rfl⟩
    | error x => exact ⟨fail x, hp, rfl⟩

/-- **Runs of a composition**: the first part fails, or both parts run. -/
theorem runs_bind {p : Program I α} {f : α → Program I β} {r : Except I.Fault β} :
    Runs (p.bind f) h r ↔
      (∃ x, r = .error x ∧ Runs p h (.error x)) ∨
        ∃ a h₁ h₂, h = h₁ ++ h₂ ∧ Runs p h₁ (.ok a) ∧ Runs (f a) h₂ r := by
  constructor
  · intro hr
    rcases path_bind.mp hr with ⟨p', hp, hq⟩ | hlater
    · rcases ofResult_eq_bind hq with ⟨x, rfl, rfl⟩ | ⟨a, rfl, hf⟩
      · exact .inl ⟨x, rfl, hp⟩
      · exact .inr ⟨a, h, [], (List.append_nil h).symm, hp, hf ▸ .refl⟩
    · exact .inr hlater
  · rintro (⟨x, rfl, hp⟩ | hlater)
    · exact path_bind.mpr (.inl ⟨fail x, hp, rfl⟩)
    · exact path_bind.mpr (.inr hlater)

/-- Runs of a check and what follows it. -/
theorem runs_raiseIf_bind {c : Prop} [Decidable c] {x : I.Fault} {f : Unit → Program I β}
    {r : Except I.Fault β} :
    Runs ((raiseIf c x).bind f) h r ↔ (c ∧ h = [] ∧ r = .error x) ∨ (¬c ∧ Runs (f ()) h r) := by
  unfold raiseIf
  split_ifs with hc <;> simp [hc]

/-- Paths of a check and what follows it. -/
theorem path_raiseIf_bind {c : Prop} [Decidable c] {x : I.Fault} {f : Unit → Program I β}
    {q : Program I β} :
    Path ((raiseIf c x).bind f) h q ↔ (c ∧ h = [] ∧ q = fail x) ∨ (¬c ∧ Path (f ()) h q) := by
  unfold raiseIf
  split_ifs with hc <;> simp [hc]

/-- Runs of a request and what follows it. -/
theorem runs_perform_bind {e : I.Effect} {f : I.Reply e → Program I β} {r : Except I.Fault β} :
    Runs ((perform e).bind f) h r ↔
      (∃ x, h = [⟨e, .error x⟩] ∧ r = .error x) ∨ ∃ a h', h = ⟨e, .ok a⟩ :: h' ∧ Runs (f a) h' r := by
  rw [runs_bind]
  simp only [runs_perform]
  constructor
  · rintro (⟨x, rfl, rfl⟩ | ⟨a, h₁, h₂, rfl, rfl, hr⟩)
    · exact .inl ⟨x, rfl, rfl⟩
    · exact .inr ⟨a, h₂, rfl, hr⟩
  · rintro (⟨x, rfl, rfl⟩ | ⟨a, h', rfl, hr⟩)
    · exact .inl ⟨x, rfl, rfl⟩
    · exact .inr ⟨a, [⟨e, .ok a⟩], h', rfl, rfl, hr⟩

/-- A composition that returns has run both its parts. -/
theorem runs_bind_ok {p : Program I α} {f : α → Program I β} {b : β} :
    Runs (p.bind f) h (.ok b) ↔ ∃ a h₁ h₂, h = h₁ ++ h₂ ∧ Runs p h₁ (.ok a) ∧ Runs (f a) h₂ (.ok b) := by
  simp [runs_bind]

/-- A check that lets a run return did not hold. -/
theorem runs_raiseIf_bind_ok {c : Prop} [Decidable c] {x : I.Fault} {f : Unit → Program I β} {b : β} :
    Runs ((raiseIf c x).bind f) h (.ok b) ↔ ¬c ∧ Runs (f ()) h (.ok b) := by
  simp [runs_raiseIf_bind]

/-- A result that lets a run return is one. -/
theorem runs_ofResult_bind_ok {r : Except I.Fault α} {f : α → Program I β} {b : β} :
    Runs ((ofResult r).bind f) h (.ok b) ↔ ∃ a, r = .ok a ∧ Runs (f a) h (.ok b) := by
  cases r <;> simp [ofResult]

/-- A request that lets a run return was answered by a reply. -/
theorem runs_perform_bind_ok {e : I.Effect} {f : I.Reply e → Program I β} {b : β} :
    Runs ((perform e).bind f) h (.ok b) ↔ ∃ a h', h = ⟨e, .ok a⟩ :: h' ∧ Runs (f a) h' (.ok b) := by
  simp [runs_perform_bind]

/-- **Runs of a handled program**: the body returns, or it fails and the handler runs. -/
theorem runs_tryCatch {p : Program I α} {f : I.Fault → Program I α} {r : Except I.Fault α}
    (hr : Runs (p.tryCatch f) h r) :
    (∃ a, r = .ok a ∧ Runs p h (.ok a)) ∨
      ∃ x h₁ h₂, h = h₁ ++ h₂ ∧ Runs p h₁ (.error x) ∧ Runs (f x) h₂ r := by
  rcases path_tryCatch hr with ⟨p', hp, hq⟩ | hlater
  · cases p' with
    | done a =>
      cases r with
      | ok b => cases hq; exact .inl ⟨a, rfl, hp⟩
      | error x => cases hq
    | fail x =>
      rw [fail_tryCatch] at hq
      exact .inr ⟨x, h, [], (List.append_nil h).symm, hp, hq ▸ .refl⟩
    | call e k => cases r <;> cases hq
  · exact .inr hlater

end Runs

/-! ### What a program returns -/

/-- Whatever is answered, a result of `p` satisfies `Q`. -/
def Returns (Q : α → Prop) : Program I α → Prop
  | done a => Q a
  | fail _ => True
  | call _ k => ∀ r, Returns Q (k r)

section Returns

variable {Q : α → Prop} {p : Program I α}

@[simp] theorem returns_done {a : α} : Returns Q (done a : Program I α) ↔ Q a := Iff.rfl

@[simp] theorem returns_fail {x : I.Fault} : Returns Q (fail x : Program I α) := trivial

theorem returns_true (p : Program I α) : Returns (fun _ => True) p := by
  induction p with
  | done a => trivial
  | fail x => trivial
  | call e k ih => exact ih

theorem Returns.mono {Q' : α → Prop} (h : Returns Q p) (hQ : ∀ a, Q a → Q' a) : Returns Q' p := by
  induction p with
  | done a => exact hQ a h
  | fail x => trivial
  | call e k ih => exact fun r => ih r (h r)

theorem Returns.and {Q' : α → Prop} (h : Returns Q p) (h' : Returns Q' p) :
    Returns (fun a => Q a ∧ Q' a) p := by
  induction p with
  | done a => exact ⟨h, h'⟩
  | fail x => trivial
  | call e k ih => exact fun r => ih r (h r) (h' r)

theorem Returns.bind {Q' : β → Prop} {f : α → Program I β} (h : Returns Q p)
    (hf : ∀ a, Q a → Returns Q' (f a)) : Returns Q' (p.bind f) := by
  induction p with
  | done a => exact hf a h
  | fail x => trivial
  | call e k ih => exact fun r => ih r (h r)

/-- What follows a program of which nothing is known. -/
theorem returns_bind {Q' : β → Prop} {f : α → Program I β} (hf : ∀ a, Returns Q' (f a)) :
    Returns Q' (p.bind f) := (returns_true p).bind fun a _ => hf a

theorem Returns.tryCatch {f : I.Fault → Program I α} (h : Returns Q p) (hf : ∀ x, Returns Q (f x)) :
    Returns Q (p.tryCatch f) := by
  induction p with
  | done a => exact h
  | fail x => exact hf x
  | call e k ih => exact fun r => ih r (h r)

theorem returns_ofResult {r : Except I.Fault α} : Returns Q (ofResult r) ↔ ∀ a, r = .ok a → Q a := by
  cases r <;> simp [ofResult]

theorem returns_ofResult_bind {Q' : β → Prop} {r : Except I.Fault α} {f : α → Program I β}
    (h : ∀ a, r = .ok a → Returns Q' (f a)) : Returns Q' ((ofResult r).bind f) := by
  cases r with
  | ok a => exact h a rfl
  | error x => trivial

theorem returns_raiseIf_bind {c : Prop} [Decidable c] {x : I.Fault} {f : Unit → Program I α}
    (h : ¬c → Returns Q (f ())) : Returns Q ((raiseIf c x).bind f) := by
  unfold raiseIf
  split_ifs with hc
  · trivial
  · exact h hc

/-- A result of a run is one. -/
theorem Returns.runs {h : History I} {a : α} (hp : Returns Q p) (hr : Runs p h (.ok a)) : Q a := by
  induction p generalizing h with
  | done b =>
    obtain ⟨-, hb⟩ := runs_done.mp hr
    cases hb
    exact hp
  | fail x => cases (runs_fail.mp hr).2
  | call e k ih =>
    rcases path_call.mp hr with ⟨-, hcall⟩ | ⟨r, h', -, hrest⟩
    · cases hcall
    · exact ih r (hp r) hrest

end Returns

/-! ### The effects a program may ask for -/

/-- Every effect `p` may ask for, however it is answered, satisfies `P`. -/
def Within (P : I.Effect → Prop) : Program I α → Prop
  | done _ => True
  | fail _ => True
  | call e k => P e ∧ ∀ r, Within P (k r)

section Within

variable {P : I.Effect → Prop}

@[simp] theorem within_done (a : α) : Within P (done a : Program I α) := trivial

@[simp] theorem within_fail (x : I.Fault) : Within P (fail x : Program I α) := trivial

@[simp] theorem within_call {e : I.Effect} {k : Except I.Fault (I.Reply e) → Program I α} :
    Within P (call e k) ↔ P e ∧ ∀ r, Within P (k r) := Iff.rfl

@[simp] theorem within_ofResult (r : Except I.Fault α) : Within P (ofResult r : Program I α) := by
  cases r <;> trivial

/-- Every program asks for something. -/
theorem within_anything (p : Program I α) : Within (fun _ => True) p := by
  induction p with
  | done a => trivial
  | fail x => trivial
  | call e k ih => exact ⟨trivial, ih⟩

/-- What follows a result may use it. -/
theorem within_ofResult_bind {r : Except I.Fault α} {f : α → Program I β}
    (h : ∀ a, r = .ok a → Within P (f a)) : Within P ((ofResult r).bind f) := by
  cases r with
  | ok a => exact h a rfl
  | error x => trivial

@[simp] theorem within_raiseIf {c : Prop} [Decidable c] {x : I.Fault} :
    Within P (raiseIf c x : Program I Unit) := by
  unfold raiseIf
  split_ifs <;> trivial

@[simp] theorem within_perform {e : I.Effect} : Within P (perform e) ↔ P e := by
  refine ⟨fun h => h.1, fun h => ⟨h, fun r => ?_⟩⟩
  cases r <;> trivial

/-- What follows a program may use that it came to its result. -/
theorem Within.bind_runs {p : Program I α} {f : α → Program I β} (hp : Within P p)
    (hf : ∀ a h, Runs p h (.ok a) → Within P (f a)) : Within P (p.bind f) := by
  induction p with
  | done a => exact hf a [] .refl
  | fail x => trivial
  | call e k ih =>
    exact ⟨hp.1, fun r => ih r (hp.2 r) fun a h hr => hf a (⟨e, r⟩ :: h) (.step hr)⟩

theorem Within.bind {p : Program I α} {f : α → Program I β} (hp : Within P p)
    (hf : ∀ a, Within P (f a)) : Within P (p.bind f) := hp.bind_runs fun a _ _ => hf a

/-- What follows a check may use that it did not raise. -/
theorem within_raiseIf_bind {c : Prop} [Decidable c] {x : I.Fault} {f : Unit → Program I β}
    (h : ¬c → Within P (f ())) : Within P ((raiseIf c x).bind f) := by
  unfold raiseIf
  split_ifs with hc
  · trivial
  · exact h hc

theorem Within.tryCatch {p : Program I α} {f : I.Fault → Program I α} (hp : Within P p)
    (hf : ∀ x, Within P (f x)) : Within P (p.tryCatch f) := by
  induction p with
  | done a => trivial
  | fail x => exact hf x
  | call e k ih => exact ⟨hp.1, fun r => ih r (hp.2 r)⟩

@[simp] theorem within_attempt {p : Program I α} : Within P p.attempt ↔ Within P p := by
  induction p with
  | done a => exact Iff.rfl
  | fail x => exact Iff.rfl
  | call e k ih => exact and_congr_right fun _ => forall_congr' ih

theorem Within.mono {Q : I.Effect → Prop} {p : Program I α} (hp : Within P p)
    (h : ∀ e, P e → Q e) : Within Q p := by
  induction p with
  | done a => trivial
  | fail x => trivial
  | call e k ih => exact ⟨h e hp.1, fun r => ih r (hp.2 r)⟩

/-- The events of a program that stays within `P` are all of effects in `P`. -/
theorem Within.path {p q : Program I α} {h : History I} (hp : Within P p) (hpath : Path p h q) :
    (∀ ev ∈ h, P ev.effect) ∧ Within P q := by
  induction hpath with
  | refl => exact ⟨by simp, hp⟩
  | step _ ih =>
    obtain ⟨hall, hq⟩ := ih (hp.2 _)
    exact ⟨List.forall_mem_cons.mpr ⟨hp.1, hall⟩, hq⟩

/-- **Past the first part**: a path that has left the effects of the first part of a composition
has completed it. -/
theorem Within.past {p : Program I α} {f : α → Program I β} {h : History I} {q : Program I β}
    (hp : Within P p) (hpath : Path (p.bind f) h q) {ev : Event I} (hev : ev ∈ h)
    (hout : ¬P ev.effect) :
    ∃ a h₁ h₂, h = h₁ ++ h₂ ∧ Runs p h₁ (.ok a) ∧ Path (f a) h₂ q ∧ ev ∈ h₂ := by
  rcases path_bind.mp hpath with ⟨p', hp', -⟩ | ⟨a, h₁, h₂, rfl, hr, hf⟩
  · exact absurd ((hp.path hp').1 ev hev) hout
  · rcases List.mem_append.mp hev with h | h
    · exact absurd ((hp.path hr).1 ev h) hout
    · exact ⟨a, h₁, h₂, rfl, hr, hf, h⟩

end Within

end PayOps.Process
