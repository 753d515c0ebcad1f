import PayOps.Process.Assures

/-!
# Guarantees about the history, and mutable objects

`Follows` is what a program assures in an environment that may answer anything: a guarantee about each
event and the history before it. `Mutable` programs change objects whose changes survive an exception.

## What is proved

* `follows_bind`, `follows_attempt`, `follows_perform_bind` — the rules of composition.
* `Follows.within` — the frame rule.
* `Follows.event`, `Follows.runs` — **soundness**: each event of a run is in the guarantee, and its end in
  the postcondition.
* `Mutable.follows_bind`, `Mutable.follows_attempt` — the rules for mutable objects.
-/

namespace PayOps.Process

open Program

variable {I : Interface} {σ α β : Type}

/-- An environment that may answer anything. -/
def Machine.free : Machine I Unit := ⟨fun _ _ _ _ => True⟩

/-- Whatever the answers: each event of `p` is in `G` with the history before it, and what `p` comes to is
in `Q` with the history then. -/
def Follows (G : History I → Event I → Prop) (p : Program I α) (h : History I)
    (Q : Except I.Fault α → History I → Prop) : Prop :=
  Assures Machine.free (fun h _ ev _ => G h ev) p h () fun r h' _ => Q r h'

section Follows

variable {G : History I → Event I → Prop} {h : History I} {p : Program I α}
  {Q Q' : Except I.Fault α → History I → Prop}

@[simp] theorem follows_done {a : α} : Follows G (done a) h Q ↔ Q (.ok a) h := Iff.rfl

@[simp] theorem follows_fail {x : I.Fault} : Follows G (fail x) h Q ↔ Q (.error x) h := Iff.rfl

theorem Follows.mono (hp : Follows G p h Q) (hQ : ∀ r h', Q r h' → Q' r h') : Follows G p h Q' :=
  Assures.mono hp fun r h' _ => hQ r h'

theorem follows_bind {f : α → Program I β} {Q : Except I.Fault β → History I → Prop} :
    Follows G (p.bind f) h Q ↔ Follows G p h fun r h' =>
      match r with
      | .ok a => Follows G (f a) h' Q
      | .error x => Q (.error x) h' := assures_bind

theorem follows_attempt {Q : Except I.Fault (Except I.Fault α) → History I → Prop} :
    Follows G p.attempt h Q ↔ Follows G p h fun r h' => Q (.ok r) h' := assures_attempt

theorem follows_ofResult {r : Except I.Fault α} : Follows G (ofResult r) h Q ↔ Q r h := assures_ofResult

theorem follows_perform {e : I.Effect} {Q : Except I.Fault (I.Reply e) → History I → Prop} :
    Follows G (perform e) h Q ↔ ∀ r, G h ⟨e, r⟩ ∧ Q r (h ++ [⟨e, r⟩]) := by
  refine assures_perform.trans ?_
  exact ⟨fun hp r => hp r () trivial, fun hp r _ _ => hp r⟩

theorem follows_perform_bind {e : I.Effect} {f : I.Reply e → Program I α} :
    Follows G ((perform e).bind f) h Q ↔ ∀ r, G h ⟨e, r⟩ ∧
      (∀ x, r = .error x → Q (.error x) (h ++ [⟨e, r⟩])) ∧
        ∀ a, r = .ok a → Follows G (f a) (h ++ [⟨e, r⟩]) Q := by
  refine assures_perform_bind.trans ?_
  exact ⟨fun hp r => hp r () trivial, fun hp r _ _ => hp r⟩

theorem follows_ofResult_bind {r : Except I.Fault β} {f : β → Program I α} :
    Follows G ((ofResult r).bind f) h Q ↔
      (∀ x, r = .error x → Q (.error x) h) ∧ ∀ b, r = .ok b → Follows G (f b) h Q := assures_ofResult_bind

theorem follows_raiseIf_bind {c : Prop} [Decidable c] {x : I.Fault} {f : Unit → Program I α} :
    Follows G ((raiseIf c x).bind f) h Q ↔ (c → Q (.error x) h) ∧ (¬c → Follows G (f ()) h Q) :=
  assures_raiseIf_bind

/-- **The frame rule.** -/
theorem Follows.within {P : I.Effect → Prop} {R : History I → Prop} (hp : Within P p) (hR : R h)
    (hstep : ∀ h ev, R h → P ev.effect → G h ev ∧ R (h ++ [ev])) : Follows G p h fun _ h' => R h' :=
  Assures.within (R := fun h _ => R h) hp hR fun h _ e r _ hR' he _ => hstep h ⟨e, r⟩ hR' he

/-- The postcondition may use that the history is a run of the program. -/
theorem Follows.and_runs (hp : Follows G p h Q) :
    Follows G p h fun r h' => Q r h' ∧ ∃ g, h' = h ++ g ∧ Runs p g r := Assures.and_runs hp

theorem Follows.path {q : Program I α} {g : History I} (hp : Follows G p h Q) (hpath : Path p g q) :
    Follows G q (h ++ g) Q := by
  induction hpath generalizing h with
  | refl => rwa [List.append_nil]
  | step _ ih =>
    have := ih (hp _ () trivial).2
    rwa [List.append_assoc] at this

/-- **Each event of a run is in the guarantee.** -/
theorem Follows.event {q : Program I α} {g : History I} {ev : Event I} (hp : Follows G p h Q)
    (hpath : Path p (g ++ [ev]) q) : G (h ++ g) ev := by
  obtain ⟨q', hinit⟩ := hpath.initial
  have hrest := hinit.rest hpath
  have hq := hp.path hinit
  cases q' with
  | done a => simp at hrest
  | fail x => simp at hrest
  | call e k =>
    rcases path_call.mp hrest with ⟨hnil, -⟩ | ⟨r, g', hcons, -⟩
    · cases hnil
    · cases hcons
      exact (hq r () trivial).1

/-- **The end of a run is in the postcondition.** -/
theorem Follows.runs {g : History I} {r : Except I.Fault α} (hp : Follows G p h Q) (hruns : Runs p g r) :
    Q r (h ++ g) := follows_ofResult.mp (hp.path hruns)

end Follows

/-! ### Mutable objects -/

/-- A program that changes objects; what they hold survives an exception. -/
def Mutable (I : Interface) (σ α : Type) := σ → Program I (Except I.Fault α × σ)

namespace Mutable

/-- What follows a result; an exception ends the program. -/
def next (f : α → Mutable I σ β) (out : Except I.Fault α × σ) : Program I (Except I.Fault β × σ) :=
  match out.1 with
  | .ok a => f a out.2
  | .error x => .done (.error x, out.2)

instance : Monad (Mutable I σ) where
  pure a := fun s => .done (.ok a, s)
  bind m f := fun s => (m s).bind (next f)

/-- A program that changes nothing. -/
def lift (p : Program I α) : Mutable I σ α := fun s => p.attempt.bind fun r => .done (r, s)

/-- An exception. -/
def raise (x : I.Fault) : Mutable I σ α := fun s => .done (.error x, s)

/-- The objects. -/
def get : Mutable I σ σ := fun s => .done (.ok s, s)

/-- A change. -/
def modify (f : σ → σ) : Mutable I σ Unit := fun s => .done (.ok (), f s)

/-- An exception as a value. -/
def attempt (m : Mutable I σ α) : Mutable I σ (Except I.Fault α) := fun s =>
  (m s).bind fun out => .done (.ok out.1, out.2)

/-- What a program with objects assures. -/
def Follows (G : History I → Event I → Prop) (m : Mutable I σ α) (s : σ) (h : History I)
    (Q : Except I.Fault α → σ → History I → Prop) : Prop :=
  Process.Follows G (m s) h fun out h' => ∃ r s', out = .ok (r, s') ∧ Q r s' h'

section Follows

variable {G : History I → Event I → Prop} {m : Mutable I σ α} {s : σ} {h : History I}
  {Q Q' : Except I.Fault α → σ → History I → Prop}

theorem Follows.mono (hm : m.Follows G s h Q) (hQ : ∀ r s' h', Q r s' h' → Q' r s' h') :
    m.Follows G s h Q' := by
  refine Process.Follows.mono hm ?_
  rintro out h' ⟨r, s', rfl, hr⟩
  exact ⟨r, s', rfl, hQ r s' h' hr⟩

theorem follows_pure {a : α} (hQ : Q (.ok a) s h) : (pure a : Mutable I σ α).Follows G s h Q :=
  ⟨_, _, rfl, hQ⟩

theorem follows_raise {x : I.Fault} (hQ : Q (.error x) s h) : (raise x : Mutable I σ α).Follows G s h Q :=
  ⟨_, _, rfl, hQ⟩

theorem follows_modify {f : σ → σ} {Q : Except I.Fault Unit → σ → History I → Prop}
    (hQ : Q (.ok ()) (f s) h) : (modify f : Mutable I σ Unit).Follows G s h Q := ⟨_, _, rfl, hQ⟩

/-- **Sequential composition.** -/
theorem follows_bind {f : α → Mutable I σ β} {Q : Except I.Fault β → σ → History I → Prop}
    (hm : m.Follows G s h fun r s' h' =>
      match r with
      | .ok a => (f a).Follows G s' h' Q
      | .error x => Q (.error x) s' h') : (m >>= f).Follows G s h Q := by
  refine Process.follows_bind.mpr (Process.Follows.mono hm ?_)
  rintro out h' ⟨r, s', rfl, hr⟩
  cases r with
  | ok a => exact hr
  | error x => exact ⟨_, _, rfl, hr⟩

/-- **Exceptions as values.** -/
theorem follows_attempt {Q : Except I.Fault (Except I.Fault α) → σ → History I → Prop}
    (hm : m.Follows G s h fun r s' h' => Q (.ok r) s' h') : m.attempt.Follows G s h Q := by
  refine Process.follows_bind.mpr (Process.Follows.mono hm ?_)
  rintro out h' ⟨r, s', rfl, hr⟩
  exact ⟨_, _, rfl, hr⟩

theorem follows_lift {p : Program I α} (hp : Process.Follows G p h fun r h' => Q r s h') :
    (lift p : Mutable I σ α).Follows G s h Q := by
  refine Process.follows_bind.mpr (Process.follows_attempt.mpr (hp.mono fun r h' hr => ?_))
  exact ⟨_, _, rfl, hr⟩

theorem follows_get_bind {f : σ → Mutable I σ α} (hf : (f s).Follows G s h Q) :
    (get >>= f).Follows G s h Q := follows_bind ⟨_, _, rfl, hf⟩

theorem follows_modify_bind {g : σ → σ} {f : Unit → Mutable I σ α} (hf : (f ()).Follows G (g s) h Q) :
    (modify g >>= f).Follows G s h Q := follows_bind ⟨_, _, rfl, hf⟩

/-- A request, and what follows it. -/
theorem follows_perform_bind {e : I.Effect} {f : I.Reply e → Mutable I σ α}
    (hG : ∀ r, G h ⟨e, r⟩) (herror : ∀ x, Q (.error x) s (h ++ [⟨e, .error x⟩]))
    (hok : ∀ a, (f a).Follows G s (h ++ [⟨e, .ok a⟩]) Q) :
    (lift (perform e) >>= f).Follows G s h Q := by
  refine follows_bind (follows_lift (follows_perform.mpr fun r => ⟨hG r, ?_⟩))
  cases r with
  | ok a => exact hok a
  | error x => exact herror x

/-- A result, and what follows it. -/
theorem follows_ofResult_bind {r : Except I.Fault β} {f : β → Mutable I σ α}
    (herror : ∀ x, r = .error x → Q (.error x) s h) (hok : ∀ b, r = .ok b → (f b).Follows G s h Q) :
    (lift (ofResult r) >>= f).Follows G s h Q := by
  refine follows_bind (follows_lift (follows_ofResult.mpr ?_))
  cases r with
  | ok b => exact hok b rfl
  | error x => exact herror x rfl

/-- A program that cannot raise, and what follows it. -/
theorem follows_attempt_bind {m : Mutable I σ β} {f : Except I.Fault β → Mutable I σ α}
    (hm : m.Follows G s h fun r s' h' => (f r).Follows G s' h' Q) :
    (m.attempt >>= f).Follows G s h Q := follows_bind (follows_attempt hm)

end Follows

end Mutable

end PayOps.Process
