import PayOps.Process.Network

/-!
# What a program assures

A program that runs against a machine goes through the machine's states. `Assures` says that every
step of every run satisfies a guarantee, which may look back at the history, and that every run that
ends satisfies a postcondition. The guarantee holds up to any point where the program is cut off.

## What is proved

* `assures_bind`, `assures_tryCatch`, `assures_attempt` — the rules of composition.
* `Assures.within` — the frame rule: a program that asks for certain effects only keeps what these
  keep.
* `Assures.and_runs` — the postcondition may use that the history is a run of the program.
* `Assures.path` — **soundness**: every step of a run that may be cut off anywhere is in the guarantee.
* `Keeps.assures` — assumptions on the answers and obligations on the requests, without the state, are
  enough where an invariant of the state gives the assumptions and is kept by the obligations.
-/

namespace PayOps.Process

open Program

variable {I : Interface} {σ α β : Type}

/-- A guarantee: after a history and in a state, an event that leads to another state. -/
abbrev Guarantee (I : Interface) (σ : Type) := History I → σ → Event I → σ → Prop

/-- From the history `h` and the state `s`, every step of `p` is in `G`, and its results are in `Q`. -/
def Assures (M : Machine I σ) (G : Guarantee I σ) : Program I α → History I → σ →
    (Except I.Fault α → History I → σ → Prop) → Prop
  | done a, h, s, Q => Q (.ok a) h s
  | fail x, h, s, Q => Q (.error x) h s
  | call e k, h, s, Q => ∀ r s', M.answer s e r s' →
      G h s ⟨e, r⟩ s' ∧ Assures M G (k r) (h ++ [⟨e, r⟩]) s' Q

/-- A run of the states of a machine, cut off anywhere. -/
inductive Performs (M : Machine I σ) : Program I α → σ → History I → Program I α → σ → Prop
  /-- Nothing asked yet. -/
  | refl {p : Program I α} {s : σ} : Performs M p s [] p s
  /-- One request answered. -/
  | step {e : I.Effect} {k : Except I.Fault (I.Reply e) → Program I α} {s s' s'' : σ}
      {r : Except I.Fault (I.Reply e)} {h : History I} {q : Program I α} :
      M.answer s e r s' → Performs M (k r) s' h q s'' → Performs M (call e k) s (⟨e, r⟩ :: h) q s''

section Assures

variable {M : Machine I σ} {G : Guarantee I σ} {h : History I} {s : σ}
  {Q Q' : Except I.Fault α → History I → σ → Prop}

@[simp] theorem assures_done {a : α} : Assures M G (done a) h s Q ↔ Q (.ok a) h s := Iff.rfl

@[simp] theorem assures_fail {x : I.Fault} : Assures M G (fail x) h s Q ↔ Q (.error x) h s := Iff.rfl

theorem assures_call {e : I.Effect} {k : Except I.Fault (I.Reply e) → Program I α} :
    Assures M G (call e k) h s Q ↔ ∀ r s', M.answer s e r s' →
      G h s ⟨e, r⟩ s' ∧ Assures M G (k r) (h ++ [⟨e, r⟩]) s' Q := Iff.rfl

/-- The rule of consequence. -/
theorem Assures.mono {p : Program I α} (hp : Assures M G p h s Q)
    (hQ : ∀ r h' s', Q r h' s' → Q' r h' s') : Assures M G p h s Q' := by
  induction p generalizing h s with
  | done a => exact hQ _ _ _ hp
  | fail x => exact hQ _ _ _ hp
  | call e k ih => exact fun r s' ha => ⟨(hp r s' ha).1, ih r (hp r s' ha).2⟩

/-- A weaker guarantee. -/
theorem Assures.weaken {G' : Guarantee I σ} {p : Program I α} (hp : Assures M G p h s Q)
    (hG : ∀ h s ev s', G h s ev s' → G' h s ev s') : Assures M G' p h s Q := by
  induction p generalizing h s with
  | done a => exact hp
  | fail x => exact hp
  | call e k ih => exact fun r s' ha => ⟨hG _ _ _ _ (hp r s' ha).1, ih r (hp r s' ha).2⟩

/-- **Sequential composition**: what the second part assures is the postcondition of the first. -/
theorem assures_bind {p : Program I α} {f : α → Program I β}
    {Q : Except I.Fault β → History I → σ → Prop} :
    Assures M G (p.bind f) h s Q ↔ Assures M G p h s fun r h' s' =>
      match r with
      | .ok a => Assures M G (f a) h' s' Q
      | .error x => Q (.error x) h' s' := by
  induction p generalizing h s with
  | done a => exact Iff.rfl
  | fail x => exact Iff.rfl
  | call e k ih =>
    exact forall_congr' fun r => forall_congr' fun s' => imp_congr_right fun _ => and_congr_right
      fun _ => ih r

/-- **Handling of faults.** -/
theorem assures_tryCatch {p : Program I α} {f : I.Fault → Program I α} :
    Assures M G (p.tryCatch f) h s Q ↔ Assures M G p h s fun r h' s' =>
      match r with
      | .ok a => Q (.ok a) h' s'
      | .error x => Assures M G (f x) h' s' Q := by
  induction p generalizing h s with
  | done a => exact Iff.rfl
  | fail x => exact Iff.rfl
  | call e k ih =>
    exact forall_congr' fun r => forall_congr' fun s' => imp_congr_right fun _ => and_congr_right
      fun _ => ih r

/-- **Faults as values.** -/
theorem assures_attempt {p : Program I α} {Q : Except I.Fault (Except I.Fault α) → History I → σ → Prop} :
    Assures M G p.attempt h s Q ↔ Assures M G p h s fun r h' s' => Q (.ok r) h' s' := by
  induction p generalizing h s with
  | done a => exact Iff.rfl
  | fail x => exact Iff.rfl
  | call e k ih =>
    exact forall_congr' fun r => forall_congr' fun s' => imp_congr_right fun _ => and_congr_right
      fun _ => ih r

theorem assures_ofResult {r : Except I.Fault α} :
    Assures M G (ofResult r) h s Q ↔ Q r h s := by
  cases r <;> exact Iff.rfl

theorem assures_perform {e : I.Effect} {Q : Except I.Fault (I.Reply e) → History I → σ → Prop} :
    Assures M G (perform e) h s Q ↔ ∀ r s', M.answer s e r s' →
      G h s ⟨e, r⟩ s' ∧ Q r (h ++ [⟨e, r⟩]) s' := by
  refine forall_congr' fun r => forall_congr' fun s' => imp_congr_right fun _ => and_congr_right
    fun _ => ?_
  cases r <;> exact Iff.rfl

/-- A check and what follows it. -/
theorem assures_raiseIf_bind {c : Prop} [Decidable c] {x : I.Fault} {f : Unit → Program I α} :
    Assures M G ((raiseIf c x).bind f) h s Q ↔
      (c → Q (.error x) h s) ∧ (¬c → Assures M G (f ()) h s Q) := by
  unfold raiseIf
  split_ifs with hc <;> simp [hc]

/-- A result and what follows it. -/
theorem assures_ofResult_bind {r : Except I.Fault β} {f : β → Program I α} :
    Assures M G ((ofResult r).bind f) h s Q ↔
      (∀ x, r = .error x → Q (.error x) h s) ∧ (∀ b, r = .ok b → Assures M G (f b) h s Q) := by
  cases r <;> simp [ofResult]

/-- A request and what follows it. -/
theorem assures_perform_bind {e : I.Effect} {f : I.Reply e → Program I α} :
    Assures M G ((perform e).bind f) h s Q ↔ ∀ r s', M.answer s e r s' → G h s ⟨e, r⟩ s' ∧
      (∀ x, r = .error x → Q (.error x) (h ++ [⟨e, r⟩]) s') ∧
        ∀ a, r = .ok a → Assures M G (f a) (h ++ [⟨e, r⟩]) s' Q := by
  rw [assures_bind, assures_perform]
  refine forall_congr' fun r => forall_congr' fun s' => imp_congr_right fun _ => and_congr_right
    fun _ => ?_
  cases r <;> simp

/-- **The frame rule**: a program keeps what the effects it asks for keep. -/
theorem Assures.within {P : I.Effect → Prop} {R : History I → σ → Prop} {p : Program I α}
    (hp : Within P p) (hR : R h s)
    (hstep : ∀ h s e r s', R h s → P e → M.answer s e r s' → G h s ⟨e, r⟩ s' ∧ R (h ++ [⟨e, r⟩]) s') :
    Assures M G p h s fun _ h' s' => R h' s' := by
  induction p generalizing h s with
  | done a => exact hR
  | fail x => exact hR
  | call e k ih =>
    intro r s' ha
    obtain ⟨hG, hR'⟩ := hstep h s e r s' hR hp.1 ha
    exact ⟨hG, ih r (hp.2 r) hR'⟩

/-- The postcondition may use that the history is a run of the program. -/
theorem Assures.and_runs {p : Program I α} (hp : Assures M G p h s Q) :
    Assures M G p h s fun r h' s' => Q r h' s' ∧ ∃ g, h' = h ++ g ∧ Runs p g r := by
  induction p generalizing h s with
  | done a => exact ⟨hp, [], (List.append_nil h).symm, .refl⟩
  | fail x => exact ⟨hp, [], (List.append_nil h).symm, .refl⟩
  | call e k ih =>
    intro r s' ha
    refine ⟨(hp r s' ha).1, (ih r (hp r s' ha).2).mono ?_⟩
    rintro r' h' s'' ⟨hQ, g, rfl, hruns⟩
    exact ⟨hQ, ⟨e, r⟩ :: g, by simp, .step hruns⟩

/-- A run of the states is a path of the program. -/
theorem Performs.path {p q : Program I α} {s s' : σ} {h : History I} (hp : Performs M p s h q s') :
    Path p h q := by
  induction hp with
  | refl => exact .refl
  | step _ _ ih => exact .step ih

theorem Performs.trans {p q q' : Program I α} {s s' s'' : σ} {h h' : History I}
    (hp : Performs M p s h q s') (hq : Performs M q s' h' q' s'') : Performs M p s (h ++ h') q' s'' := by
  induction hp with
  | refl => exact hq
  | step ha _ ih => exact .step ha (ih hq)

/-- **Soundness**: what is left of a program assures what the program does, and so does each step. -/
theorem Assures.path {p q : Program I α} {s' : σ} {g : History I} (hp : Assures M G p h s Q)
    (hrun : Performs M p s g q s') : Assures M G q (h ++ g) s' Q := by
  induction hrun generalizing h with
  | refl => rwa [List.append_nil]
  | step ha _ ih =>
    have := ih (hp _ _ ha).2
    rwa [List.append_assoc] at this

end Assures

/-! ### Assumptions and obligations -/

/-- If the answers satisfy `A`, every request of `p` satisfies `P`, and its results are in `Q`. -/
def Keeps (A : Event I → Prop) (P : I.Effect → Prop) (Q : α → Prop) : Program I α → Prop
  | done a => Q a
  | fail _ => True
  | call e k => P e ∧ ∀ r, A ⟨e, r⟩ → Keeps A P Q (k r)

section Keeps

variable {A : Event I → Prop} {P : I.Effect → Prop} {Q : α → Prop} {p : Program I α}

/-- What a program asks for and returns without assumptions. -/
theorem Within.keeps (hp : Within P p) (hQ : Returns Q p) : Keeps A P Q p := by
  induction p with
  | done a => exact hQ
  | fail x => trivial
  | call e k ih => exact ⟨hp.1, fun r _ => ih r (hp.2 r) (hQ r)⟩

theorem Keeps.mono {Q' : α → Prop} (hp : Keeps A P Q p) (hQ : ∀ a, Q a → Q' a) : Keeps A P Q' p := by
  induction p with
  | done a => exact hQ a hp
  | fail x => trivial
  | call e k ih => exact ⟨hp.1, fun r hr => ih r (hp.2 r hr)⟩

theorem Keeps.bind {Q' : β → Prop} {f : α → Program I β} (hp : Keeps A P Q p)
    (hf : ∀ a, Q a → Keeps A P Q' (f a)) : Keeps A P Q' (p.bind f) := by
  induction p with
  | done a => exact hf a hp
  | fail x => trivial
  | call e k ih => exact ⟨hp.1, fun r hr => ih r (hp.2 r hr)⟩

theorem Keeps.tryCatch {f : I.Fault → Program I α} (hp : Keeps A P Q p)
    (hf : ∀ x, Keeps A P Q (f x)) : Keeps A P Q (p.tryCatch f) := by
  induction p with
  | done a => exact hp
  | fail x => exact hf x
  | call e k ih => exact ⟨hp.1, fun r hr => ih r (hp.2 r hr)⟩

theorem keeps_perform {e : I.Effect} {Q : I.Reply e → Prop} (hP : P e)
    (hQ : ∀ a, A ⟨e, .ok a⟩ → Q a) : Keeps A P Q (perform e) := by
  refine ⟨hP, fun r hr => ?_⟩
  cases r with
  | ok a => exact hQ a hr
  | error x => trivial

theorem keeps_ofResult {r : Except I.Fault α} (h : ∀ a, r = .ok a → Q a) : Keeps A P Q (ofResult r) := by
  cases r with
  | ok a => exact h a rfl
  | error x => trivial

theorem keeps_raiseIf_bind {c : Prop} [Decidable c] {x : I.Fault} {f : Unit → Program I α}
    (h : ¬c → Keeps A P Q (f ())) : Keeps A P Q ((raiseIf c x).bind f) := by
  unfold raiseIf
  split_ifs with hc
  · trivial
  · exact h hc

/-- **From assumptions and obligations to what a program assures.** -/
theorem Keeps.assures {M : Machine I σ} {Inv : σ → Prop} {h : History I} {s : σ} (hp : Keeps A P Q p)
    (hs : Inv s) (assumes : ∀ s e r s', Inv s → M.answer s e r s' → A ⟨e, r⟩)
    (keeps : ∀ s e r s', Inv s → P e → M.answer s e r s' → Inv s') :
    Assures M (fun _ _ _ s' => Inv s') p h s fun r _ s' => Inv s' ∧ ∀ a, r = .ok a → Q a := by
  induction p generalizing h s with
  | done a => exact ⟨hs, fun b hb => by cases hb; exact hp⟩
  | fail x => exact ⟨hs, fun b hb => by cases hb⟩
  | call e k ih =>
    intro r s' ha
    have hs' := keeps s e r s' hs hp.1 ha
    exact ⟨hs', ih r (hp.2 r (assumes s e r s' hs ha)) hs'⟩

end Keeps

end PayOps.Process
