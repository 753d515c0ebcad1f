import PayOps.Process.Network

/-!
# Networks whose environment fails

An outage ends every call at once and leaves of the environment what survives it. Calls may be started
again afterwards.

## What is proved

* `Outage.wellTraced` — the events of each call are still a path of its program.
* `Outage.invariant` — an invariant of the environment, the trace and the calls that are still running,
  which every answered request and every outage preserve, holds of every reachable configuration.
* `Outage.trace_mono` — the trace only grows.
-/

namespace PayOps.Process

open Relation Program

variable {I : Interface} {σ α : Type}

/-- A call after an outage. -/
def Call.stopped (cl : Call I α) : Call I α := { cl with alive := false }

/-- One step of a network whose environment may fail, which leaves of a state what `Lost` says. -/
inductive OutageStep (M : Machine I σ) (Start : Program I α → Prop) (Lost : σ → σ → Prop) :
    Config I σ α → Config I σ α → Prop
  /-- A step of the network. -/
  | run {c c' : Config I σ α} : Step M Start c c' → OutageStep M Start Lost c c'
  /-- An outage. -/
  | outage {c : Config I σ α} {s' : σ} : Lost c.shared s' →
      OutageStep M Start Lost c ⟨s', c.calls.map Call.stopped, c.trace⟩

/-- Call `i` is still running. -/
def Live (c : Config I σ α) (i : ℕ) : Prop := ∃ p q, c.calls[i]? = some ⟨p, q, true⟩

namespace Outage

variable {M : Machine I σ} {Start : Program I α → Prop} {Lost : σ → σ → Prop} {s₀ : σ}
  {c c' : Config I σ α}

/-- The configurations a network may come to from the environment state `s₀`. -/
def Reachable (M : Machine I σ) (Start : Program I α → Prop) (Lost : σ → σ → Prop) (s₀ : σ)
    (c : Config I σ α) : Prop :=
  ReflTransGen (OutageStep M Start Lost) ⟨s₀, [], []⟩ c

/-- Steps without an outage. -/
theorem of_steps (h : ReflTransGen (Step M Start) c c') : ReflTransGen (OutageStep M Start Lost) c c' :=
  h.lift id fun _ _ => .run

theorem wellTraced_step (h : WellTraced Start c) (hs : OutageStep M Start Lost c c') :
    WellTraced Start c' := by
  cases hs with
  | run hs => exact h.step hs
  | @outage s' hlost =>
    have old : ∀ (i : ℕ) (cl : Call I α), (c.calls.map Call.stopped)[i]? = some cl →
        ∃ cl', c.calls[i]? = some cl' ∧ cl = cl'.stopped := by
      intro i cl hi
      rw [List.getElem?_map, Option.map_eq_some_iff] at hi
      obtain ⟨cl', hi, rfl⟩ := hi
      exact ⟨cl', hi, rfl⟩
    refine ⟨fun i cl hi => ?_, fun i cl hi => ?_, fun x hx => ?_⟩
    · obtain ⟨cl', hi', rfl⟩ := old i cl hi
      exact h.start i cl' hi'
    · obtain ⟨cl', hi', rfl⟩ := old i cl hi
      exact h.path i cl' hi'
    · rw [List.length_map]
      exact h.index x hx

/-- **Each call's own events lead from its program to what is left of it.** -/
theorem wellTraced (h : Reachable M Start Lost s₀ c) : WellTraced Start c := by
  induction h with
  | refl => exact ⟨by simp, by simp, by simp⟩
  | tail _ hs ih => exact wellTraced_step ih hs

/-- A call that runs after a step ran before it, or is new. -/
theorem live_step (hw : WellTraced Start c) (hs : OutageStep M Start Lost c c') {i : ℕ}
    (hi : Live c' i) : Live c i ∨ c.trace.own i = [] := by
  obtain ⟨p, q, hi⟩ := hi
  cases hs with
  | run hs =>
    cases hs with
    | start hp =>
      by_cases hlt : i < c.calls.length
      · rw [List.getElem?_append_left hlt] at hi
        exact .inl ⟨p, q, hi⟩
      · exact .inr (own_eq_nil fun x hx => (hw.index x hx).trans_le (not_lt.mp hlt))
    | @act j p' e k r s' hj ha =>
      by_cases hij : j = i
      · subst hij
        exact .inl ⟨_, _, hj⟩
      · rw [List.getElem?_set_ne hij] at hi
        exact .inl ⟨p, q, hi⟩
    | @crash j p' q' hj =>
      by_cases hij : j = i
      · subst hij
        exact .inl ⟨_, _, hj⟩
      · rw [List.getElem?_set_ne hij] at hi
        exact .inl ⟨p, q, hi⟩
  | outage hlost =>
    rw [List.getElem?_map, Option.map_eq_some_iff] at hi
    obtain ⟨cl, -, hcl⟩ := hi
    cases hcl

/-- **Invariants of a network with outages**: what holds at first, needs nothing of calls that have ended or
have not asked for anything, and is preserved by every answered request and every outage, holds of every
reachable configuration. -/
theorem invariant (Inv : σ → Trace I → (ℕ → Prop) → Prop) (h : Reachable M Start Lost s₀ c)
    (init : Inv s₀ [] fun _ => False)
    (mono : ∀ s tr live live', Inv s tr live → (∀ i, live' i → live i ∨ tr.own i = []) → Inv s tr live')
    (step : ∀ s tr live i p e r s' q, Inv s tr live → live i → Start p →
      Path p (tr.own i ++ [⟨e, r⟩]) q → M.answer s e r s' → Inv s' (tr ++ [(i, ⟨e, r⟩)]) live)
    (outage : ∀ s tr live s', Inv s tr live → Lost s s' → Inv s' tr fun _ => False) :
    Inv c.shared c.trace (Live c) := by
  induction h with
  | refl => exact mono _ _ _ _ init fun i _ => .inr rfl
  | @tail b c hb hs ih =>
    have hw := wellTraced hb
    have hlive := fun i => live_step (i := i) hw hs
    cases hs with
    | run hs =>
      cases hs with
      | start hp => exact mono _ _ _ _ ih hlive
      | @act i p e k r s' hi ha =>
        refine mono _ _ (Live b) _ (step _ _ _ i p e r s' (k r) ih ⟨_, _, hi⟩ (hw.start i _ hi)
          ((hw.path i _ hi).trans (.step .refl)) ha) fun j hj => ?_
        by_cases hij : i = j
        · subst hij
          exact .inl ⟨_, _, hi⟩
        · rw [own_append_other _ hij]
          exact hlive j hj
      | crash hi => exact mono _ _ _ _ ih hlive
    | outage hlost =>
      refine mono _ _ _ _ (outage _ _ _ _ ih hlost) fun i hi => ?_
      obtain ⟨p, q, hi⟩ := hi
      rw [List.getElem?_map, Option.map_eq_some_iff] at hi
      obtain ⟨cl, -, hcl⟩ := hi
      cases hcl

/-- **The trace only grows.** -/
theorem trace_mono (h : ReflTransGen (OutageStep M Start Lost) c c') : c.trace <+: c'.trace := by
  induction h with
  | refl => exact List.prefix_rfl
  | tail _ hs ih =>
    refine ih.trans ?_
    cases hs with
    | run hs =>
      cases hs with
      | start _ => exact List.prefix_rfl
      | act _ _ => exact List.prefix_append _ _
      | crash _ => exact List.prefix_rfl
    | outage _ => exact List.prefix_rfl

end Outage

end PayOps.Process
