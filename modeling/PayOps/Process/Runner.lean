import PayOps.Process.Network

/-!
# Running programs

A handler answers every request by a function of the environment's state. Running a program
with it gives its result, the state it leaves and its events.

## What is proved

* `Reachable.call` — if the machine may answer as the handler does, a whole call run with the
  handler leads from a reachable configuration to a reachable one.
* `Reachable.opened`, `Reachable.turns` — so do a new call, and answers in a given order.
-/

namespace PayOps.Process

variable {I : Interface} {σ α : Type}

/-- A deterministic environment. -/
abbrev Handler (I : Interface) (σ : Type) := (e : I.Effect) → σ → Except I.Fault (I.Reply e) × σ

/-- What a program did: its result, the state it left, and its events. -/
structure Ran (I : Interface) (σ α : Type) where
  /-- The result. -/
  result : Except I.Fault α
  /-- The state. -/
  state : σ
  /-- The events. -/
  events : History I

/-- Run a program with a handler. -/
def Program.run (H : Handler I σ) : Program I α → σ → Ran I σ α
  | .done a, s => ⟨.ok a, s, []⟩
  | .fail x, s => ⟨.error x, s, []⟩
  | .call e k, s =>
    let answered := H e s
    let rest := (k answered.1).run H answered.2
    { rest with events := ⟨e, answered.1⟩ :: rest.events }

/-- The configuration after one more call has run. -/
def Config.ran (H : Handler I σ) (c : Config I σ α) (p : Program I α) : Config I σ α :=
  let o := p.run H c.shared
  ⟨o.state, c.calls ++ [⟨p, .ofResult o.result, true⟩],
    c.trace ++ o.events.map fun ev => (c.calls.length, ev)⟩

/-- **A whole call**: what a handler does, the network may do. -/
theorem Reachable.call {M : Machine I σ} {Start : Program I α → Prop} {s₀ : σ} {c : Config I σ α}
    {H : Handler I σ} (h : Reachable M Start s₀ c)
    (hH : ∀ e s, M.answer s e (H e s).1 (H e s).2) {p : Program I α} (hp : Start p) :
    Reachable M Start s₀ (c.ran H p) := by
  have acts : ∀ (q : Program I α) (s : σ) (tr : Trace I),
      Reachable M Start s₀ ⟨s, c.calls ++ [⟨p, q, true⟩], tr⟩ →
        Reachable M Start s₀ ⟨(q.run H s).state,
          c.calls ++ [⟨p, .ofResult (q.run H s).result, true⟩],
          tr ++ (q.run H s).events.map fun ev => (c.calls.length, ev)⟩ := by
    intro q
    induction q with
    | done a => intro s tr hc; simpa [Program.run, Program.ofResult] using hc
    | fail x => intro s tr hc; simpa [Program.run, Program.ofResult] using hc
    | call e k ih =>
      intro s tr hc
      have hget : (c.calls ++ [⟨p, .call e k, true⟩])[c.calls.length]? = some ⟨p, .call e k, true⟩ := by
        simp
      have hstep := hc.tail (Step.act hget (hH e s))
      rw [List.set_append_right _ _ le_rfl, Nat.sub_self] at hstep
      have := ih _ _ _ hstep
      simpa [Program.run] using this
  exact acts p c.shared c.trace (h.tail (Step.start hp))

/-- The configuration after one more call has started. -/
def Config.opened (c : Config I σ α) (p : Program I α) : Config I σ α :=
  { c with calls := c.calls ++ [⟨p, p, true⟩] }

/-- The configuration after call `i` has got its next answer. -/
def Config.turn (H : Handler I σ) (c : Config I σ α) (i : ℕ) : Config I σ α :=
  match c.calls[i]? with
  | some ⟨p, .call e k, true⟩ =>
    let answered := H e c.shared
    ⟨answered.2, c.calls.set i ⟨p, k answered.1, true⟩, c.trace ++ [(i, ⟨e, answered.1⟩)]⟩
  | _ => c

/-- The configuration after the calls have got answers in this order. -/
def Config.turns (H : Handler I σ) (c : Config I σ α) (order : List ℕ) : Config I σ α :=
  order.foldl (Config.turn H) c

theorem Reachable.opened {M : Machine I σ} {Start : Program I α → Prop} {s₀ : σ} {c : Config I σ α}
    (h : Reachable M Start s₀ c) {p : Program I α} (hp : Start p) : Reachable M Start s₀ (c.opened p) :=
  h.tail (Step.start hp)

theorem Reachable.turn {M : Machine I σ} {Start : Program I α → Prop} {s₀ : σ} {c : Config I σ α}
    {H : Handler I σ} (h : Reachable M Start s₀ c) (hH : ∀ e s, M.answer s e (H e s).1 (H e s).2) (i : ℕ) :
    Reachable M Start s₀ (c.turn H i) := by
  unfold Config.turn
  split
  next p e k hi => exact h.tail (Step.act hi (hH e c.shared))
  next => exact h

/-- **Answers in a given order.** -/
theorem Reachable.turns {M : Machine I σ} {Start : Program I α → Prop} {s₀ : σ} {c : Config I σ α}
    {H : Handler I σ} (h : Reachable M Start s₀ c) (hH : ∀ e s, M.answer s e (H e s).1 (H e s).2)
    (order : List ℕ) : Reachable M Start s₀ (c.turns H order) := by
  induction order generalizing c with
  | nil => exact h
  | cons i order ih => exact ih (h.turn hH i)

theorem Config.turn_program (H : Handler I σ) (c : Config I σ α) (i j : ℕ) :
    (c.turn H i).calls[j]?.map (fun cl => cl.program) = c.calls[j]?.map fun cl => cl.program := by
  unfold Config.turn
  split
  next p e k hi =>
    dsimp only
    by_cases hij : i = j
    · subst hij
      rw [hi, List.getElem?_set_self (List.getElem?_eq_some_iff.mp hi).1]
      rfl
    · rw [List.getElem?_set_ne hij]
  next => rfl

/-- Answers leave the programs that were called. -/
theorem Config.turns_program (H : Handler I σ) (c : Config I σ α) (order : List ℕ) (j : ℕ) :
    (c.turns H order).calls[j]?.map (fun cl => cl.program) = c.calls[j]?.map fun cl => cl.program := by
  induction order generalizing c with
  | nil => rfl
  | cons i order ih => exact (ih (c.turn H i)).trans (c.turn_program H i j)

end PayOps.Process
