import PayOps.Process.Program

/-!
# Concurrent calls on a shared environment

A network runs any number of calls against one environment. Each step starts a call,
lets one call get the answer to its next request, or crashes a call; nothing else is
atomic, so the requests of different calls interleave in every order. A crashed call
takes no further step. The trace keeps every answered request with the number of the
call that made it.

## What is proved

* `Reachable.own_call` — the events of one call in the trace form a path of its program.
* `Reachable.invariant` — a property of the environment and the trace that every answered
  request preserves holds of every reachable configuration; the step may use that the
  acting call's own events are a path of a program that may be started.
* `Reachable.before` — every event was the answer in a reachable configuration.
* `Reachable.within` — the programs' footprint bounds every trace, and `Reachable.shared_step`
  every step of the environment.
* `Reachable.count_le` — if along every path of every program events of kind `A` are at
  most as many as events of kind `B`, so they are in every reachable trace; `Covered.earn` — how
  a program earns its events of kind `A` by earlier events of kind `B`.
-/

namespace PayOps.Process

open Relation Program

variable {I : Interface} {σ α β : Type}

/-- An environment: in state `s` it may answer the request `e` by `r` and go to `s'`. -/
structure Machine (I : Interface) (σ : Type) where
  /-- The answers an environment may give, and where they leave it. -/
  answer : σ → (e : I.Effect) → Except I.Fault (I.Reply e) → σ → Prop

/-- A call: the program it was started with, what is left of it, and whether it runs. -/
structure Call (I : Interface) (α : Type) where
  /-- The program the call was started with. -/
  program : Program I α
  /-- What is left to do. -/
  rest : Program I α
  /-- A crashed call is not alive. -/
  alive : Bool

/-- A trace: every answered request, with the call that made it, oldest first. -/
abbrev Trace (I : Interface) := List (ℕ × Event I)

/-- The events of call `i`. -/
def Trace.own (tr : Trace I) (i : ℕ) : History I := (tr.filter fun x => x.1 == i).map Prod.snd

/-- The environment, the calls made so far, and the trace. -/
structure Config (I : Interface) (σ α : Type) where
  /-- The state of the environment. -/
  shared : σ
  /-- The calls, numbered by their position. -/
  calls : List (Call I α)
  /-- What happened so far. -/
  trace : Trace I

/-- One step of the network, whose calls run programs in `Start`. -/
inductive Step (M : Machine I σ) (Start : Program I α → Prop) : Config I σ α → Config I σ α → Prop
  /-- A new call. -/
  | start {c : Config I σ α} {p : Program I α} : Start p →
      Step M Start c { c with calls := c.calls ++ [⟨p, p, true⟩] }
  /-- Call `i` gets the answer to its next request. -/
  | act {c : Config I σ α} {i : ℕ} {p : Program I α} {e : I.Effect}
      {k : Except I.Fault (I.Reply e) → Program I α} {r : Except I.Fault (I.Reply e)} {s' : σ} :
      c.calls[i]? = some ⟨p, call e k, true⟩ → M.answer c.shared e r s' →
      Step M Start c ⟨s', c.calls.set i ⟨p, k r, true⟩, c.trace ++ [(i, ⟨e, r⟩)]⟩
  /-- Call `i` crashes. -/
  | crash {c : Config I σ α} {i : ℕ} {p q : Program I α} : c.calls[i]? = some ⟨p, q, true⟩ →
      Step M Start c { c with calls := c.calls.set i ⟨p, q, false⟩ }

/-- The configurations a network may come to from the environment state `s₀`. -/
def Reachable (M : Machine I σ) (Start : Program I α → Prop) (s₀ : σ) (c : Config I σ α) : Prop :=
  ReflTransGen (Step M Start) ⟨s₀, [], []⟩ c

/-! ### The events of one call -/

@[simp] theorem own_nil (i : ℕ) : Trace.own ([] : Trace I) i = [] := rfl

theorem own_append (tr tr' : Trace I) (i : ℕ) :
    Trace.own (tr ++ tr') i = Trace.own tr i ++ Trace.own tr' i := by
  simp [Trace.own]

@[simp] theorem own_append_self (tr : Trace I) (i : ℕ) (ev : Event I) :
    Trace.own (tr ++ [(i, ev)]) i = Trace.own tr i ++ [ev] := by
  simp [Trace.own]

theorem own_append_other (tr : Trace I) {i j : ℕ} (h : j ≠ i) (ev : Event I) :
    Trace.own (tr ++ [(j, ev)]) i = Trace.own tr i := by
  simp [Trace.own, h]

theorem mem_own {tr : Trace I} {i : ℕ} {ev : Event I} : ev ∈ tr.own i ↔ (i, ev) ∈ tr := by
  simp [Trace.own]

/-- Where an event of a call stands in the trace. -/
theorem own_split {tr : Trace I} {i : ℕ} {h₁ h₂ : History I} {ev : Event I}
    (h : tr.own i = h₁ ++ ev :: h₂) : ∃ tr₁ tr₂, tr = tr₁ ++ (i, ev) :: tr₂ ∧ tr₁.own i = h₁ := by
  obtain ⟨a, b, hfilter, ha, hb⟩ := List.map_eq_append_iff.mp h
  obtain ⟨x, b', rfl, rfl, -⟩ := List.map_eq_cons_iff.mp hb
  obtain ⟨t₁, t₂, rfl, hta, htb⟩ := List.filter_eq_append_iff.mp hfilter
  obtain ⟨u, v, rfl, hu, hx, -⟩ := List.filter_eq_cons_iff.mp htb
  obtain rfl := eq_of_beq hx
  refine ⟨t₁ ++ u, v, (List.append_assoc ..).symm, ?_⟩
  rw [own_append, Trace.own, hta, ha, Trace.own, List.filter_eq_nil_iff.mpr hu]
  simp

/-- What a reachable configuration says of its calls: each was allowed to start, its own
events lead from its program to what is left of it, and every event is some call's. -/
structure WellTraced (Start : Program I α → Prop) (c : Config I σ α) : Prop where
  /-- The calls run programs that may be started. -/
  start : ∀ (i : ℕ) (cl : Call I α), c.calls[i]? = some cl → Start cl.program
  /-- Their own events are a path. -/
  path : ∀ (i : ℕ) (cl : Call I α), c.calls[i]? = some cl → Path cl.program (c.trace.own i) cl.rest
  /-- Every event is some call's. -/
  index : ∀ x ∈ c.trace, x.1 < c.calls.length

theorem own_eq_nil {tr : Trace I} {i : ℕ} (h : ∀ x ∈ tr, x.1 < i) : tr.own i = [] := by
  rw [Trace.own, List.map_eq_nil_iff, List.filter_eq_nil_iff]
  intro x hx
  have := h x hx
  simp only [beq_iff_eq]
  omega

theorem WellTraced.step {M : Machine I σ} {Start : Program I α → Prop} {c c' : Config I σ α}
    (h : WellTraced Start c) (hs : Step M Start c c') : WellTraced Start c' := by
  cases hs with
  | @start p hp =>
    have new : ∀ i cl, (c.calls ++ [⟨p, p, true⟩])[i]? = some cl →
        c.calls[i]? = some cl ∨ i = c.calls.length ∧ cl = ⟨p, p, true⟩ := by
      intro i cl hi
      rcases lt_trichotomy i c.calls.length with hlt | rfl | hgt
      · exact .inl (by rwa [List.getElem?_append_left hlt] at hi)
      · exact .inr ⟨rfl, by simpa using hi.symm⟩
      · rw [List.getElem?_eq_none (by simp; omega)] at hi
        cases hi
    refine ⟨fun i cl hi => ?_, fun i cl hi => ?_, fun x hx => ?_⟩
    · rcases new i cl hi with hi | ⟨-, rfl⟩
      · exact h.start i cl hi
      · exact hp
    · rcases new i cl hi with hi | ⟨rfl, rfl⟩
      · exact h.path i cl hi
      · rw [own_eq_nil h.index]
        exact .refl
    · have := h.index x hx
      simp only [List.length_append]
      omega
  | @act i p e k r s' hi ha =>
    have old : ∀ j cl, (c.calls.set i ⟨p, k r, true⟩)[j]? = some cl →
        j ≠ i ∧ c.calls[j]? = some cl ∨ j = i ∧ cl = ⟨p, k r, true⟩ := by
      intro j cl hj
      by_cases hij : i = j
      · subst hij
        rw [List.getElem?_set_self (List.getElem?_eq_some_iff.mp hi).1] at hj
        exact .inr ⟨rfl, (Option.some.inj hj).symm⟩
      · rw [List.getElem?_set_ne hij] at hj
        exact .inl ⟨Ne.symm hij, hj⟩
    refine ⟨fun j cl hj => ?_, fun j cl hj => ?_, fun x hx => ?_⟩
    · rcases old j cl hj with ⟨-, hj⟩ | ⟨rfl, rfl⟩
      · exact h.start j cl hj
      · exact h.start j ⟨p, call e k, true⟩ hi
    · rcases old j cl hj with ⟨hne, hj⟩ | ⟨rfl, rfl⟩
      · rw [own_append_other _ (Ne.symm hne)]
        exact h.path j cl hj
      · rw [own_append_self]
        exact (h.path j _ hi).trans (.step .refl)
    · rw [List.length_set]
      rcases List.mem_append.mp hx with hx | hx
      · exact h.index x hx
      · rw [List.mem_singleton] at hx
        subst hx
        exact (List.getElem?_eq_some_iff.mp hi).1
  | @crash i p q hi =>
    have old : ∀ (j : ℕ) (cl : Call I α), (c.calls.set i ⟨p, q, false⟩)[j]? = some cl →
        ∃ b, c.calls[j]? = some ⟨cl.program, cl.rest, b⟩ := by
      intro j cl hj
      by_cases hij : i = j
      · subst hij
        rw [List.getElem?_set_self (List.getElem?_eq_some_iff.mp hi).1] at hj
        cases hj
        exact ⟨_, hi⟩
      · rw [List.getElem?_set_ne hij] at hj
        exact ⟨cl.alive, hj⟩
    refine ⟨fun j cl hj => ?_, fun j cl hj => ?_, fun x hx => ?_⟩
    · obtain ⟨b, hb⟩ := old j cl hj
      exact h.start j ⟨cl.program, cl.rest, b⟩ hb
    · obtain ⟨b, hb⟩ := old j cl hj
      exact h.path j ⟨cl.program, cl.rest, b⟩ hb
    · rw [List.length_set]
      exact h.index x hx

/-- A call keeps its program. -/
theorem Step.program {M : Machine I σ} {Start : Program I α → Prop} {c c' : Config I σ α}
    (hs : Step M Start c c') {i : ℕ} {cl : Call I α} (hi : c.calls[i]? = some cl) :
    ∃ cl' : Call I α, c'.calls[i]? = some cl' ∧ cl'.program = cl.program := by
  have updated : ∀ (j : ℕ) (old new : Call I α), c.calls[j]? = some old →
      new.program = old.program →
      ∃ cl' : Call I α, (c.calls.set j new)[i]? = some cl' ∧ cl'.program = cl.program := by
    intro j old new hj hnew
    by_cases hij : j = i
    · subst hij
      rw [hj] at hi
      cases hi
      exact ⟨new, List.getElem?_set_self (List.getElem?_eq_some_iff.mp hj).1, hnew⟩
    · exact ⟨cl, (List.getElem?_set_ne hij).trans hi, rfl⟩
  cases hs with
  | start _ =>
    exact ⟨cl, (List.getElem?_append_left (List.getElem?_eq_some_iff.mp hi).1).trans hi, rfl⟩
  | act hj _ => exact updated _ _ _ hj rfl
  | crash hj => exact updated _ _ _ hj rfl

section Reachable

variable {M : Machine I σ} {Start : Program I α → Prop} {s₀ : σ} {c : Config I σ α}

theorem Reachable.wellTraced (h : Reachable M Start s₀ c) : WellTraced Start c := by
  induction h with
  | refl => exact ⟨by simp, by simp, by simp⟩
  | tail _ hs ih => exact ih.step hs

/-- **The events of one call form a path of its program**, which may be started. -/
theorem Reachable.own_call (h : Reachable M Start s₀ c) {i : ℕ} {ev : Event I}
    (hev : (i, ev) ∈ c.trace) :
    ∃ cl : Call I α, c.calls[i]? = some cl ∧ Start cl.program ∧
      Path cl.program (c.trace.own i) cl.rest := by
  have hw := h.wellTraced
  have hi := List.getElem?_eq_getElem (hw.index _ hev)
  exact ⟨_, hi, hw.start _ _ hi, hw.path _ _ hi⟩

theorem Reachable.own_path (h : Reachable M Start s₀ c) {i : ℕ} {ev : Event I}
    (hev : (i, ev) ∈ c.trace) : ∃ p q, Start p ∧ Path p (c.trace.own i) q := by
  obtain ⟨cl, -, hp, hpath⟩ := h.own_call hev
  exact ⟨_, _, hp, hpath⟩

/-- **Invariants of a network**: what holds at first and is preserved by every answered
request holds of every reachable configuration. -/
theorem Reachable.invariant (Inv : σ → Trace I → Prop) (h : Reachable M Start s₀ c)
    (init : Inv s₀ [])
    (step : ∀ s tr i p e r s' q, Inv s tr → Start p → Path p (tr.own i ++ [⟨e, r⟩]) q →
      M.answer s e r s' → Inv s' (tr ++ [(i, ⟨e, r⟩)])) :
    Inv c.shared c.trace := by
  induction h with
  | refl => exact init
  | @tail b c hb hs ih =>
    have hw := Reachable.wellTraced hb
    cases hs with
    | start _ => exact ih
    | @act i p e k r s' hi ha =>
      exact step _ _ i p e r s' (k r) ih (hw.start _ _ hi)
        ((hw.path _ _ hi).trans (.step .refl)) ha
    | crash _ => exact ih

/-- **How an event came about**: the configuration before it was reachable, and the call was at its request. -/
theorem Reachable.before (h : Reachable M Start s₀ c) {tr₁ tr₂ : Trace I} {i : ℕ} {ev : Event I}
    (htrace : c.trace = tr₁ ++ (i, ev) :: tr₂) :
    ∃ (b : Config I σ α) (s' : σ), Reachable M Start s₀ b ∧ b.trace = tr₁ ∧
      (∃ p q, Start p ∧ Path p (b.trace.own i ++ [ev]) q) ∧
      M.answer b.shared ev.effect ev.reply s' := by
  induction h generalizing tr₂ with
  | refl => exact absurd htrace.symm (List.append_ne_nil_of_right_ne_nil _ (List.cons_ne_nil _ _))
  | @tail b c hb hs ih =>
    cases hs with
    | start _ => exact ih htrace
    | crash _ => exact ih htrace
    | @act j p e k r s' hj ha =>
      rcases List.eq_nil_or_concat' tr₂ with rfl | ⟨tr₃, x, rfl⟩
      · obtain ⟨rfl, hlast⟩ := List.append_inj' htrace rfl
        obtain ⟨rfl, rfl⟩ := Prod.mk.inj (List.cons.inj hlast).1
        have hw := Reachable.wellTraced hb
        exact ⟨b, s', hb, rfl, ⟨p, k r, hw.start _ _ hj, (hw.path _ _ hj).trans (.step .refl)⟩, ha⟩
      · rw [← List.cons_append, ← List.append_assoc] at htrace
        exact ih (List.append_inj' htrace rfl).1

/-- **One step of the environment**: it stays where it is, or it answers a request that the
programs may make. -/
theorem Reachable.shared_step {P : I.Effect → Prop} {c' : Config I σ α} (h : Reachable M Start s₀ c)
    (hP : ∀ p, Start p → Within P p) (hs : Step M Start c c') :
    c'.shared = c.shared ∨ ∃ e r, P e ∧ M.answer c.shared e r c'.shared := by
  have hw := h.wellTraced
  cases hs with
  | start _ => exact .inl rfl
  | @act i p e k r s' hi ha =>
    exact .inr ⟨e, r, ((hP p (hw.start _ _ hi)).path (hw.path _ _ hi)).2.1, ha⟩
  | crash _ => exact .inl rfl

/-- Every event of a reachable trace is one that the programs may ask for. -/
theorem Reachable.within {P : I.Effect → Prop} (h : Reachable M Start s₀ c)
    (hP : ∀ p, Start p → Within P p) {i : ℕ} {ev : Event I} (hev : (i, ev) ∈ c.trace) : P ev.effect := by
  obtain ⟨p, q, hp, hpath⟩ := h.own_path hev
  exact ((hP p hp).path hpath).1 ev (mem_own.mpr hev)

end Reachable

/-! ### Counting events -/

/-- Along every path of `p`, events of kind `A` are at most as many as events of kind `B`. -/
def Covered (A B : Event I → Bool) (p : Program I α) : Prop :=
  ∀ h q, Path p h q → h.countP A ≤ h.countP B

section Covered

variable {A B : Event I → Bool}

/-- What follows a covered program may use that it came to its result. -/
theorem Covered.bind_runs {p : Program I α} {f : α → Program I β} (hp : Covered A B p)
    (hf : ∀ a h, Runs p h (.ok a) → Covered A B (f a)) : Covered A B (p.bind f) := by
  intro h q hpath
  rcases path_bind.mp hpath with ⟨p', hp', -⟩ | ⟨a, h₁, h₂, rfl, h₁p, h₂p⟩
  · exact hp h p' hp'
  · rw [List.countP_append, List.countP_append]
    exact Nat.add_le_add (hp h₁ _ h₁p) (hf a h₁ h₁p h₂ q h₂p)

theorem Covered.bind {p : Program I α} {f : α → Program I β} (hp : Covered A B p)
    (hf : ∀ a, Covered A B (f a)) : Covered A B (p.bind f) := hp.bind_runs fun a _ _ => hf a

theorem Covered.tryCatch {p : Program I α} {f : I.Fault → Program I α} (hp : Covered A B p)
    (hf : ∀ x, Covered A B (f x)) : Covered A B (p.tryCatch f) := by
  intro h q hpath
  rcases path_tryCatch hpath with ⟨p', hp', -⟩ | ⟨x, h₁, h₂, rfl, h₁p, h₂p⟩
  · exact hp h p' hp'
  · rw [List.countP_append, List.countP_append]
    exact Nat.add_le_add (hp h₁ _ h₁p) (hf x h₂ q h₂p)

theorem Covered.attempt {p : Program I α} (hp : Covered A B p) : Covered A B p.attempt := by
  intro h q hpath
  obtain ⟨p', hp', -⟩ := path_attempt.mp hpath
  exact hp h p' hp'

/-- A program with no event of kind `A` is covered by anything. -/
theorem Covered.of_within {P : I.Effect → Prop} {p : Program I α} (hp : Within P p)
    (hA : ∀ ev : Event I, P ev.effect → A ev = false) : Covered A B p := by
  intro h q hpath
  rw [List.countP_eq_zero.mpr fun ev hev => by simp [hA ev ((hp.path hpath).1 ev hev)]]
  exact Nat.zero_le _

/-- A program that has returned has no events. -/
theorem covered_done (a : α) : Covered A B (done a : Program I α) :=
  Covered.of_within (P := fun _ => False) trivial fun _ => False.elim

/-- One request of another kind. -/
theorem covered_perform {e : I.Effect} (h : ∀ r, A ⟨e, r⟩ = false) : Covered A B (perform e) :=
  Covered.of_within (within_perform.mpr (rfl : (fun x => x = e) e)) fun ev hev => by
    obtain ⟨x, r⟩ := ev
    subst hev
    exact h r

/-- Along every path of `p`, events of kind `A` are at most `n` more than events of kind `B`. -/
def Debt (A B : Event I → Bool) (n : ℕ) (p : Program I α) : Prop :=
  ∀ h q, Path p h q → h.countP A ≤ n + h.countP B

theorem Covered.debt {p : Program I α} (h : Covered A B p) (n : ℕ) : Debt A B n p :=
  fun g q hpath => (h g q hpath).trans (Nat.le_add_left _ n)

theorem Debt.covered {p : Program I α} (h : Debt A B 0 p) : Covered A B p :=
  fun g q hpath => (h g q hpath).trans (by rw [Nat.zero_add])

theorem Debt.mono {m n : ℕ} {p : Program I α} (h : Debt A B m p) (hle : m ≤ n) : Debt A B n p :=
  fun g q hpath => (h g q hpath).trans (Nat.add_le_add_right hle _)

/-- One request is one event at most. -/
theorem debt_perform {e : I.Effect} : Debt A B 1 (perform e) := by
  intro h q hpath
  rcases path_call.mp hpath with ⟨rfl, -⟩ | ⟨r, h', rfl, hrest⟩
  · simp
  · have hnil : h' = [] := by
      cases r with
      | ok v => exact (path_done.mp hrest).1
      | error x => exact (path_fail.mp hrest).1
    subst hnil
    rw [List.countP_cons]
    split_ifs <;> simp

/-- Debts add up. -/
theorem Debt.bind {m n : ℕ} {p : Program I α} {f : α → Program I β} (hp : Debt A B m p)
    (hf : ∀ a, Debt A B n (f a)) : Debt A B (m + n) (p.bind f) := by
  intro h q hpath
  rcases path_bind.mp hpath with ⟨p', hp', -⟩ | ⟨a, h₁, h₂, rfl, h₁p, h₂p⟩
  · have := hp h p' hp'
    omega
  · have := hp h₁ _ h₁p
    have := hf a h₂ q h₂p
    rw [List.countP_append, List.countP_append]
    omega

/-- **A debt is covered by what was earned before it**: where each complete run of `p` with result
`a` has `m a` more events of kind `B` than of kind `A`, what follows may have a debt of `m a`. -/
theorem Covered.earn {m : α → ℕ} {p : Program I α} {f : α → Program I β} (hp : Covered A B p)
    (hearn : ∀ a h, Runs p h (.ok a) → h.countP A + m a ≤ h.countP B)
    (hf : ∀ a, Debt A B (m a) (f a)) : Covered A B (p.bind f) := by
  intro h q hpath
  rcases path_bind.mp hpath with ⟨p', hp', -⟩ | ⟨a, h₁, h₂, rfl, h₁p, h₂p⟩
  · exact hp h p' hp'
  · have := hearn a h₁ h₁p
    have := hf a h₂ q h₂p
    rw [List.countP_append, List.countP_append]
    omega

/-- Where something is counted at most once, it is in one place. -/
theorem eq_of_countP_le_one {α : Type} {p : α → Bool} {l : List α} (h : l.countP p ≤ 1) {a b : α}
    (ha : a ∈ l) (hb : b ∈ l) (hpa : p a) (hpb : p b) : a = b := by
  rw [List.countP_eq_length_filter] at h
  have ha' := List.mem_filter.mpr ⟨ha, hpa⟩
  have hb' := List.mem_filter.mpr ⟨hb, hpb⟩
  match l.filter p, h, ha', hb' with
  | [x], _, ha', hb' => rw [List.mem_singleton.mp ha', List.mem_singleton.mp hb']

/-- The events of a trace are those of its calls. -/
theorem countP_eq_sum_own {n : ℕ} {tr : Trace I} (h : ∀ x ∈ tr, x.1 < n) (A : Event I → Bool) :
    (tr.countP fun x => A x.2) = ∑ i ∈ Finset.range n, (Trace.own tr i).countP A := by
  induction tr with
  | nil => simp
  | cons x tr ih =>
    obtain ⟨j, ev⟩ := x
    rw [List.countP_cons, ih fun y hy => h y (List.mem_cons_of_mem _ hy)]
    have hj : j ∈ Finset.range n := Finset.mem_range.mpr (h (j, ev) List.mem_cons_self)
    have hone : ∀ i, (Trace.own ((j, ev) :: tr) i).countP A =
        (Trace.own tr i).countP A + if j = i then (if A ev then 1 else 0) else 0 := by
      intro i
      by_cases hji : j = i
      · simp [Trace.own, hji, List.countP_cons]
      · simp [Trace.own, hji]
    simp only [hone, Finset.sum_add_distrib, Finset.sum_ite_eq, hj, if_true]

/-- **Counting over a network**: if every program that may be started is covered, so is
every reachable trace. -/
theorem Reachable.count_le {M : Machine I σ} {Start : Program I α → Prop} {s₀ : σ}
    {c : Config I σ α} (h : Reachable M Start s₀ c) (hcov : ∀ p, Start p → Covered A B p) :
    (c.trace.countP fun x => A x.2) ≤ c.trace.countP fun x => B x.2 := by
  have hw := h.wellTraced
  rw [countP_eq_sum_own hw.index, countP_eq_sum_own hw.index]
  refine Finset.sum_le_sum fun i hi => ?_
  have hi' := List.getElem?_eq_getElem (Finset.mem_range.mp hi)
  exact hcov _ (hw.start _ _ hi') _ _ (hw.path _ _ hi')

/-- **A call with an event of kind `A` has one of kind `B`**, if every program is covered. -/
theorem Reachable.covered_by {M : Machine I σ} {Start : Program I α → Prop} {s₀ : σ}
    {c : Config I σ α} (h : Reachable M Start s₀ c) (hcov : ∀ p, Start p → Covered A B p) {i : ℕ}
    {ev : Event I} (hev : (i, ev) ∈ c.trace) (hA : A ev = true) :
    ∃ ev', (i, ev') ∈ c.trace ∧ B ev' = true := by
  obtain ⟨p, q, hp, hpath⟩ := h.own_path hev
  have hle := hcov p hp _ _ hpath
  have hpos : 0 < (Trace.own c.trace i).countP A :=
    List.countP_pos_iff.mpr ⟨ev, mem_own.mpr hev, hA⟩
  obtain ⟨ev', hev', hB⟩ := List.countP_pos_iff.mp (Nat.lt_of_lt_of_le hpos hle)
  exact ⟨ev', mem_own.mp hev', hB⟩

end Covered

end PayOps.Process
