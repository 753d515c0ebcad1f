import PayOps.Process.Assures
import PayOps.Process.Runner

/-!
# One call after the other

Calls that exclude each other run one after the other. A call may be cut off at any point: the next
one then starts from the state that the machine was left in.

## The model

A history of calls is a list of sessions, the last of which is the current one. A crash is the start
of a call after one that has not ended.

## What is proved

* `Serial.guarded` — **what every call assures, every step of every history of calls satisfies**.
* `Serial.invariant`, `Serial.tally`, `Serial.count_le` — invariants, and counting, over all sessions.
* `Serial.preceded_le` — counting events by what comes just before them.
* `Serial.only` — assumptions on the answers of a history are a restriction of the machine.
* `Serial.perform`, `Program.Leads` — histories of given calls, which may stop anywhere.
-/

namespace PayOps.Process

open Relation Program

variable {I : Interface} {σ α : Type}

/-- A call: its program, what was answered, and what is left. -/
structure Session (I : Interface) (α : Type) where
  /-- The program. -/
  program : Program I α
  /-- Its events. -/
  events : History I
  /-- What is left to do. -/
  rest : Program I α

/-- The state of the machine, and the calls so far. -/
structure Sessions (I : Interface) (σ α : Type) where
  /-- The state of the machine. -/
  shared : σ
  /-- The calls, in order. -/
  log : List (Session I α)

/-- All events, in order. -/
def Sessions.events (c : Sessions I σ α) : History I := c.log.flatMap Session.events

/-- One step of a history of calls, whose programs are in `Start`. -/
inductive SerialStep (M : Machine I σ) (Start : Program I α → Prop) :
    Sessions I σ α → Sessions I σ α → Prop
  /-- A new call, whether or not the last one has ended. -/
  | start {c : Sessions I σ α} {p : Program I α} : Start p →
      SerialStep M Start c ⟨c.shared, c.log ++ [⟨p, [], p⟩]⟩
  /-- The current call gets the answer to its next request. -/
  | act {s s' : σ} {log : List (Session I α)} {p : Program I α} {h : History I} {e : I.Effect}
      {k : Except I.Fault (I.Reply e) → Program I α} {r : Except I.Fault (I.Reply e)} :
      M.answer s e r s' →
      SerialStep M Start ⟨s, log ++ [⟨p, h, call e k⟩]⟩ ⟨s', log ++ [⟨p, h ++ [⟨e, r⟩], k r⟩]⟩

/-- The histories of calls from the state `s₀`. -/
def Serial (M : Machine I σ) (Start : Program I α → Prop) (s₀ : σ) (c : Sessions I σ α) : Prop :=
  ReflTransGen (SerialStep M Start) ⟨s₀, []⟩ c

section Serial

variable {M : Machine I σ} {Start : Program I α → Prop} {s₀ : σ} {c c' : Sessions I σ α}

@[simp] theorem events_append (s : σ) (log : List (Session I α)) (x : Session I α) :
    Sessions.events (⟨s, log ++ [x]⟩ : Sessions I σ α) = Sessions.events ⟨s, log⟩ ++ x.events := by
  simp [Sessions.events]

/-- The events of every call are a path of its program, which may be started. -/
theorem Serial.path (h : Serial M Start s₀ c) :
    ∀ x ∈ c.log, Start x.program ∧ Path x.program x.events x.rest := by
  induction h with
  | refl => simp
  | tail hb hs ih =>
    cases hs with
    | start hp =>
      intro x hx
      rcases List.mem_append.mp hx with hold | hnew
      · exact ih x hold
      · obtain rfl := List.mem_singleton.mp hnew
        exact ⟨hp, .refl⟩
    | act ha =>
      intro x hx
      rcases List.mem_append.mp hx with hold | hnew
      · exact ih x (List.mem_append_left _ hold)
      · obtain rfl := List.mem_singleton.mp hnew
        obtain ⟨hp, hpath⟩ := ih _ (List.mem_append_right _ (List.mem_singleton.mpr rfl))
        exact ⟨hp, hpath.trans (.step .refl)⟩

/-- **Invariants of a history of calls**, over the state and all events. -/
theorem Serial.invariant (Inv : σ → History I → Prop) (h : Serial M Start s₀ c) (init : Inv s₀ [])
    (step : ∀ s tr p e r s' g q, Inv s tr → Start p → Path p (g ++ [⟨e, r⟩]) q → M.answer s e r s' →
      Inv s' (tr ++ [⟨e, r⟩])) : Inv c.shared c.events := by
  induction h with
  | refl => exact init
  | @tail b c' hb hs ih =>
    cases hs with
    | start hp => simpa using ih
    | @act s s' log p g e k r ha =>
      obtain ⟨hp, hpath⟩ := Serial.path hb _ (List.mem_append_right _ (List.mem_singleton.mpr rfl))
      simp only [events_append, ← List.append_assoc] at ih ⊢
      exact step _ _ p e r _ g (k r) ih hp (hpath.trans (.step .refl)) ha

/-- **What every call assures, every step satisfies.** An invariant that holds at first, and that
the guarantee keeps, holds always; from a state with the invariant every call assures the
guarantee. Then the guarantee holds of each step. -/
theorem Serial.guarded {G : Guarantee I σ} {Inv : σ → Prop} (h : Serial M Start s₀ c)
    (init : Inv s₀) (keep : ∀ g s ev s', Inv s → G g s ev s' → Inv s')
    (assures : ∀ p s, Start p → Inv s → Assures M G p [] s fun _ _ _ => True) :
    Inv c.shared ∧ ∀ log x, c.log = log ++ [x] →
      Assures M G x.rest x.events c.shared fun _ _ _ => True := by
  induction h with
  | refl => exact ⟨init, by simp⟩
  | @tail b c' hb hs ih =>
    obtain ⟨hinv, hlast⟩ := ih
    cases hs with
    | start hp =>
      refine ⟨hinv, fun log x hlog => ?_⟩
      obtain ⟨-, hx⟩ := List.append_inj' hlog rfl
      rw [← List.singleton_inj.mp hx]
      exact assures _ _ hp hinv
    | @act s s' past p g e k r ha =>
      obtain ⟨hG, hrest⟩ := hlast _ _ rfl r s' ha
      refine ⟨keep _ _ _ _ hinv hG, fun log x hlog => ?_⟩
      obtain ⟨-, hx⟩ := List.append_inj' hlog rfl
      obtain rfl := List.singleton_inj.mp hx
      exact hrest

/-- **From one state to a later one**: a relation that is reflexive and transitive, and that the
guarantee of every step implies, holds. -/
theorem Serial.later {G : Guarantee I σ} {Inv : σ → Prop} {R : σ → σ → Prop}
    (h : Serial M Start s₀ c) (init : Inv s₀) (keep : ∀ g s ev s', Inv s → G g s ev s' → Inv s')
    (assures : ∀ p s, Start p → Inv s → Assures M G p [] s fun _ _ _ => True)
    (refl : ∀ s, R s s) (trans : ∀ a b c, R a b → R b c → R a c)
    (step : ∀ g s ev s', Inv s → G g s ev s' → R s s')
    (hlater : ReflTransGen (SerialStep M Start) c c') : R c.shared c'.shared := by
  induction hlater with
  | refl => exact refl _
  | @tail b c' hb hs ih =>
    refine trans _ _ _ ih ?_
    obtain ⟨hinv, hlast⟩ := Serial.guarded (h.trans hb) init keep assures
    cases hs with
    | start _ => exact refl _
    | @act s s' past p g e k r ha => exact step _ _ _ _ hinv (hlast _ _ rfl r s' ha).1

/-- **A tally over all events**: what the guarantee of every step keeps of the state and of the events so
far. -/
theorem Serial.tally {G : Guarantee I σ} {Inv : σ → Prop} {Tally : σ → History I → Prop}
    (h : Serial M Start s₀ c) (init : Inv s₀) (keep : ∀ g s ev s', Inv s → G g s ev s' → Inv s')
    (assures : ∀ p s, Start p → Inv s → Assures M G p [] s fun _ _ _ => True) (start : Tally s₀ [])
    (step : ∀ tr g s ev s', Inv s → Tally s tr → G g s ev s' → Tally s' (tr ++ [ev])) :
    Tally c.shared c.events := by
  induction h with
  | refl => exact start
  | @tail b c' hb hs ih =>
    cases hs with
    | start hp => simpa using ih
    | @act s s' past p g e k r ha =>
      obtain ⟨hinv, hlast⟩ := Serial.guarded hb init keep assures
      have hG := (hlast _ _ rfl r s' ha).1
      simp only [events_append, ← List.append_assoc] at ih ⊢
      exact step _ _ _ _ _ hinv ih hG

/-- **Counting over all calls**: if every program is covered, so are all events. -/
theorem Serial.count_le {A B : Event I → Bool} (h : Serial M Start s₀ c)
    (hcov : ∀ p, Start p → Covered A B p) : c.events.countP A ≤ c.events.countP B := by
  have all : ∀ log : List (Session I α),
      (∀ x ∈ log, Start x.program ∧ Path x.program x.events x.rest) →
      (log.flatMap Session.events).countP A ≤ (log.flatMap Session.events).countP B := by
    intro log hpath
    induction log with
    | nil => exact le_rfl
    | cons x log ih =>
      rw [List.flatMap_cons, List.countP_append, List.countP_append]
      obtain ⟨hp, hx⟩ := hpath x List.mem_cons_self
      have hhead := hcov _ hp _ _ hx
      have htail := ih fun y hy => hpath y (List.mem_cons_of_mem _ hy)
      omega
  exact all c.log h.path

/-- **Counting by what comes just before**: if every call assures that an event of kind `A` comes just
after one of kind `B`, there are at most as many. -/
theorem Serial.preceded_le {A B : Event I → Bool} {G : Guarantee I σ} {Inv : σ → Prop}
    (h : Serial M Start s₀ c) (init : Inv s₀) (keep : ∀ g s ev s', Inv s → G g s ev s' → Inv s')
    (assures : ∀ p s, Start p → Inv s → Assures M G p [] s fun _ _ _ => True)
    (disjoint : ∀ ev, B ev = true → A ev = false)
    (preceded : ∀ g s ev s', Inv s → G g s ev s' → A ev = true → ∃ g' b, g = g' ++ [b] ∧ B b = true) :
    c.events.countP A ≤ c.events.countP B ∧ ∀ log x g b, c.log = log ++ [x] → x.events = g ++ [b] →
      B b = true → c.events.countP A + 1 ≤ c.events.countP B := by
  induction h with
  | refl => exact ⟨le_rfl, by simp⟩
  | @tail b c' hb hs ih =>
    obtain ⟨hle, hpending⟩ := ih
    cases hs with
    | @start _ p hp =>
      refine ⟨by simpa using hle, fun log x g b hlog hx => ?_⟩
      obtain ⟨-, hlast⟩ := List.append_inj' hlog rfl
      rw [← List.singleton_inj.mp hlast] at hx
      exact absurd hx (by simp)
    | @act s s' past p g e k r ha =>
      obtain ⟨hinv, hlast⟩ := Serial.guarded hb init keep assures
      have hG := (hlast _ _ rfl r s' ha).1
      have hevents : (⟨s', past ++ [⟨p, g ++ [⟨e, r⟩], k r⟩]⟩ : Sessions I σ α).events =
          (⟨s, past ++ [⟨p, g, call e k⟩]⟩ : Sessions I σ α).events ++ [⟨e, r⟩] := by
        simp [Sessions.events]
      rw [hevents, List.countP_append, List.countP_append, List.countP_singleton, List.countP_singleton]
      have hearned : A ⟨e, r⟩ = true → (⟨s, past ++ [⟨p, g, call e k⟩]⟩ : Sessions I σ α).events.countP A + 1 ≤
          (⟨s, past ++ [⟨p, g, call e k⟩]⟩ : Sessions I σ α).events.countP B := fun hA => by
        obtain ⟨g', b, hg, hB⟩ := preceded _ _ _ _ hinv hG hA
        exact hpending past _ g' b rfl hg hB
      refine ⟨?_, fun log x g' b hlog hx hB => ?_⟩
      · by_cases hA : A ⟨e, r⟩ = true
        · have := hearned hA
          rw [if_pos hA]
          omega
        · rw [if_neg hA]
          omega
      · obtain ⟨-, hnew⟩ := List.append_inj' hlog rfl
        rw [← List.singleton_inj.mp hnew] at hx
        obtain ⟨-, hb'⟩ := List.append_inj' hx rfl
        obtain rfl := List.singleton_inj.mp hb'
        rw [if_pos hB, disjoint _ hB, if_neg (by simp)]
        omega

/-- A machine that answers only what satisfies `A`. -/
def Machine.only (M : Machine I σ) (A : Event I → Prop) : Machine I σ :=
  ⟨fun s e r s' => M.answer s e r s' ∧ A ⟨e, r⟩⟩

/-- **A history whose events all satisfy `A`** is one of the machine that answers nothing else. -/
theorem Serial.only {A : Event I → Prop} (h : Serial M Start s₀ c) (hA : ∀ ev ∈ c.events, A ev) :
    Serial (M.only A) Start s₀ c := by
  induction h with
  | refl => exact .refl
  | tail hb hs ih =>
    cases hs with
    | start hp =>
      refine (ih fun ev hev => hA ev ?_).tail (.start hp)
      rw [events_append]
      exact List.mem_append_left _ hev
    | act ha =>
      refine (ih fun ev hev => hA ev ?_).tail (.act ⟨ha, hA _ ?_⟩)
      · rw [events_append] at hev ⊢
        rw [← List.append_assoc]
        exact List.mem_append_left _ hev
      · rw [events_append]
        simp

/-! ### Where a program may come to -/

/-- From the state `s` the program may come to events and a state in `Q`, whether or not it has ended. -/
def Program.Leads (M : Machine I σ) (p : Program I α) (s : σ) (Q : History I → σ → Prop) : Prop :=
  ∃ g q s', Performs M p s g q s' ∧ Q g s'

section Leads

variable {β : Type} {p : Program I α} {s s' : σ} {Q : History I → σ → Prop}

/-- It is there. -/
theorem Program.Leads.here (h : Q [] s) : p.Leads M s Q := ⟨[], p, s, .refl, h⟩

/-- It gets the answer to its next request. -/
theorem Program.Leads.act {e : I.Effect} {k : Except I.Fault (I.Reply e) → Program I α}
    (r : Except I.Fault (I.Reply e)) (ha : M.answer s e r s')
    (h : (k r).Leads M s' fun g s'' => Q (⟨e, r⟩ :: g) s'') : (call e k).Leads M s Q := by
  obtain ⟨g, q, s'', hrun, hQ⟩ := h
  exact ⟨_, q, s'', .step ha hrun, hQ⟩

/-- It is in the first part of a composition. -/
theorem Program.Leads.bind {f : α → Program I β} (h : p.Leads M s Q) : (p.bind f).Leads M s Q := by
  obtain ⟨g, q, s', hrun, hQ⟩ := h
  refine ⟨g, q.bind f, s', ?_, hQ⟩
  clear hQ
  induction hrun with
  | refl => exact .refl
  | step ha _ ih => exact .step ha ih

/-- It is in a part whose failure is handled. -/
theorem Program.Leads.tryCatch {f : I.Fault → Program I α} (h : p.Leads M s Q) :
    (p.tryCatch f).Leads M s Q := by
  obtain ⟨g, q, s', hrun, hQ⟩ := h
  refine ⟨g, q.tryCatch f, s', ?_, hQ⟩
  clear hQ
  induction hrun with
  | refl => exact .refl
  | step ha _ ih => exact .step ha ih

end Leads

/-- What a handler does is a run of the states. -/
theorem Program.performs {H : Handler I σ} (hH : ∀ e s, M.answer s e (H e s).1 (H e s).2)
    (p : Program I α) (s : σ) :
    Performs M p s (p.run H s).events (.ofResult (p.run H s).result) (p.run H s).state := by
  induction p generalizing s with
  | done a => exact .refl
  | fail x => exact .refl
  | call e k ih => exact .step (hH e s) (ih _ _)

/-- The history after one more call has run. -/
def Sessions.ran (H : Handler I σ) (c : Sessions I σ α) (p : Program I α) : Sessions I σ α :=
  let o := p.run H c.shared
  ⟨o.state, c.log ++ [⟨p, o.events, .ofResult o.result⟩]⟩

/-- A run of the states is a call. -/
theorem Serial.perform (log : List (Session I α)) {p q : Program I α} {s s' : σ} {g : History I}
    (h : Serial M Start s₀ ⟨s, log⟩) (hp : Start p) (hrun : Performs M p s g q s') :
    Serial M Start s₀ ⟨s', log ++ [⟨p, g, q⟩]⟩ := by
  have acts : ∀ {p' q' : Program I α} {s s' : σ} {g g' : History I}, Performs M p' s g' q' s' →
      Serial M Start s₀ ⟨s, log ++ [⟨p, g, p'⟩]⟩ → Serial M Start s₀ ⟨s', log ++ [⟨p, g ++ g', q'⟩]⟩ := by
    intro p' q' s s' g g' hrun
    induction hrun generalizing g with
    | refl => simp
    | step ha _ ih =>
      intro hs
      have := ih (hs.tail (.act ha))
      simpa using this
  simpa using acts hrun (h.tail (.start hp))

/-- **A whole call**: what a handler does, a history of calls may do. -/
theorem Serial.call {H : Handler I σ} (h : Serial M Start s₀ c)
    (hH : ∀ e s, M.answer s e (H e s).1 (H e s).2) {p : Program I α} (hp : Start p) :
    Serial M Start s₀ (c.ran H p) := Serial.perform c.log h hp (Program.performs hH p c.shared)

end Serial

end PayOps.Process
