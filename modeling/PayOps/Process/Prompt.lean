import PayOps.Process.Network

/-!
# Faults that are raised at once

A program that handles no fault raises the first one it is answered. Of a run that returned it is
then known that every request was granted, and of one that raised, which request was not.

## What is proved

* `Prompt.returned`, `Prompt.raised` — what a result says of the answers.
* `Reachable.weaken` — what a machine may do, a machine that may do more may do.
-/

namespace PayOps.Process

open Relation Program

variable {I : Interface} {α β σ : Type}

/-- The fault an event raised. -/
def Event.fault (ev : Event I) : Option I.Fault :=
  match ev.reply with
  | .ok _ => none
  | .error x => some x

/-- A fault is raised at once; requests are in `P`, and what the program raises itself is in `F`. -/
def Prompt (P : I.Effect → Prop) (F : I.Fault → Prop) : Program I α → Prop
  | done _ => True
  | fail x => F x
  | call e k => P e ∧ (∀ x, k (.error x) = fail x) ∧ ∀ a, Prompt P F (k (.ok a))

section Prompt

variable {P : I.Effect → Prop} {F : I.Fault → Prop} {p : Program I α} {h : History I}

theorem prompt_perform {e : I.Effect} (he : P e) : Prompt P F (perform e) :=
  ⟨he, fun _ => rfl, fun _ => trivial⟩

theorem prompt_raiseIf {c : Prop} [Decidable c] {x : I.Fault} (hx : F x) :
    Prompt P F (raiseIf c x : Program I Unit) := by
  unfold raiseIf
  split_ifs
  · exact hx
  · trivial

theorem Prompt.bind {f : α → Program I β} (hp : Prompt P F p) (hf : ∀ a, Prompt P F (f a)) :
    Prompt P F (p.bind f) := by
  induction p with
  | done a => exact hf a
  | fail x => exact hp
  | call e k ih =>
    refine ⟨hp.1, fun x => ?_, fun a => ih (.ok a) (hp.2.2 a)⟩
    show (k (.error x)).bind f = fail x
    rw [hp.2.1 x]
    rfl

/-- **A run that returned was granted every request.** -/
theorem Prompt.returned (hp : Prompt P F p) {a : α} (hr : Runs p h (.ok a)) : ∀ ev ∈ h, ev.fault = none := by
  induction p generalizing h with
  | done b => simp [(runs_done.mp hr).1]
  | fail x => cases (runs_fail.mp hr).2
  | call e k ih =>
    rcases path_call.mp hr with ⟨-, hcall⟩ | ⟨r, h', rfl, hrest⟩
    · cases hcall
    cases r with
    | error x =>
      rw [hp.2.1 x] at hrest
      cases (runs_fail.mp hrest).2
    | ok v => exact List.forall_mem_cons.mpr ⟨rfl, ih (.ok v) (hp.2.2 v) hrest⟩

/-- **A run that raised did so by itself, or it was not granted its last request.** -/
theorem Prompt.raised (hp : Prompt P F p) {x : I.Fault} (hr : Runs p h (.error x)) :
    (∀ ev ∈ h, ∀ y, ev.fault = some y → y = x) ∧
      (F x ∨ ∃ ev ∈ h, P ev.effect ∧ ev.fault = some x) := by
  induction p generalizing h with
  | done b => cases (runs_done.mp hr).2
  | fail y =>
    obtain ⟨rfl, hy⟩ := runs_fail.mp hr
    cases hy
    exact ⟨by simp, .inl hp⟩
  | call e k ih =>
    rcases path_call.mp hr with ⟨-, hcall⟩ | ⟨r, h', rfl, hrest⟩
    · cases hcall
    cases r with
    | error y =>
      rw [hp.2.1 y] at hrest
      obtain ⟨rfl, hy⟩ := runs_fail.mp hrest
      cases hy
      refine ⟨?_, .inr ⟨_, List.mem_singleton.mpr rfl, hp.1, rfl⟩⟩
      simp [Event.fault, eq_comm]
    | ok v =>
      obtain ⟨hall, hlast⟩ := ih (.ok v) (hp.2.2 v) hrest
      refine ⟨List.forall_mem_cons.mpr ⟨fun y hy => (by cases hy), hall⟩, hlast.imp_right ?_⟩
      rintro ⟨ev, hev, hfault⟩
      exact ⟨ev, List.mem_cons_of_mem _ hev, hfault⟩

end Prompt

/-- What a machine may do, a machine that may do more may do. -/
theorem Reachable.weaken {M N : Machine I σ} {Start : Program I α → Prop} {s₀ : σ} {c : Config I σ α}
    (h : Reachable M Start s₀ c) (hMN : ∀ s e r s', M.answer s e r s' → N.answer s e r s') :
    Reachable N Start s₀ c := by
  induction h with
  | refl => exact .refl
  | tail _ hs ih =>
    refine ih.tail ?_
    cases hs with
    | start hp => exact .start hp
    | act hi ha => exact .act hi (hMN _ _ _ _ ha)
    | crash hi => exact .crash hi

end PayOps.Process
