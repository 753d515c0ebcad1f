import PayOps.Process.Program

/-!
# Requests answered by programs

A program may be run inside of another one, which answers its requests by programs of its own.

## What is proved

* `runs_inline` — a run of the inner program, each of whose requests was answered by a run.
* `Within.inline` — the requests of the whole are those of the answers.
-/

namespace PayOps.Process

open Program

variable {Ef Ef' F α : Type} {Re : Ef → Type} {Re' : Ef' → Type}

/-- Answer each request of a program by a program. -/
def Program.inline (f : (e : Ef) → Program ⟨Ef', Re', F⟩ (Re e)) :
    Program ⟨Ef, Re, F⟩ α → Program ⟨Ef', Re', F⟩ α
  | .done a => .done a
  | .fail x => .fail x
  | .call e k => (f e).attempt.bind fun r => Program.inline f (k r)

/-- The requests in `g` were answered by the runs that make up `h`. -/
inductive Expands (f : (e : Ef) → Program ⟨Ef', Re', F⟩ (Re e)) :
    History ⟨Ef, Re, F⟩ → History ⟨Ef', Re', F⟩ → Prop
  /-- No request. -/
  | nil : Expands f [] []
  /-- One request, and the others. -/
  | cons {e : Ef} {r : Except F (Re e)} {g : History ⟨Ef, Re, F⟩} {h₁ h₂ : History ⟨Ef', Re', F⟩} :
      Runs (f e) h₁ r → Expands f g h₂ → Expands f (⟨e, r⟩ :: g) (h₁ ++ h₂)

variable {f : (e : Ef) → Program ⟨Ef', Re', F⟩ (Re e)}

/-- **Runs of an inlined program.** -/
theorem runs_inline {p : Program ⟨Ef, Re, F⟩ α} {h : History ⟨Ef', Re', F⟩} {r : Except F α}
    (hruns : Runs (p.inline f) h r) : ∃ g, Runs p g r ∧ Expands f g h := by
  induction p generalizing h with
  | done a =>
    obtain ⟨rfl, rfl⟩ := runs_done.mp hruns
    exact ⟨[], runs_done.mpr ⟨rfl, rfl⟩, .nil⟩
  | fail x =>
    obtain ⟨rfl, rfl⟩ := runs_fail.mp hruns
    exact ⟨[], runs_fail.mpr ⟨rfl, rfl⟩, .nil⟩
  | call e k ih =>
    rcases runs_bind.mp hruns with ⟨x, -, hx⟩ | ⟨out, h₁, h₂, rfl, hanswer, hrest⟩
    · obtain ⟨r', hr', -⟩ := runs_attempt.mp hx
      cases hr'
    · obtain ⟨r', hr', hanswer⟩ := runs_attempt.mp hanswer
      cases hr'
      obtain ⟨g, hg, hexpands⟩ := ih out hrest
      exact ⟨⟨e, out⟩ :: g, .step hg, .cons hanswer hexpands⟩

theorem Within.inline {P : Ef' → Prop} (hf : ∀ e, Within P (f e)) (p : Program ⟨Ef, Re, F⟩ α) :
    Within P (p.inline f) := by
  induction p with
  | done a => trivial
  | fail x => trivial
  | call e k ih => exact (within_attempt.mpr (hf e)).bind ih

/-- Where the requests are split, so is the run. -/
theorem Expands.split {g₁ g₂ : History ⟨Ef, Re, F⟩} {h : History ⟨Ef', Re', F⟩}
    (hexpands : Expands f (g₁ ++ g₂) h) : ∃ h₁ h₂, h = h₁ ++ h₂ ∧ Expands f g₁ h₁ ∧ Expands f g₂ h₂ := by
  induction g₁ generalizing h with
  | nil => exact ⟨[], h, rfl, .nil, hexpands⟩
  | cons ev g₁ ih =>
    cases hexpands with
    | cons hruns hrest =>
      obtain ⟨h₁, h₂, rfl, hfirst, hsecond⟩ := ih hrest
      exact ⟨_, h₂, (List.append_assoc ..).symm, .cons hruns hfirst, hsecond⟩

/-- An event of the whole belongs to the answer of a request. -/
theorem Expands.mem {g : History ⟨Ef, Re, F⟩} {h : History ⟨Ef', Re', F⟩} (hexpands : Expands f g h)
    {ev : Event ⟨Ef', Re', F⟩} (hev : ev ∈ h) :
    ∃ (e : Ef) (r : Except F (Re e)) (h' : History ⟨Ef', Re', F⟩),
      (⟨e, r⟩ : Event ⟨Ef, Re, F⟩) ∈ g ∧ Runs (f e) h' r ∧ ev ∈ h' := by
  induction hexpands with
  | nil => cases hev
  | @cons e r g h₁ h₂ hruns _ ih =>
    rcases List.mem_append.mp hev with hev | hev
    · exact ⟨e, r, h₁, List.mem_cons_self, hruns, hev⟩
    · obtain ⟨e', r', h', hmem, hruns', hev'⟩ := ih hev
      exact ⟨e', r', h', List.mem_cons_of_mem _ hmem, hruns', hev'⟩

end PayOps.Process
