import PayOps.Text.Substitution

/-!
# Substituting twice

When a text is given to a substitution again, what was replaced may match once more, together with what
follows it.

## What is proved

* `Cuts.induction` — a text is read symbol by symbol, or match by match.
* `Cuts.sub_any` — no symbol of a kind is lost that every replacement has.
* `sub_of_tame` — where every match is its own replacement, the text stays as it is.
* `sub_dropWhile` — what no match begins with may be skipped before the substitution or after it.
-/

namespace PayOps.Text

variable {α : Type}

/-- What is left after a match is the end of the text. -/
def Cuts (find : Scanner α) : Prop :=
  ∀ prev x xs rest text, find prev (x :: xs) = some (rest, text) → rest <:+ xs

/-- What is left after each match. -/
def rests (find : Scanner α) : Option α → ℕ → List α → List (List α)
  | _, _, [] => []
  | _, k + 1, x :: xs => rests find (some x) k xs
  | prev, 0, x :: xs =>
    match find prev (x :: xs) with
    | some (rest, _) => rest :: rests find (some x) (xs.length - rest.length) xs
    | none => rests find (some x) 0 xs

/-- Every match is its own replacement. -/
def Tame (find : Scanner α) : Option α → List α → Prop
  | _, [] => True
  | prev, x :: xs =>
    (∀ rest text, find prev (x :: xs) = some (rest, text) → x :: xs = text ++ rest) ∧ Tame find (some x) xs

variable {find : Scanner α} {prev : Option α} {x : α} {xs ys c rest text : List α}

theorem sub_plain (h : find prev (x :: xs) = none) :
    sub find prev 0 (x :: xs) = x :: sub find (some x) 0 xs := by
  rw [sub, h]

theorem sub_matched (h : find prev (x :: (c ++ rest)) = some (rest, text)) :
    sub find prev 0 (x :: (c ++ rest)) = text ++ sub find (lastOf (some x) c) 0 rest := by
  have hlen : (c ++ rest).length - rest.length = c.length := by
    rw [List.length_append]
    omega
  rw [sub, h]
  simp only
  rw [hlen, sub_covered]

/-- A match, and the text that is read on. -/
theorem Cuts.sub_cut (h : Cuts find) (hfind : find prev (x :: xs) = some (rest, text)) :
    ∃ prev', sub find prev 0 (x :: xs) = text ++ sub find prev' 0 rest := by
  obtain ⟨c, rfl⟩ := h prev x xs rest text hfind
  exact ⟨_, sub_matched hfind⟩

theorem rests_covered : rests find prev xs.length (xs ++ ys) = rests find (lastOf prev xs) 0 ys := by
  induction xs generalizing prev with
  | nil => rfl
  | cons x xs ih => exact ih

theorem rests_plain (h : find prev (x :: xs) = none) :
    rests find prev 0 (x :: xs) = rests find (some x) 0 xs := by
  rw [rests, h]

theorem rests_matched (h : find prev (x :: (c ++ rest)) = some (rest, text)) :
    rests find prev 0 (x :: (c ++ rest)) = rest :: rests find (lastOf (some x) c) 0 rest := by
  have hlen : (c ++ rest).length - rest.length = c.length := by
    rw [List.length_append]
    omega
  rw [rests, h]
  simp only
  rw [hlen, rests_covered]

/-- **A text is read symbol by symbol, or match by match.** -/
theorem Cuts.induction (h : Cuts find) {P : Option α → List α → Prop} (nil : ∀ prev, P prev [])
    (plain : ∀ prev x xs, find prev (x :: xs) = none → P (some x) xs → P prev (x :: xs))
    (matched : ∀ prev x c rest text, find prev (x :: (c ++ rest)) = some (rest, text) →
      P (lastOf (some x) c) rest → P prev (x :: (c ++ rest))) (prev : Option α) (xs : List α) : P prev xs := by
  have bounded : ∀ n (prev : Option α) (xs : List α), xs.length ≤ n → P prev xs := by
    intro n
    induction n with
    | zero =>
      intro prev xs hlen
      rw [List.length_eq_zero_iff.mp (Nat.le_zero.mp hlen)]
      exact nil prev
    | succ n ih =>
      intro prev xs hlen
      cases xs with
      | nil => exact nil prev
      | cons x xs =>
        rw [List.length_cons] at hlen
        cases hfind : find prev (x :: xs) with
        | none => exact plain prev x xs hfind (ih _ _ (by omega))
        | some m =>
          obtain ⟨rest, text⟩ := m
          obtain ⟨c, rfl⟩ := h prev x xs rest text hfind
          rw [List.length_append] at hlen
          exact matched prev x c rest text hfind (ih _ _ (by omega))
  exact bounded xs.length prev xs le_rfl

/-- A symbol of a kind that every replacement has is in the result, if one is in the text. -/
theorem Cuts.sub_any {q : α → Bool} (h : Cuts find)
    (hkept : ∀ prev xs rest text, find prev xs = some (rest, text) → ∃ y ∈ text, q y = true) (prev : Option α)
    (xs : List α) : (∃ y ∈ xs, q y = true) → ∃ y ∈ sub find prev 0 xs, q y = true := by
  refine h.induction
    (P := fun prev xs => (∃ y ∈ xs, q y = true) → ∃ y ∈ sub find prev 0 xs, q y = true) ?_ ?_ ?_ prev xs
  · simp
  · rintro prev x xs hfind ih ⟨y, hy, hq⟩
    rw [sub_plain hfind]
    rcases List.mem_cons.mp hy with rfl | hy
    · exact ⟨y, List.mem_cons_self, hq⟩
    · obtain ⟨z, hz, hq⟩ := ih ⟨y, hy, hq⟩
      exact ⟨z, List.mem_cons_of_mem x hz, hq⟩
  · intro prev x c rest text hfind ih _
    obtain ⟨y, hy, hq⟩ := hkept _ _ _ _ hfind
    rw [sub_matched hfind]
    exact ⟨y, List.mem_append_left _ hy, hq⟩

theorem Tame.covered (h : Tame find prev (c ++ rest)) : Tame find (lastOf prev c) rest := by
  induction c generalizing prev with
  | nil => exact h
  | cons x c ih => exact ih h.2

/-- **Where every match is its own replacement**, the text stays as it is. -/
theorem sub_of_tame (h : Cuts find) (prev : Option α) (xs : List α) :
    Tame find prev xs → sub find prev 0 xs = xs := by
  refine h.induction (P := fun prev xs => Tame find prev xs → sub find prev 0 xs = xs) ?_ ?_ ?_ prev xs
  · exact fun _ _ => rfl
  · intro prev x xs hfind ih ht
    rw [sub_plain hfind, ih ht.2]
  · intro prev x c rest text hfind ih ht
    rw [sub_matched hfind, ih ht.2.covered, ht.1 rest text hfind]

/-- What begins no match is tame. -/
theorem Tame.append (hquiet : ∀ prev, ∀ x ∈ xs, ∀ zs, find prev (x :: zs) = none)
    (h : Tame find (lastOf prev xs) ys) : Tame find prev (xs ++ ys) := by
  induction xs generalizing prev with
  | nil => exact h
  | cons x xs ih =>
    refine ⟨fun rest text hfind => ?_, ih (fun prev y hy => hquiet prev y (List.mem_cons_of_mem _ hy)) h⟩
    rw [hquiet prev x List.mem_cons_self] at hfind
    cases hfind

/-- Where no match can begin, the symbol before does not matter. -/
theorem Tame.of_head {prev' : Option α} (hhead : ∀ prev, xs ≠ [] → find prev xs = none) (h : Tame find prev xs) :
    Tame find prev' xs := by
  cases xs with
  | nil => trivial
  | cons x xs =>
    refine ⟨fun rest text hfind => ?_, h.2⟩
    rw [hhead prev' (List.cons_ne_nil _ _)] at hfind
    cases hfind

/-- **Skipping and substituting**: what no match begins with may be skipped before or after. -/
theorem sub_dropWhile {q : α → Bool} (hskip : ∀ prev x xs, q x = true → find prev (x :: xs) = none)
    (hhead : ∀ prev x xs rest text, find prev (x :: xs) = some (rest, text) →
      ∃ y ys, text = y :: ys ∧ q y = false) (prev : Option α) (xs : List α) :
    ∃ prev', (sub find prev 0 xs).dropWhile q = sub find prev' 0 (xs.dropWhile q) := by
  induction xs generalizing prev with
  | nil => exact ⟨prev, rfl⟩
  | cons x xs ih =>
    by_cases hx : q x = true
    · obtain ⟨prev', h⟩ := ih (some x)
      exact ⟨prev', by rw [sub_plain (hskip prev x xs hx), List.dropWhile_cons_of_pos hx,
        List.dropWhile_cons_of_pos hx, h]⟩
    · refine ⟨prev, ?_⟩
      rw [List.dropWhile_cons_of_neg hx]
      cases hfind : find prev (x :: xs) with
      | none => rw [sub_plain hfind, List.dropWhile_cons_of_neg hx]
      | some m =>
        obtain ⟨rest, text⟩ := m
        obtain ⟨y, ys, rfl, hy⟩ := hhead prev x xs rest text hfind
        rw [sub, hfind]
        simp only [List.cons_append]
        rw [List.dropWhile_cons_of_neg (by simp [hy])]

end PayOps.Text
