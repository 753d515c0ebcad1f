import Mathlib.Data.List.Infix

/-!
# Occurrences of a word in a text

The positions at which a word stands in a text. A text is cut before a symbol that the word has at most in
its first place: no occurrence goes over such a cut, so that those in the text are those in the two parts.

## What is proved

* `mem_occurrences` — a position is listed if the word starts there.
* `occurrences_cut` — the occurrences in a text that is cut so.
-/

namespace PayOps.Text

variable {α : Type} [DecidableEq α]

/-- The positions at which a word stands in a text. -/
def occurrences (d : List α) : List α → List ℕ
  | [] => []
  | x :: xs => (if d <+: x :: xs then [0] else []) ++ (occurrences d xs).map (· + 1)

theorem mem_occurrences {d : List α} (hd : d ≠ []) (xs : List α) (i : ℕ) :
    i ∈ occurrences d xs ↔ d <+: xs.drop i := by
  induction xs generalizing i with
  | nil => simp [occurrences, hd]
  | cons x xs ih =>
    cases i with
    | zero => simp [occurrences]
    | succ i =>
      have hfirst : i + 1 ∉ if d <+: x :: xs then [0] else [] := by split_ifs <;> simp
      simp [occurrences, hfirst, ih]

theorem occurrences_eq_nil {d : List α} (hd : d ≠ []) {xs : List α} (h : ¬ d <:+: xs) : occurrences d xs = [] := by
  rw [List.eq_nil_iff_forall_not_mem]
  intro i hi
  exact h (((mem_occurrences hd xs i).mp hi).isInfix.trans (List.drop_suffix i xs).isInfix)

omit [DecidableEq α] in
/-- A word without a symbol does not go over it. -/
theorem prefix_cut {d : List α} {c : α} (h : c ∉ d) (xs ys : List α) : d <+: xs ++ c :: ys ↔ d <+: xs := by
  induction d generalizing xs with
  | nil => simp
  | cons e d ih =>
    rw [List.mem_cons, not_or] at h
    cases xs with
    | nil => simp [List.cons_prefix_cons, Ne.symm h.1]
    | cons x xs => simp [List.cons_prefix_cons, ih h.2]

theorem occurrences_cut {d : List α} {c : α} (h : c ∉ d.tail) (xs ys : List α) :
    occurrences d (xs ++ c :: ys) = occurrences d xs ++ (occurrences d (c :: ys)).map (· + xs.length) := by
  induction xs with
  | nil => simp [occurrences]
  | cons x xs ih =>
    have hfirst : d <+: x :: (xs ++ c :: ys) ↔ d <+: x :: xs := by
      cases d with
      | nil => simp
      | cons e d => rw [List.cons_prefix_cons, List.cons_prefix_cons, prefix_cut (show c ∉ d from h)]
    simp only [List.cons_append, occurrences, hfirst, ih, List.map_append, List.map_map, List.append_assoc,
      List.length_cons]
    congr 3

/-- A symbol with which the word does not start only moves the occurrences. -/
theorem occurrences_cons {e c : α} {d : List α} (h : e ≠ c) (xs : List α) :
    occurrences (e :: d) (c :: xs) = (occurrences (e :: d) xs).map (· + 1) := by
  simp [occurrences, List.cons_prefix_cons, h]

end PayOps.Text
