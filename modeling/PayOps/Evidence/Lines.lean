import PayOps.Evidence.LogContext

/-!
# The lines of a text

`str.splitlines` knows more boundaries than the line feed, which frames the records of a log.

## What is proved

* `splitLines_snoc` — a line feed ends a line, whatever is before it.
* `splitLines_joined` — the lines of a joined text are the lines of its parts.
-/

namespace PayOps

theorem splitLines_cons {line cs : List Char} {c : Char} (h : ∀ ds, c = '\r' → cs = '\n' :: ds → False) :
    splitLines line (c :: cs) =
      if lineBoundary c then line.reverse :: splitLines [] cs else splitLines (c :: line) cs := by
  rw [splitLines]
  exact h

theorem splitLines_plain {p : List Char} (hp : ∀ c ∈ p, lineBoundary c = false) (line rest : List Char) :
    splitLines line (p ++ rest) = splitLines (p.reverse ++ line) rest := by
  induction p generalizing line with
  | nil => rfl
  | cons c p ih =>
    obtain ⟨hc, hp⟩ := List.forall_mem_cons.mp hp
    have hpair : ∀ ds, c = '\r' → p ++ rest = '\n' :: ds → False := by
      rintro ds rfl
      cases hc
    rw [List.cons_append, splitLines_cons hpair, hc, if_neg Bool.false_ne_true, ih hp, List.reverse_cons,
      List.append_assoc]
    rfl

/-- The first boundary ends the line. -/
theorem splitLines_boundary {c : Char} (hc : lineBoundary c = true) (line cs : List Char) :
    ∃ later, splitLines line (c :: cs) = line.reverse :: later := by
  by_cases hpair : c = '\r' ∧ ∃ ds, cs = '\n' :: ds
  · obtain ⟨rfl, ds, rfl⟩ := hpair
    exact ⟨_, rfl⟩
  · refine ⟨splitLines [] cs, ?_⟩
    rw [splitLines_cons fun ds hreturn hds => hpair ⟨hreturn, ds, hds⟩, if_pos hc]

/-- A line feed ends a line, and a carriage return before it belongs to the same boundary. -/
theorem splitLines_snoc (line a b : List Char) :
    splitLines line (a ++ '\n' :: b) = splitLines line (a ++ ['\n']) ++ splitLines [] b := by
  have hfeed (line cs : List Char) : splitLines line ('\n' :: cs) = line.reverse :: splitLines [] cs := rfl
  fun_induction splitLines line a with
  | case1 => simp [hfeed, splitLines]
  | case2 line hline => simp [hfeed, splitLines]
  | case3 line cs ih =>
    have hpair (cs : List Char) : splitLines line ('\r' :: '\n' :: cs) = line.reverse :: splitLines [] cs := rfl
    rw [List.cons_append, List.cons_append, List.cons_append, List.cons_append, hpair, hpair, ih]
    rfl
  | case4 line c cs hpair hc ih =>
    cases cs with
    | nil =>
      by_cases hreturn : c = '\r'
      · subst hreturn
        show line.reverse :: splitLines [] b = _
        rfl
      · simp only [List.cons_append, List.nil_append, splitLines_cons fun _ hc' => absurd hc' hreturn, if_pos hc,
          hfeed]
        rfl
    | cons d ds =>
      have hnot (z : List Char) : ∀ ds', c = '\r' → d :: ds ++ z = '\n' :: ds' → False := by
        rintro ds' rfl hds
        exact hpair ds rfl (by rw [(List.cons.inj hds).1])
      show splitLines line (c :: (d :: ds ++ '\n' :: b)) =
        splitLines line (c :: (d :: ds ++ ['\n'])) ++ splitLines [] b
      rw [splitLines_cons (hnot _), splitLines_cons (hnot _), if_pos hc, if_pos hc, ih]
      rfl
  | case5 line c cs hpair hc ih =>
    have hnot (z : List Char) : ∀ ds, c = '\r' → cs ++ z = '\n' :: ds → False := by
      rintro ds rfl
      exact absurd rfl hc
    rw [List.cons_append, List.cons_append, splitLines_cons (hnot _), splitLines_cons (hnot _), if_neg hc, if_neg hc,
      ih]

/-- A line feed separates, for a reader that passes over empty lines. -/
theorem splitLines_feed {β : Type} (f : List Char → Option β) (hf : f [] = none) (line a b : List Char) :
    (splitLines line (a ++ '\n' :: b)).filterMap f =
      (splitLines line a).filterMap f ++ (splitLines [] b).filterMap f := by
  have hfeed (line : List Char) : splitLines line ('\n' :: b) = line.reverse :: splitLines [] b := rfl
  fun_induction splitLines line a with
  | case1 => simp [hfeed, hf]
  | case2 line hline => simp [hfeed, List.filterMap_cons]; cases f line.reverse <;> rfl
  | case3 line cs ih =>
    have hpair : splitLines line ('\r' :: '\n' :: cs ++ '\n' :: b) =
      line.reverse :: splitLines [] (cs ++ '\n' :: b) := rfl
    rw [hpair, List.filterMap_cons, List.filterMap_cons, ih]
    cases f line.reverse <;> rfl
  | case4 line c cs hpair hc ih =>
    have hend : (splitLines line (c :: cs ++ '\n' :: b)).filterMap f =
        (line.reverse :: splitLines [] (cs ++ '\n' :: b)).filterMap f := by
      cases cs with
      | nil =>
        -- a carriage return at the end of `a` and the line feed are one boundary
        by_cases hreturn : c = '\r'
        · subst hreturn
          show (line.reverse :: splitLines [] b).filterMap f = _
          simp [hfeed, hf, List.filterMap_cons]
        · rw [List.cons_append, splitLines_cons fun _ hc' => absurd hc' hreturn, if_pos hc]
      | cons d ds =>
        rw [List.cons_append, splitLines_cons, if_pos hc]
        rintro ds' rfl hds
        exact hpair _ rfl (by rw [(List.cons.inj hds).1])
    rw [hend, List.filterMap_cons, List.filterMap_cons, ih]
    cases f line.reverse <;> rfl
  | case5 line c cs hpair hc ih =>
    have hplain : ∀ ds, c = '\r' → cs ++ '\n' :: b = '\n' :: ds → False := by
      rintro ds rfl
      exact absurd rfl hc
    rw [List.cons_append, splitLines_cons hplain, if_neg hc, ih]

/-- A text of records, with a line feed between each two. -/
def joined (records : List (List Char)) : List Char := ['\n'].intercalate records

/-- The lines of a joined text are the lines of its parts, for a reader that passes over empty lines. -/
theorem splitLines_joined {β : Type} (f : List Char → Option β) (hf : f [] = none)
    (records : List (List Char)) :
    (splitLines [] (joined records)).filterMap f =
      records.flatMap fun r => (splitLines [] r).filterMap f := by
  induction records with
  | nil => rfl
  | cons r records ih =>
    cases records with
    | nil => simp [joined]
    | cons r' records =>
      rw [List.flatMap_cons, ← ih, ← splitLines_feed f hf]
      rfl

end PayOps
