import PayOps.Evidence.Derived
import PayOps.Evidence.SpanRecovery
import PayOps.Tools.OperationalReads

/-!
# What redaction leaves as it is

Records that are derived from evidence are redacted before they are retained. Here are the texts and the values that
come out as they went in.

## The model

A text is quiet if none of its parts begins as a credential does. A value is retained whole if its texts are redacted to
themselves and none of its keys is sensitive; `Whole` also says that its numbers are read back.

## What is proved

* `redactText_quiet` — a quiet text is redacted to itself.
* `quiet_append`, `quiet_plain` — quiet texts that are joined, and texts without the letters that it takes.
* `Whole.redact` — **main result**: a value that is retained whole is redacted to itself.
-/

namespace PayOps.Evidence

open Json (Printable field scanNumber)
open Tools (tame_of_none)

/-! ### Texts -/

/-- How the texts begin that are replaced. -/
def openings : List (List Char) := "bearer".toList :: keywords

/-- No part of the text begins so. -/
def quiet : List Char → Bool
  | [] => true
  | c :: cs => !(openings.any fun k => k.isPrefixOf ((c :: cs).map foldCase)) && quiet cs

theorem openings_ne_nil : ∀ k ∈ openings, k ≠ [] := by decide

/-- A part of a quiet text begins as it should. -/
theorem quiet_part {xs ys k : List Char} (h : quiet xs = true) (hys : ys <:+ xs) (hk : k ∈ openings) :
    ¬k <+: ys.map foldCase := by
  intro hstart
  cases ys with
  | nil => exact openings_ne_nil k hk (List.prefix_nil.mp hstart)
  | cons y ys =>
    induction xs with
    | nil => simp at hys
    | cons x xs ih =>
      rw [quiet, Bool.and_eq_true, Bool.not_eq_true', List.any_eq_false] at h
      rcases List.suffix_cons_iff.mp hys with hsame | hsuffix
      · rw [← hsame] at h
        exact h.1 k hk (List.isPrefixOf_iff_prefix.mpr hstart)
      · exact ih h.2 hsuffix

/-- A text is quiet if its parts begin as they should. -/
theorem quiet_of_parts {xs : List Char} (h : ∀ ys, ys <:+ xs → ∀ k ∈ openings, ¬k <+: ys.map foldCase) :
    quiet xs = true := by
  induction xs with
  | nil => rfl
  | cons x xs ih =>
    rw [quiet, Bool.and_eq_true, Bool.not_eq_true', List.any_eq_false]
    refine ⟨fun k hk hstart => ?_, ih fun ys hys => h ys (hys.trans (List.suffix_cons x xs))⟩
    exact h _ List.suffix_rfl k hk (List.isPrefixOf_iff_prefix.mp hstart)

/-- **A quiet text is redacted to itself.** -/
theorem redactText_quiet [Platform] {text : String} (h : quiet text.toList = true) : redactText text = text := by
  have hbearer : ∀ prev ys, ys <:+ text.toList → bearer prev ys = none := by
    intro prev ys hys
    cases hfind : bearer prev ys with
    | none => rfl
    | some m =>
      obtain ⟨rest, out⟩ := m
      obtain ⟨-, hstart, -⟩ := bearer_eq_some hfind
      exact absurd hstart (quiet_part h hys List.mem_cons_self)
  have hassignment : ∀ prev ys, ys <:+ text.toList → assignment prev ys = none := by
    intro prev ys hys
    cases hfind : assignment prev ys with
    | none => rfl
    | some m =>
      obtain ⟨rest, out⟩ := m
      obtain ⟨-, k, value, hkeyword, -⟩ := assignment_eq_some hfind
      obtain ⟨hk, hstart⟩ := keyword_mem hkeyword
      exact absurd hstart (quiet_part h hys (List.mem_cons_of_mem _ hk))
  have hfirst : redactBearer text.toList = text.toList :=
    Text.sub_of_tame cuts_bearer none _ (tame_of_none hbearer)
  rw [redactText, hfirst, Text.sub_of_tame cuts_assignment none _ (tame_of_none hassignment), String.ofList_toList]

/-- What a part begins with does not reach over a character that none of the openings has. -/
theorem prefix_of_stop {k xs ys : List Char} {d : Char} (hd : d ∉ k) (h : k <+: xs ++ d :: ys) : k <+: xs := by
  rcases List.prefix_or_prefix_of_prefix h (List.prefix_append xs (d :: ys)) with hshort | ⟨t, rfl⟩
  · exact hshort
  · rw [List.prefix_append_right_inj] at h
    cases t with
    | nil => simp
    | cons e t =>
      obtain ⟨rfl, -⟩ := List.cons_prefix_cons.mp h
      simp at hd

/-- **Quiet texts are joined** before a character that none of the openings has. -/
theorem quiet_append {xs ys : List Char} {d : Char} (hd : ∀ k ∈ openings, foldCase d ∉ k) (hxs : quiet xs = true)
    (hys : quiet (d :: ys) = true) : quiet (xs ++ d :: ys) = true := by
  induction xs with
  | nil => exact hys
  | cons x xs ih =>
    have hpart := fun k hk => quiet_part (k := k) hxs List.suffix_rfl hk
    rw [quiet, Bool.and_eq_true] at hxs
    rw [List.cons_append, quiet, Bool.and_eq_true, Bool.not_eq_true', List.any_eq_false]
    refine ⟨fun k hk hstart => ?_, ih hxs.2⟩
    have hreach := List.isPrefixOf_iff_prefix.mp hstart
    rw [← List.cons_append, List.map_append, List.map_cons] at hreach
    exact hpart k hk (prefix_of_stop (hd k hk) hreach)

theorem quiet_cons {d : Char} {ys : List Char} (hd : ∀ k ∈ openings, foldCase d ∉ k) (hys : quiet ys = true) :
    quiet (d :: ys) = true := by
  rw [quiet, Bool.and_eq_true, Bool.not_eq_true', List.any_eq_false]
  refine ⟨fun k hk hstart => ?_, hys⟩
  rw [List.map_cons] at hstart
  have hnil : k <+: [] := prefix_of_stop (hd k hk) (List.isPrefixOf_iff_prefix.mp hstart)
  exact openings_ne_nil k hk (List.prefix_nil.mp hnil)

theorem openings_letters : ∀ k ∈ openings, 'r' ∈ k ∨ 'k' ∈ k ∨ 'p' ∈ k := by decide

/-- **A text without the letters** that it takes is quiet. -/
theorem quiet_plain {xs : List Char} (h : ∀ c ∈ xs, foldCase c ≠ 'r' ∧ foldCase c ≠ 'k' ∧ foldCase c ≠ 'p') :
    quiet xs = true := by
  apply quiet_of_parts
  intro ys hys k hk hstart
  have hletter : ∀ l ∈ k, l ≠ 'r' ∧ l ≠ 'k' ∧ l ≠ 'p' := by
    intro l hl
    obtain ⟨c, hc, rfl⟩ := List.mem_map.mp (hstart.subset hl)
    exact h c (hys.subset hc)
  rcases openings_letters k hk with hr | hk' | hp
  · exact (hletter _ hr).1 rfl
  · exact (hletter _ hk').2.1 rfl
  · exact (hletter _ hp).2.2 rfl

/-! ### Values -/

section Values

variable [Platform]

/-- A value, nested in at most `depth` containers, that is retained as it is and read back. -/
inductive Whole : ℕ → Json → Prop where
  /-- `None`. -/
  | null {depth : ℕ} : Whole depth .null
  /-- A boolean. -/
  | bool {depth : ℕ} (b : Bool) : Whole depth (.bool b)
  /-- An integer, within the bound of its conversion. -/
  | int {depth : ℕ} {n : ℤ} (h : (Nat.toDigits 10 n.natAbs).length ≤ 4300) : Whole depth (.int n)
  /-- A float, which is read from its representation. -/
  | float {depth : ℕ} {r : String} (h : scanNumber r.toList = some (.float r, [])) : Whole depth (.float r)
  /-- A text that is redacted to itself. -/
  | str {depth : ℕ} {s : String} (h : redactText s = s) : Whole depth (.str s)
  /-- A list. -/
  | arr {depth : ℕ} {items : List Json} (h : ∀ x ∈ items, Whole depth x) : Whole (depth + 1) (.arr items)
  /-- A mapping whose name and keys are not sensitive. -/
  | obj {depth : ℕ} {fields : JsonObject} (hkeys : (fields.map Prod.fst).Nodup)
      (hshown : ∀ f ∈ fields, sensitive f.1 = false) (hname : sensitiveName fields = false)
      (h : ∀ f ∈ fields, Whole depth f.2) : Whole (depth + 1) (.obj fields)

/-- It is printable. -/
theorem Whole.printable {depth : ℕ} {v : Json} (h : Whole depth v) : Printable depth v := by
  induction h with
  | null => exact .null
  | bool b => exact .bool b
  | int h => exact .int h
  | float h => exact .float h
  | str h => exact .str _
  | arr h ih => exact .arr ih
  | obj hkeys hshown hname h ih => exact .obj hkeys ih

theorem redactItems_whole {depth : ℕ} {items : List Json} (h : ∀ x ∈ items, redact (depth + 1) x = .ok x) :
    redactItems depth items = .ok items := by
  induction items with
  | nil => rfl
  | cons x xs ih =>
    exact redactItems_cons.mpr ⟨x, xs, h x (by simp), ih fun y hy => h y (by simp [hy]), rfl⟩

theorem redactFields_whole {depth : ℕ} {fields : JsonObject} (hshown : ∀ f ∈ fields, sensitive f.1 = false)
    (h : ∀ f ∈ fields, redact (depth + 1) f.2 = .ok f.2) : redactFields depth false fields = .ok fields := by
  induction fields with
  | nil => rfl
  | cons f fs ih =>
    obtain ⟨key, x⟩ := f
    have hkey : hides false key = false := by
      rw [hides, hshown (key, x) (by simp)]
      rfl
    refine redactFields_cons.mpr ⟨x, fs, ⟨fun hhidden => ?_, fun _ => h (key, x) (by simp)⟩, ?_, rfl⟩
    · rw [hkey] at hhidden
      cases hhidden
    · exact ih (fun g hg => hshown g (by simp [hg])) fun g hg => h g (by simp [hg])

/-- **A value that is retained whole** is redacted to itself. -/
theorem Whole.redact {bound : ℕ} {v : Json} (h : Whole bound v) {depth : ℕ} (hdepth : depth + bound ≤ 16) :
    redact depth v = .ok v := by
  induction h generalizing depth with
  | null => exact (redact_plain (by simp) (by simp) (by simp)).mpr ⟨by omega, rfl⟩
  | bool b => exact (redact_plain (by simp) (by simp) (by simp)).mpr ⟨by omega, rfl⟩
  | int h => exact (redact_plain (by simp) (by simp) (by simp)).mpr ⟨by omega, rfl⟩
  | float h => exact (redact_plain (by simp) (by simp) (by simp)).mpr ⟨by omega, rfl⟩
  | str h => exact redact_str.mpr ⟨by omega, by rw [h]⟩
  | arr h ih =>
    exact redact_arr.mpr ⟨by omega, _, redactItems_whole fun x hx => ih x hx (by omega), rfl⟩
  | obj hkeys hshown hname h ih =>
    refine redact_obj.mpr ⟨by omega, _, ?_, rfl⟩
    rw [hname]
    exact redactFields_whole hshown fun f hf => ih f hf (by omega)

end Values

end PayOps.Evidence
