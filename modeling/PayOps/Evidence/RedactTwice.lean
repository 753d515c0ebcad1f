import PayOps.Evidence.Redact
import PayOps.Text.Twice

/-!
# Redaction of a text that was redacted

`redact_text` of `payops.evidence.redact`, applied to its own results.

## The model

A word is a list of symbols, one of which may be any character but a line end; a keyword is a word of letters.

## What is proved

* `word_sub` — a word that can be read in what a substitution gives could be read in the text, where no keyword can
  begin inside the word.
* `tame_bearer`, `tame_assignment` — after redaction, every match of `BEARER` is its own replacement.
* `assigned_twice`, `redactText_twice` — **main result**: redacting again changes nothing if and only if every match
  of `ASSIGNMENT` ends before white space, a comma or a semicolon, or with the text.
-/

namespace PayOps.Evidence

open Text

/-! ### Words -/

/-- A symbol of a word: a letter in any case, or any character but a line end. -/
def symbol (a : Option Char) (c : Char) : Bool :=
  match a with
  | some a => foldCase c == a
  | none => c != '\n'

/-- The word is at the start of the text. -/
def fits : List (Option Char) → List Char → Bool
  | [], _ => true
  | _ :: _, [] => false
  | a :: w, c :: cs => symbol a c && fits w cs

/-- The word and the keyword are the same as far as both reach. -/
def agrees : List (Option Char) → List Char → Bool
  | [], _ => true
  | _ :: _, [] => true
  | a :: w, c :: k => a.all (· == c) && agrees w k

/-- Only ASCII letters are this letter in another case. -/
def plainLetter (c : Char) : Bool := "abcdefghjlmnopqrtuvwxyz".toList.contains c

/-- No keyword can begin inside the word, read behind this symbol. -/
def sealed (K : List (List Char)) : Option Char → List (Option Char) → Bool
  | _, [] => true
  | b, a :: w => ((K.all fun k => !agrees (a :: w) k) || (b.any plainLetter && a.any plainLetter)) && sealed K a w

theorem fits_some {k cs : List Char} : fits (k.map some) cs = true ↔ k <+: cs.map foldCase := by
  induction k generalizing cs with
  | nil => simp [fits]
  | cons a k ih =>
    cases cs with
    | nil => simp [fits]
    | cons c cs =>
      rw [List.map_cons, List.map_cons, List.cons_prefix_cons, fits, Bool.and_eq_true, ih, symbol, beq_iff_eq]
      exact and_congr_left fun _ => eq_comm

/-- A word and a keyword at the start of one text agree. -/
theorem agrees_of_fits {w : List (Option Char)} {k cs : List Char} (hw : fits w cs = true)
    (hk : k <+: cs.map foldCase) : agrees w k = true := by
  induction w generalizing k cs with
  | nil => cases k <;> rfl
  | cons a w ih =>
    cases k with
    | nil => rfl
    | cons b k =>
      cases cs with
      | nil => simp [fits] at hw
      | cons c cs =>
        simp only [fits, Bool.and_eq_true] at hw
        rw [List.map_cons, List.cons_prefix_cons] at hk
        obtain ⟨rfl, hk⟩ := hk
        simp only [agrees, Bool.and_eq_true]
        refine ⟨?_, ih hw.2 hk⟩
        cases a with
        | none => rfl
        | some a =>
          have hsame := hw.1
          rw [symbol, beq_iff_eq] at hsame
          simp [hsame]

/-- Texts that start with one keyword start with one letter. -/
theorem same_first {k cs cs' : List Char} (hne : k ≠ []) (h : k <+: cs.map foldCase) (h' : k <+: cs'.map foldCase) :
    (cs.map foldCase).head? = (cs'.map foldCase).head? := by
  cases k with
  | nil => exact absurd rfl hne
  | cons a k =>
    obtain ⟨r, hr⟩ := h
    obtain ⟨r', hr'⟩ := h'
    rw [← hr, ← hr']
    rfl

section Scanners

variable [Platform]

theorem wordChar_plain {c : Char} (h : plainLetter (foldCase c) = true) : wordChar c = true := by
  have hletters : ∀ d ∈ "abcdefghjlmnopqrtuvwxyz".toList, d ≠ 's' ∧ d ≠ 'k' ∧ d ≠ 'i' ∧ wordChar d = true := by
    simp [wordChar, asciiWord]
  have hfold := List.contains_iff_mem.mp h
  obtain ⟨hs, hk, hi, hword⟩ := hletters _ hfold
  unfold foldCase at hs hk hi hword
  split_ifs at hs hk hi hword with h₁ h₂ h₃
  · exact absurd rfl hs
  · exact absurd rfl hk
  · exact absurd rfl hi
  · by_cases hupper : c.val ≥ 'A'.val ∧ c.val ≤ 'Z'.val
    · have hZ : c.toNat ≤ 90 := UInt32.le_iff_toNat_le.mp hupper.2
      have hascii : c.val < 128 := UInt32.lt_iff_toNat_lt.mpr (lt_of_le_of_lt hZ (by decide))
      have hupper' : c.isUpper = true := by simpa [Char.isUpper] using hupper
      rw [wordChar, if_pos hascii, asciiWord, Char.isAlphanum, Char.isAlpha, hupper']
      rfl
    · rwa [Char.toLower, dif_neg hupper] at hword

/-- A match starts with a keyword at a boundary, and so does what it is replaced by. -/
def Opens (K : List (List Char)) (find : Scanner Char) : Prop :=
  ∀ prev cs rest text, find prev cs = some (rest, text) →
    boundary prev cs = true ∧ ∃ k ∈ K, k ≠ [] ∧ k <+: cs.map foldCase ∧ k <+: text.map foldCase

variable {K : List (List Char)} {find : Scanner Char}

/-- **A word that can be read in the result of a substitution** could be read in the text, if no keyword can begin
inside the word. -/
theorem word_sub (hopen : Opens K find) {w : List (Option Char)} {p : Char} {b : Option Char} {cs : List Char}
    (hsealed : sealed K b w = true) (hp : symbol b p = true) (hw : fits w (sub find (some p) 0 cs) = true) :
    fits w cs = true ∧
      ∃ prev', sub find (some p) 0 cs = cs.take w.length ++ sub find prev' 0 (cs.drop w.length) := by
  induction w generalizing p b cs with
  | nil => exact ⟨rfl, some p, rfl⟩
  | cons a w ih =>
    simp only [sealed, Bool.and_eq_true, Bool.or_eq_true] at hsealed
    cases cs with
    | nil => simp [sub, fits] at hw
    | cons c cs =>
      cases hfind : find (some p) (c :: cs) with
      | none =>
        rw [sub_plain hfind] at hw ⊢
        simp only [fits, Bool.and_eq_true] at hw
        obtain ⟨hfits, prev', hrest⟩ := ih hsealed.2 hw.1 hw.2
        refine ⟨by simp [fits, hw.1, hfits], prev', ?_⟩
        rw [List.length_cons, List.take_succ_cons, List.drop_succ_cons, List.cons_append, ← hrest]
      | some m =>
        obtain ⟨rest, text⟩ := m
        obtain ⟨hboundary, k, hk, hne, hkcs, hktext⟩ := hopen _ _ _ _ hfind
        have hktext' : k <+: (sub find (some p) 0 (c :: cs)).map foldCase := by
          rw [sub, hfind]
          simp only [List.map_append]
          exact hktext.trans (List.prefix_append _ _)
        have hagrees := agrees_of_fits hw hktext'
        rcases hsealed.1 with hall | hplain
        · have := List.all_eq_true.mp hall k hk
          rw [hagrees] at this
          cases this
        · -- between two letters is no boundary
          have hchar : ∀ {a : Option Char} {c : Char}, a.any plainLetter = true → symbol a c = true →
              wordChar c = true := by
            intro a c ha hc
            cases a with
            | none => cases ha
            | some a =>
              rw [symbol, beq_iff_eq] at hc
              exact wordChar_plain (hc ▸ ha)
          have hc : symbol a c = true := by
            have hfirst := same_first hne hkcs hktext'
            cases hout : sub find (some p) 0 (c :: cs) with
            | nil => simp [hout] at hfirst
            | cons y ys =>
              rw [hout, List.map_cons, List.map_cons, List.head?_cons, List.head?_cons, Option.some.injEq] at hfirst
              rw [hout] at hw
              simp only [fits, Bool.and_eq_true] at hw
              cases a with
              | none => simp at hplain
              | some a => rw [symbol, hfirst]; exact hw.1
          rw [boundary, List.head?_cons, Option.any_some, Option.any_some, hchar hplain.1 hp,
            hchar hplain.2 hc] at hboundary
          cases hboundary

/-- Every keyword begins with something else than white space. -/
def Firm (K : List (List Char)) : Prop := ∀ k ∈ K, ∀ a r, k = a :: r → reSpace a = false

theorem Opens.first_firm (hopen : Opens K find) (hfirm : Firm K) {prev : Option Char} {c : Char}
    {cs rest text : List Char} (h : find prev (c :: cs) = some (rest, text)) :
    reSpace c = false ∧ ∃ y ys, text = y :: ys ∧ reSpace y = false := by
  obtain ⟨-, k, hk, hne, hcs, htext⟩ := hopen _ _ _ _ h
  cases k with
  | nil => exact absurd rfl hne
  | cons a r =>
    have hspace : ∀ {y : Char}, a = foldCase y → reSpace y = false := by
      intro y hy
      by_contra hc
      have := foldCase_space (Bool.not_eq_false _ ▸ hc)
      rw [← hy, hfirm _ hk a r rfl] at this
      cases this
    rw [List.map_cons, List.cons_prefix_cons] at hcs
    refine ⟨hspace hcs.1, ?_⟩
    cases text with
    | nil => exact absurd (List.prefix_nil.mp htext) (List.cons_ne_nil _ _)
    | cons y ys =>
      rw [List.map_cons, List.cons_prefix_cons] at htext
      exact ⟨y, ys, rfl, hspace htext.1⟩

/-- White space begins no match. -/
theorem Opens.space (hopen : Opens K find) (hfirm : Firm K) (prev : Option Char) (c : Char) (cs : List Char)
    (hc : reSpace c = true) : find prev (c :: cs) = none := by
  cases h : find prev (c :: cs) with
  | none => rfl
  | some m =>
    obtain ⟨rest, text⟩ := m
    have := (hopen.first_firm hfirm h).1
    rw [hc] at this
    cases this

/-- What is substituted begins with white space as the text does. -/
theorem Opens.sub_space (hopen : Opens K find) (hfirm : Firm K) {prev : Option Char} {cs r : List Char} {c : Char}
    (h : sub find prev 0 cs = c :: r) : ∃ d cs', cs = d :: cs' ∧ (reSpace c = true → reSpace d = true) := by
  cases cs with
  | nil => cases h
  | cons d cs =>
    refine ⟨d, cs, rfl, fun hc => ?_⟩
    cases hfind : find prev (d :: cs) with
    | none =>
      rw [sub_plain hfind] at h
      rw [(List.cons.inj h).1]
      exact hc
    | some m =>
      obtain ⟨rest, text⟩ := m
      obtain ⟨-, y, ys, rfl, hy⟩ := hopen.first_firm hfirm hfind
      rw [sub, hfind] at h
      rw [← (List.cons.inj h).1, hy] at hc
      cases hc

theorem Opens.sub_skip (hopen : Opens K find) (hfirm : Firm K) (prev : Option Char) (cs : List Char) :
    ∃ prev', (sub find prev 0 cs).dropWhile reSpace = sub find prev' 0 (cs.dropWhile reSpace) :=
  sub_dropWhile (hopen.space hfirm) (fun _ _ _ _ _ h => (hopen.first_firm hfirm h).2) prev cs

/-! ### `BEARER` -/

theorem opens_bearer : Opens ["bearer".toList] bearer := by
  intro prev cs rest text h
  obtain ⟨hboundary, hstart, -, -, -, rfl⟩ := bearer_eq_some h
  refine ⟨hboundary, _, List.mem_singleton_self _, by decide, hstart, ?_⟩
  decide

omit [Platform] in
theorem firm_bearer : Firm ["bearer".toList] := by
  intro k hk a r h
  rw [List.mem_singleton.mp hk] at h
  obtain ⟨rfl, -⟩ := List.cons.inj h
  decide

theorem cuts_bearer : Cuts bearer := by
  intro prev x xs rest text h
  obtain ⟨-, -, -, rfl, -, -⟩ := bearer_eq_some h
  exact (List.dropWhile_suffix _).trans ((List.dropWhile_suffix _).trans (List.drop_suffix 5 xs))

/-- **Where `BEARER` finds a match**: a word behind white space. -/
theorem bearer_isSome {prev : Option Char} {cs : List Char} :
    (bearer prev cs).isSome = true ↔ boundary prev cs = true ∧ "bearer".toList <+: cs.map foldCase ∧
      (∃ c r, cs.drop 6 = c :: r ∧ reSpace c = true) ∧ (cs.drop 6).dropWhile reSpace ≠ [] := by
  have hskip : ∀ {p : Char → Bool} {l : List Char}, (l.dropWhile p).length < l.length ↔
      ∃ c r, l = c :: r ∧ p c = true := by
    intro p l
    cases l with
    | nil => simp
    | cons c r =>
      by_cases hc : p c = true
      · have := (List.dropWhile_suffix (l := r) p).length_le
        rw [List.dropWhile_cons_of_pos hc, List.length_cons]
        exact iff_of_true (by omega) ⟨c, r, rfl, hc⟩
      · rw [List.dropWhile_cons_of_neg hc]
        refine iff_of_false (lt_irrefl _) ?_
        rintro ⟨c', r', heq, hc'⟩
        rw [(List.cons.inj heq).1] at hc
        exact hc hc'
  have hword : ∀ {l : List Char}, ((l.dropWhile reSpace).dropWhile (fun c => !reSpace c)).length <
      (l.dropWhile reSpace).length ↔ l.dropWhile reSpace ≠ [] := by
    intro l
    rw [hskip]
    constructor
    · rintro ⟨c, r, heq, -⟩
      rw [heq]
      exact List.cons_ne_nil _ _
    · intro hne
      obtain ⟨c, r, heq⟩ := List.exists_cons_of_ne_nil hne
      refine ⟨c, r, heq, ?_⟩
      by_contra hc
      exact dropWhile_ne (by simpa using hc) l heq
  constructor
  · intro h
    obtain ⟨⟨rest, text⟩, hm⟩ := Option.isSome_iff_exists.mp h
    obtain ⟨hboundary, hstart, hspaces, rfl, hlen, -⟩ := bearer_eq_some hm
    exact ⟨hboundary, hstart, hskip.mp hspaces, hword.mp hlen⟩
  · rintro ⟨hboundary, hstart, hspaces, hne⟩
    rw [bearer_of hboundary hstart (hskip.mpr hspaces) (hword.mpr hne)]
    rfl

/-- **`BEARER` finds nothing new** in what was substituted behind a character. -/
theorem bearer_sub (hopen : Opens K find) (hfirm : Firm K)
    (hsealed : sealed K (some 'b') ("earer".toList.map some) = true)
    {prev : Option Char} {x : Char} {xs : List Char}
    (h : (bearer prev (x :: sub find (some x) 0 xs)).isSome = true) : (bearer prev (x :: xs)).isSome = true := by
  obtain ⟨hboundary, hstart, ⟨c, r, hspace, hc⟩, hword⟩ := bearer_isSome.mp h
  have hb : "bearer".toList = 'b' :: "earer".toList := by decide
  rw [hb, List.map_cons, List.cons_prefix_cons] at hstart
  obtain ⟨hx, hstart⟩ := hstart
  obtain ⟨hfits, prev', hrest⟩ := word_sub hopen hsealed (by rw [symbol, ← hx]; rfl) (fits_some.mpr hstart)
  have hlong : 5 ≤ xs.length := by
    have := (fits_some.mp hfits).length_le
    simpa using this
  have hdrop : (x :: sub find (some x) 0 xs).drop 6 = sub find prev' 0 (xs.drop 5) := by
    rw [List.drop_succ_cons, hrest]
    exact List.drop_left' (by simpa using hlong)
  rw [hdrop] at hspace hword
  obtain ⟨d, cs', hd, hspaced⟩ := hopen.sub_space hfirm hspace
  refine bearer_isSome.mpr ⟨hboundary, ?_, ⟨d, cs', hd, hspaced hc⟩, ?_⟩
  · rw [hb, List.map_cons, List.cons_prefix_cons]
    exact ⟨hx, fits_some.mp hfits⟩
  · intro hnil
    obtain ⟨prev'', hskip⟩ := hopen.sub_skip hfirm prev' (xs.drop 5)
    refine hword ?_
    rw [List.drop_succ_cons] at hnil
    rw [hskip, hnil]
    rfl

/-- `[REDACTED]`. -/
def hidden : List Char := ['[', 'R', 'E', 'D', 'A', 'C', 'T', 'E', 'D', ']']

/-- What `BEARER` puts in the place of a match. -/
def unit : List Char := 'B' :: 'e' :: 'a' :: 'r' :: 'e' :: 'r' :: ' ' :: hidden

omit [Platform] in
theorem unit_eq : "Bearer [REDACTED]".toList = unit := by decide

omit [Platform] in
theorem hidden_bare (c : Char) (hc : c ∈ hidden) : (!reSpace c) = true ∧ bare c = true := by
  have hall : hidden.all (fun c => !reSpace c && bare c) = true := by decide
  simpa using List.all_eq_true.mp hall c hc

omit [Platform] in
/-- Behind the replacement, a match would end where the last one did. -/
theorem unit_rest {w : List Char} (hw : ∀ c r, w = c :: r → reSpace c = true) :
    (((unit ++ w).drop 6).dropWhile reSpace).dropWhile (fun c => !reSpace c) = w := by
  have hspace : reSpace ' ' = true := by decide
  have hmark : ¬reSpace '[' = true := by decide
  have hdrop : (unit ++ w).drop 6 = ' ' :: (hidden ++ w) := rfl
  have hopened : (hidden ++ w).dropWhile reSpace = hidden ++ w := List.dropWhile_cons_of_neg hmark
  have hend : w.dropWhile (fun c => !reSpace c) = w := by
    cases w with
    | nil => rfl
    | cons c r => exact List.dropWhile_cons_of_neg (by simp [hw c r rfl])
  rw [hdrop, List.dropWhile_cons_of_pos hspace, hopened,
    List.dropWhile_append_of_pos fun c hc => (hidden_bare c hc).1, hend]

/-- A match of `BEARER` ends before white space, or with the text. -/
theorem bearer_rest {prev : Option Char} {cs rest text : List Char} (h : bearer prev cs = some (rest, text)) :
    ∀ c r, rest = c :: r → reSpace c = true := by
  obtain ⟨-, -, -, rfl, -, -⟩ := bearer_eq_some h
  intro c r heq
  by_contra hc
  exact dropWhile_ne (by simpa using hc) _ heq

/-- A replacement that is followed by white space is its own replacement. -/
theorem unit_match {prev : Option Char} {w rest text : List Char} (hw : ∀ c r, w = c :: r → reSpace c = true)
    (h : bearer prev (unit ++ w) = some (rest, text)) : unit ++ w = text ++ rest := by
  obtain ⟨-, -, -, rfl, -, rfl⟩ := bearer_eq_some h
  rw [unit_eq, unit_rest hw]

theorem tame_unit {prev : Option Char} {w : List Char} (hw : ∀ c r, w = c :: r → reSpace c = true)
    (h : Tame bearer (some ']') w) : Tame bearer prev (unit ++ w) := by
  have hall : ('e' :: 'a' :: 'r' :: 'e' :: 'r' :: ' ' :: hidden).all (fun c => foldCase c != 'b') = true := by
    decide
  have hplain : ∀ c ∈ 'e' :: 'a' :: 'r' :: 'e' :: 'r' :: ' ' :: hidden, foldCase c ≠ 'b' := fun c hc =>
    bne_iff_ne.mp (List.all_eq_true.mp hall c hc)
  exact ⟨fun rest text hmatch => unit_match hw hmatch,
    Tame.append (fun prev c hc zs => bearer_none (hplain c hc)) h⟩

/-- **In what `BEARER` gives, every match is its own replacement.** -/
theorem tame_bearer (prev : Option Char) (cs : List Char) : Tame bearer prev (sub bearer prev 0 cs) := by
  refine cuts_bearer.induction (P := fun prev cs => Tame bearer prev (sub bearer prev 0 cs)) ?_ ?_ ?_ prev cs
  · exact fun _ => trivial
  · intro prev x xs hnone ih
    rw [sub_plain hnone]
    refine ⟨fun rest text hmatch => ?_, ih⟩
    have := bearer_sub opens_bearer firm_bearer (by decide) (Option.isSome_iff_exists.mpr ⟨_, hmatch⟩)
    rw [hnone] at this
    cases this
  · intro prev x c rest text hmatch ih
    rw [sub_matched hmatch]
    obtain ⟨-, -, -, -, -, rfl⟩ := bearer_eq_some hmatch
    have hspace := bearer_rest hmatch
    rw [unit_eq]
    cases rest with
    | nil => exact tame_unit (fun _ _ h => by cases h) trivial
    | cons y rest =>
      have hy := hspace y rest rfl
      have hnone : ∀ prev, bearer prev (y :: rest) = none := fun prev =>
        opens_bearer.space firm_bearer prev y rest hy
      rw [sub_plain (hnone _)] at ih ⊢
      refine tame_unit (fun c r h => by rw [← (List.cons.inj h).1]; exact hy) (ih.of_head fun prev _ => ?_)
      exact opens_bearer.space firm_bearer prev y _ hy

/-! ### `ASSIGNMENT` -/

theorem assignment_eq_some {prev : Option Char} {cs rest text : List Char}
    (h : assignment prev cs = some (rest, text)) :
    boundary prev cs = true ∧ ∃ k value, keyword cs = some k ∧ separator (cs.drop k.length) = some value ∧
      assignedValue value = some rest ∧ text = cs.take k.length ++ redacted := by
  unfold assignment at h
  by_cases hb : boundary prev cs = true
  · simp only [hb, if_true, Option.bind_eq_bind, Option.bind_eq_some_iff, Option.pure_def, Option.some.injEq,
      Prod.mk.injEq] at h
    obtain ⟨k, hk, value, hvalue, rest, hrest, rfl, rfl⟩ := h
    exact ⟨hb, k, value, hk, hvalue, hrest, rfl⟩
  · simp [hb] at h

theorem opens_assignment : Opens keywords assignment := by
  intro prev cs rest text h
  obtain ⟨hboundary, k, value, hk, -, -, rfl⟩ := assignment_eq_some h
  obtain ⟨hmem, hstart⟩ := keyword_mem hk
  refine ⟨hboundary, k, hmem, ?_, hstart, ?_⟩
  · rintro rfl
    exact absurd hmem (by decide)
  · rw [List.map_append, List.map_take]
    rw [← List.prefix_iff_eq_take.mp hstart]
    exact List.prefix_append _ _

omit [Platform] in
theorem firm_assignment : Firm keywords := by
  intro k hk a r h
  exact (keyword_char k hk a (h ▸ List.mem_cons_self)).2

omit [Platform] in
/-- **How a value ends**: before a character that no bare value has, or with a mark. -/
theorem assignedValue_end {v rest : List Char} (h : assignedValue v = some rest) :
    ∃ covered, v = covered ++ rest ∧
      ((∀ c r, rest = c :: r → bare c = false) ∨ covered.getLast? = some '"' ∨ covered.getLast? = some '\'') := by
  have hquoted : ∀ {mark : Char} {rest : List Char}, quotedValue mark v = some rest →
      ∃ covered, v = covered ++ rest ∧ covered.getLast? = some mark := by
    intro mark rest hv
    unfold quotedValue at hv
    split at hv
    next c cs =>
      split_ifs at hv with hc
      have hne : cs.dropWhile (fun c => c != mark) ≠ [] := by
        intro hnil
        have := List.dropWhile_eq_nil_iff.mp hnil mark hc.2
        simp at this
      obtain ⟨d, r, hd⟩ := List.exists_cons_of_ne_nil hne
      obtain rfl : d = mark := by
        have hnot := List.head?_dropWhile_not (fun c => c != mark) cs
        rw [hd] at hnot
        simpa using hnot
      obtain rfl : r = rest := by
        rw [hd] at hv
        exact Option.some.inj hv
      obtain ⟨p, hp⟩ := List.dropWhile_suffix (l := cs) fun c => c != d
      rw [hd] at hp
      exact ⟨c :: p ++ [d], by simp [← hp], List.getLast?_concat⟩
    next => cases hv
  have hbare : ∀ {rest : List Char}, bareValue v = some rest →
      ∃ covered, v = covered ++ rest ∧ ∀ c r, rest = c :: r → bare c = false := by
    intro rest hv
    unfold bareValue at hv
    simp only at hv
    split_ifs at hv
    cases hv
    obtain ⟨p, hp⟩ := List.dropWhile_suffix (l := v) bare
    refine ⟨p, hp.symm, fun c r heq => ?_⟩
    by_contra hc
    exact dropWhile_ne (by simpa using hc) v heq
  unfold assignedValue at h
  rcases hdouble : quotedValue '"' v with _ | r
  · rcases hsingle : quotedValue '\'' v with _ | r
    · rw [hdouble, hsingle, Option.none_or, Option.none_or] at h
      obtain ⟨covered, hv, hend⟩ := hbare h
      exact ⟨covered, hv, .inl hend⟩
    · rw [hdouble, hsingle, Option.none_or, Option.some_or] at h
      obtain ⟨covered, hv, hend⟩ := hquoted hsingle
      exact ⟨covered, Option.some.inj h ▸ hv, .inr (.inr hend)⟩
  · rw [hdouble, Option.some_or] at h
    obtain ⟨covered, hv, hend⟩ := hquoted hdouble
    exact ⟨covered, Option.some.inj h ▸ hv, .inr (.inl hend)⟩

omit [Platform] in
/-- A value begins with a character of bare values. -/
theorem assignedValue_isSome {v : List Char} :
    (assignedValue v).isSome = true ↔ ∃ c r, v = c :: r ∧ bare c = true := by
  cases v with
  | nil => simp [assignedValue, quotedValue, bareValue]
  | cons c r =>
    have hlen := (List.dropWhile_suffix (l := r) bare).length_le
    by_cases hc : bare c = true
    · have hbare : bareValue (c :: r) = some (r.dropWhile bare) := by
        simp only [bareValue, List.dropWhile_cons_of_pos hc, List.length_cons]
        rw [if_pos (by omega)]
      refine iff_of_true ?_ ⟨c, r, rfl, hc⟩
      simp [assignedValue, hbare]
    · have hmarks : c ≠ '"' ∧ c ≠ '\'' := by
        constructor <;> rintro rfl <;> exact hc (by decide)
      have hbare : bareValue (c :: r) = none := by
        simp [bareValue, List.dropWhile_cons_of_neg hc]
      refine iff_of_false ?_ ?_
      · rw [assignedValue_unquoted hmarks, hbare]
        simp
      · rintro ⟨c', r', heq, hc'⟩
        exact hc ((List.cons.inj heq).1 ▸ hc')

omit [Platform] in
theorem separator_suffix {cs value : List Char} (h : separator cs = some value) : value <:+ cs := by
  have hskip := List.dropWhile_suffix (l := cs) reSpace
  unfold separator at h
  split at h
  next r heq =>
    cases h
    exact (List.dropWhile_suffix _).trans ((List.suffix_cons _ _).trans (heq ▸ hskip))
  next r heq =>
    cases h
    exact (List.dropWhile_suffix _).trans ((List.suffix_cons _ _).trans (heq ▸ hskip))
  next => cases h

/-- **How a match of `ASSIGNMENT` ends**: before a character that no bare value has, or with a mark. -/
theorem assignment_end {prev : Option Char} {x : Char} {xs rest text : List Char}
    (h : assignment prev (x :: xs) = some (rest, text)) : ∃ c, xs = c ++ rest ∧
      ((∀ d r, rest = d :: r → bare d = false) ∨ lastOf (some x) c = some '"' ∨ lastOf (some x) c = some '\'') := by
  obtain ⟨-, k, value, hk, hvalue, hrest, -⟩ := assignment_eq_some h
  obtain ⟨covered, rfl, hend⟩ := assignedValue_end hrest
  have hne : k ≠ [] := by
    rintro rfl
    exact absurd (keyword_mem hk).1 (by decide)
  obtain ⟨a, r, rfl⟩ := List.exists_cons_of_ne_nil hne
  rw [List.length_cons, List.drop_succ_cons] at hvalue
  obtain ⟨p, hp⟩ := (separator_suffix hvalue).trans (List.drop_suffix _ _)
  rw [← List.append_assoc] at hp
  refine ⟨p ++ covered, hp.symm, hend.imp id fun hmark => ?_⟩
  rw [lastOf_eq, List.getLast?_append]
  rcases hmark with hmark | hmark
  · exact .inl (by rw [hmark]; rfl)
  · exact .inr (by rw [hmark]; rfl)

theorem cuts_assignment : Cuts assignment := by
  intro prev x xs rest text h
  obtain ⟨c, rfl, -⟩ := assignment_end h
  exact List.suffix_append _ _

/-- **Where `ASSIGNMENT` finds a match**: a keyword, a separator and a character of bare values. -/
theorem assignment_isSome {prev : Option Char} {cs : List Char} :
    (assignment prev cs).isSome = true ↔ boundary prev cs = true ∧ ∃ k ∈ keywords, k <+: cs.map foldCase ∧
      ∃ c r, separator (cs.drop k.length) = some (c :: r) ∧ bare c = true := by
  constructor
  · intro h
    obtain ⟨⟨rest, text⟩, hm⟩ := Option.isSome_iff_exists.mp h
    obtain ⟨hboundary, k, value, hk, hvalue, hrest, -⟩ := assignment_eq_some hm
    obtain ⟨c, r, rfl, hc⟩ := assignedValue_isSome.mp (Option.isSome_iff_exists.mpr ⟨_, hrest⟩)
    exact ⟨hboundary, k, (keyword_mem hk).1, (keyword_mem hk).2, c, r, hvalue, hc⟩
  · rintro ⟨hboundary, k, hk, hstart, c, r, hseparator, hc⟩
    obtain ⟨rest, hrest⟩ := Option.isSome_iff_exists.mp (assignedValue_isSome.mpr ⟨c, r, rfl, hc⟩)
    unfold assignment
    rw [if_pos hboundary, keyword_eq_some.mpr ⟨hk, hstart⟩]
    simp [hseparator, hrest]

/-- A match begins with the first letter of a keyword. -/
theorem assignment_none {prev : Option Char} {c : Char} {cs : List Char}
    (hc : (keywords.any fun k => k.head? == some (foldCase c)) = false) : assignment prev (c :: cs) = none := by
  cases h : assignment prev (c :: cs) with
  | none => rfl
  | some m =>
    obtain ⟨rest, text⟩ := m
    obtain ⟨-, k, hk, hne, hstart, -⟩ := opens_assignment _ _ _ _ h
    obtain ⟨a, r, rfl⟩ := List.exists_cons_of_ne_nil hne
    rw [List.map_cons, List.cons_prefix_cons] at hstart
    have hany : (keywords.any fun k => k.head? == some (foldCase c)) = true :=
      List.any_eq_true.mpr ⟨_, hk, by simp [hstart.1]⟩
    rw [hc] at hany
    cases hany

/-- What ends a bare value begins no match. -/
theorem assignment_unbare {prev : Option Char} {c : Char} {cs : List Char} (hc : bare c = false) :
    assignment prev (c :: cs) = none := by
  by_cases hspace : reSpace c = true
  · exact opens_assignment.space firm_assignment prev c cs hspace
  · have hmark : c = ',' ∨ c = ';' := by
      rw [Bool.not_eq_true] at hspace
      simpa [bare, hspace, or_iff_not_imp_left] using hc
    rcases hmark with rfl | rfl
    · exact assignment_none (by decide)
    · exact assignment_none (by decide)

omit [Platform] in
theorem separator_none {cs : List Char} (h : ∀ c r, cs.dropWhile reSpace = c :: r → c ≠ '=' ∧ c ≠ ':') :
    separator cs = none := by
  unfold separator
  split
  next r heq => exact absurd rfl (h _ _ heq).1
  next r heq => exact absurd rfl (h _ _ heq).2
  next => rfl

/-- A separator is found in what was substituted where it is found in the text. -/
theorem separator_sub (prev : Option Char) (cs : List Char) :
    ∃ prev', separator (sub assignment prev 0 cs) = (separator cs).map (sub assignment prev' 0) := by
  obtain ⟨p, hskip⟩ := opens_assignment.sub_skip firm_assignment prev cs
  have hmarks : ∀ c, c = '=' ∨ c = ':' → ∀ prev r, assignment prev (c :: r) = none := by
    rintro c (rfl | rfl) prev r
    · exact assignment_none (by decide)
    · exact assignment_none (by decide)
  by_cases hmark : ∃ c r, cs.dropWhile reSpace = c :: r ∧ (c = '=' ∨ c = ':')
  · obtain ⟨c, r, hcs, hc⟩ := hmark
    obtain ⟨p', hskip'⟩ := opens_assignment.sub_skip firm_assignment (some c) r
    refine ⟨p', ?_⟩
    unfold separator
    rw [hskip, hcs, sub_plain (hmarks c hc _ _)]
    rcases hc with rfl | rfl
    · simp [hskip']
    · simp [hskip']
  · -- what is neither mark stays so, also where a match begins
    refine ⟨none, ?_⟩
    have hnone : separator cs = none := separator_none fun c r hcs => not_or.mp fun hc => hmark ⟨c, r, hcs, hc⟩
    rw [hnone]
    refine separator_none fun y ys hout => ?_
    rw [hskip] at hout
    cases hcs : cs.dropWhile reSpace with
    | nil =>
      rw [hcs] at hout
      cases hout
    | cons c r =>
      rw [hcs] at hout
      cases hfind : assignment p (c :: r) with
      | none =>
        rw [sub_plain hfind] at hout
        rw [← (List.cons.inj hout).1]
        exact not_or.mp fun hc => hmark ⟨c, r, hcs, hc⟩
      | some m =>
        obtain ⟨rest, text⟩ := m
        obtain ⟨-, k, hk, hne, -, htext⟩ := opens_assignment _ _ _ _ hfind
        have htext' : k <+: (y :: ys).map foldCase := by
          rw [← hout, sub, hfind]
          simp only [List.map_append]
          exact htext.trans (List.prefix_append _ _)
        obtain ⟨a, w, rfl⟩ := List.exists_cons_of_ne_nil hne
        rw [List.map_cons, List.cons_prefix_cons] at htext'
        have hall : keywords.all (fun k => k.head? != some '=' && k.head? != some ':') = true := by decide
        have hletter := List.all_eq_true.mp hall _ hk
        simp only [List.head?_cons, htext'.1, Bool.and_eq_true, bne_iff_ne, ne_eq, Option.some.injEq] at hletter
        constructor <;> rintro rfl
        · exact hletter.1 (by decide)
        · exact hletter.2 (by decide)

/-- **`ASSIGNMENT` finds nothing new** in what was substituted behind a character. -/
theorem assignment_sub {prev : Option Char} {x : Char} {xs : List Char}
    (h : (assignment prev (x :: sub assignment (some x) 0 xs)).isSome = true) :
    (assignment prev (x :: xs)).isSome = true := by
  obtain ⟨hboundary, k, hk, hstart, c, r, hseparator, hc⟩ := assignment_isSome.mp h
  have hne : k ≠ [] := by
    rintro rfl
    exact absurd hk (by decide)
  obtain ⟨a, w, rfl⟩ := List.exists_cons_of_ne_nil hne
  have hsealed : sealed keywords (some a) (w.map some) = true := by
    have hall : keywords.all (fun k => sealed keywords k.head? (k.tail.map some)) = true := by decide
    exact List.all_eq_true.mp hall _ hk
  rw [List.map_cons, List.cons_prefix_cons] at hstart
  obtain ⟨hx, hstart⟩ := hstart
  obtain ⟨hfits, prev', hrest⟩ := word_sub opens_assignment hsealed (by rw [symbol, ← hx]; exact beq_self_eq_true a)
    (fits_some.mpr hstart)
  rw [List.length_map] at hrest
  have hlong : w.length ≤ xs.length := by simpa using (fits_some.mp hfits).length_le
  have hdrop : (x :: sub assignment (some x) 0 xs).drop (a :: w).length =
      sub assignment prev' 0 (xs.drop w.length) := by
    rw [List.length_cons, List.drop_succ_cons, hrest]
    exact List.drop_left' (by simpa using hlong)
  rw [hdrop] at hseparator
  obtain ⟨prev'', hsub⟩ := separator_sub prev' (xs.drop w.length)
  rw [hsub] at hseparator
  obtain ⟨value, hvalue, hout⟩ := Option.map_eq_some_iff.mp hseparator
  refine assignment_isSome.mpr ⟨hboundary, a :: w, hk, ?_, ?_⟩
  · rw [List.map_cons, List.cons_prefix_cons]
    exact ⟨hx, fits_some.mp hfits⟩
  · rw [List.length_cons, List.drop_succ_cons, hvalue]
    cases value with
    | nil => cases hout
    | cons d value =>
      refine ⟨d, value, rfl, ?_⟩
      by_contra hd
      rw [sub_plain (assignment_unbare (by simpa using hd))] at hout
      rw [(List.cons.inj hout).1] at hd
      exact hd hc

/-- Two characters between which no match of `ASSIGNMENT` begins. -/
def quietPairs : Char → List Char → Bool
  | _, [] => true
  | p, c :: cs => ((wordChar p && wordChar c) || !(keywords.any fun k => k.head? == some (foldCase c))) &&
      quietPairs c cs

theorem sub_quiet (p : Char) (cs rest : List Char) (h : quietPairs p cs = true) :
    sub assignment (some p) 0 (cs ++ rest) = cs ++ sub assignment (lastOf (some p) cs) 0 rest := by
  induction cs generalizing p with
  | nil => rfl
  | cons c cs ih =>
    simp only [quietPairs, Bool.and_eq_true, Bool.or_eq_true, Bool.not_eq_true'] at h
    have hnone : assignment (some p) (c :: (cs ++ rest)) = none := by
      rcases h.1 with hword | hletter
      · cases hfind : assignment (some p) (c :: (cs ++ rest)) with
        | none => rfl
        | some m =>
          obtain ⟨r, text⟩ := m
          have hboundary := (assignment_eq_some hfind).1
          simp [boundary, hword.1, hword.2] at hboundary
      · exact assignment_none hletter
    rw [List.cons_append, sub_plain hnone, ih _ h.2]
    rfl

/-- A replacement of `BEARER` is left as it is. -/
theorem sub_unit (rest : List Char) :
    sub assignment (some 'B') 0 ('e' :: 'a' :: 'r' :: 'e' :: 'r' :: ' ' :: (hidden ++ rest)) =
      'e' :: 'a' :: 'r' :: 'e' :: 'r' :: ' ' :: (hidden ++ sub assignment (some ']') 0 rest) :=
  sub_quiet 'B' ('e' :: 'a' :: 'r' :: 'e' :: 'r' :: ' ' :: hidden) rest rfl

theorem bearer_prev {prev prev' : Option Char} {cs : List Char} (h : prev.any wordChar = prev'.any wordChar) :
    bearer prev cs = bearer prev' cs := by
  unfold bearer
  rw [boundary, boundary, h]

omit [Platform] in
theorem unbare_fold {c : Char} (hc : bare c = false) : foldCase c ≠ 'b' := by
  intro hb
  by_cases hspace : reSpace c = true
  · have := foldCase_space hspace
    rw [hb] at this
    cases this
  · have hmark : c = ',' ∨ c = ';' := by
      rw [Bool.not_eq_true] at hspace
      simpa [bare, hspace, or_iff_not_imp_left] using hc
    rcases hmark with rfl | rfl <;> exact absurd hb (by decide)

/-- What `ASSIGNMENT` puts in the place of a match. -/
theorem assigned_quiet {prev : Option Char} {cs rest text : List Char} (h : assignment prev cs = some (rest, text)) :
    (∀ c ∈ text, foldCase c ≠ 'b') ∧ ∀ prev, lastOf prev text = some ']' := by
  obtain ⟨-, k, value, hk, -, -, rfl⟩ := assignment_eq_some h
  constructor
  · intro c hc
    rcases List.mem_append.mp hc with hc | hc
    · obtain ⟨hmem, hstart⟩ := keyword_mem hk
      have hfold : foldCase c ∈ k := by
        rw [List.prefix_iff_eq_take.mp hstart, ← List.map_take]
        exact List.mem_map_of_mem hc
      exact (keyword_char k hmem _ hfold).1
    · have hall : redacted.all (fun c => foldCase c != 'b') = true := by decide
      exact bne_iff_ne.mp (List.all_eq_true.mp hall c hc)
  · intro prev
    rw [lastOf_append]
    rfl

/-- **What `ASSIGNMENT` does leaves every match of `BEARER` its own replacement.** -/
theorem tame_assignment (prev : Option Char) (cs : List Char) :
    Tame bearer prev cs → Tame bearer prev (sub assignment prev 0 cs) := by
  refine cuts_assignment.induction (P := fun prev cs => Tame bearer prev cs →
    Tame bearer prev (sub assignment prev 0 cs)) ?_ ?_ ?_ prev cs
  · exact fun _ h => h
  · intro prev x xs hnone ih htame
    rw [sub_plain hnone]
    refine ⟨fun rest text hmatch => ?_, ih htame.2⟩
    have hsome := bearer_sub opens_assignment firm_assignment (by decide) (Option.isSome_iff_exists.mpr ⟨_, hmatch⟩)
    obtain ⟨⟨r, t⟩, hm⟩ := Option.isSome_iff_exists.mp hsome
    have htext := htame.1 r t hm
    obtain ⟨-, -, -, -, -, rfl⟩ := bearer_eq_some hm
    have hr := bearer_rest hm
    rw [unit_eq] at htext
    obtain ⟨rfl, rfl⟩ := List.cons.inj htext
    have hspace : ∀ d r', sub assignment (some ']') 0 r = d :: r' → reSpace d = true := by
      intro d r' hd
      cases r with
      | nil => cases hd
      | cons y r =>
        have hy := hr y r rfl
        rw [sub_plain (opens_assignment.space firm_assignment _ _ _ hy)] at hd
        rw [← (List.cons.inj hd).1]
        exact hy
    have hsub := congrArg ('B' :: ·) (sub_unit r)
    exact hsub.trans (unit_match hspace (hsub ▸ hmatch))
  · intro prev x c rest text hmatch ih htame
    rw [sub_matched hmatch]
    have hcovered : Tame bearer (lastOf (some x) c) rest := htame.2.covered
    obtain ⟨hplain, hlast⟩ := assigned_quiet hmatch
    refine Tame.append (fun prev d hd zs => bearer_none (hplain d hd)) ?_
    rw [hlast]
    obtain ⟨c', hc', hend⟩ := assignment_end hmatch
    obtain rfl : c = c' := List.append_cancel_right hc'
    have hw := ih hcovered
    rcases hend with hend | hmark
    · cases rest with
      | nil => trivial
      | cons y rest =>
        have hy := hend y rest rfl
        rw [sub_plain (assignment_unbare hy)] at hw ⊢
        exact hw.of_head fun prev _ => bearer_none (unbare_fold hy)
    · -- neither a mark nor a bracket is part of a word
      cases hout : sub assignment (lastOf (some x) c) 0 rest with
      | nil => trivial
      | cons y ys =>
        rw [hout] at hw
        refine ⟨fun r t hfind => hw.1 r t ?_, hw.2⟩
        rw [← hfind]
        rcases hmark with hmark | hmark
        · exact bearer_prev (by rw [hmark]; rfl)
        · exact bearer_prev (by rw [hmark]; rfl)

/-! ### Texts -/

/-- **What is put in the place of a match matches again**, with all that follows it without a gap. -/
theorem assignment_again {prev : Option Char} {x : Char} {xs rest text : List Char}
    (h : assignment prev (x :: xs) = some (rest, text)) (w : List Char) :
    assignment prev (text ++ w) = some (w.dropWhile bare, text) := by
  obtain ⟨hboundary, k, value, hk, -, -, rfl⟩ := assignment_eq_some h
  obtain ⟨hmem, hstart⟩ := keyword_mem hk
  have hne : k ≠ [] := by
    rintro rfl
    exact absurd hmem (by decide)
  obtain ⟨a, k', rfl⟩ := List.exists_cons_of_ne_nil hne
  have hlen : ((x :: xs).take (a :: k').length).length = (a :: k').length := by
    have := hstart.length_le
    rw [List.length_map] at this
    rw [List.length_take]
    omega
  have hbound : boundary prev ((x :: xs).take (a :: k').length ++ redacted ++ w) = true := hboundary
  have hkeyword : keyword ((x :: xs).take (a :: k').length ++ redacted ++ w) = some (a :: k') := by
    refine keyword_eq_some.mpr ⟨hmem, ?_⟩
    rw [List.append_assoc, List.map_append, List.map_take, ← List.prefix_iff_eq_take.mp hstart]
    exact List.prefix_append _ _
  have hdrop : ((x :: xs).take (a :: k').length ++ redacted ++ w).drop (a :: k').length = redacted ++ w := by
    rw [List.append_assoc]
    exact List.drop_left' hlen
  have htake : ((x :: xs).take (a :: k').length ++ redacted ++ w).take (a :: k').length =
      (x :: xs).take (a :: k').length := by
    rw [List.append_assoc]
    exact List.take_left' hlen
  have hseparator : separator (redacted ++ w) = some (hidden ++ w) := by
    have hmark : ¬reSpace '=' = true := by decide
    have hopened : ¬reSpace '[' = true := by decide
    have hredacted : redacted ++ w = '=' :: (hidden ++ w) := rfl
    unfold separator
    rw [hredacted, List.dropWhile_cons_of_neg hmark]
    exact congrArg some (List.dropWhile_cons_of_neg hopened)
  have hvalue : assignedValue (hidden ++ w) = some (w.dropWhile bare) := by
    have hskip : (hidden ++ w).dropWhile bare = w.dropWhile bare :=
      List.dropWhile_append_of_pos fun c hc => (hidden_bare c hc).2
    have hshort := (List.dropWhile_suffix (l := w) bare).length_le
    have hbare : assignedValue (hidden ++ w) = bareValue (hidden ++ w) :=
      assignedValue_unquoted (by decide)
    rw [hbare]
    unfold bareValue
    simp only
    rw [hskip, if_pos]
    rw [List.length_append]
    exact lt_of_le_of_lt hshort (Nat.lt_add_of_pos_left (by decide))
  unfold assignment
  rw [if_pos hbound, hkeyword]
  simp only [Option.bind_eq_bind, Option.bind_some, Option.pure_def]
  rw [hdrop, hseparator, Option.bind_some, hvalue, Option.bind_some, htake]

/-- No bare value goes on at the start of the text. -/
def Ends (cs : List Char) : Prop := ∀ c r, cs = c :: r → bare c = false

/-- What was substituted begins with a character of bare values as the text does. -/
theorem ends_sub {prev : Option Char} {cs : List Char} : Ends (sub assignment prev 0 cs) ↔ Ends cs := by
  cases cs with
  | nil => exact Iff.rfl
  | cons x xs =>
    by_cases hx : bare x = false
    · rw [sub_plain (assignment_unbare hx)]
      refine iff_of_true ?_ ?_ <;> · rintro c r heq; rw [← (List.cons.inj heq).1]; exact hx
    · refine iff_of_false (fun h => ?_) fun h => hx (h x xs rfl)
      cases hfind : assignment prev (x :: xs) with
      | none =>
        rw [sub_plain hfind] at h
        exact hx (h x _ rfl)
      | some m =>
        obtain ⟨rest, text⟩ := m
        obtain ⟨prev', hsub⟩ := cuts_assignment.sub_cut hfind
        obtain ⟨-, k, value, hk, -, -, rfl⟩ := assignment_eq_some hfind
        have hne : k ≠ [] := by
          rintro rfl
          exact absurd (keyword_mem hk).1 (by decide)
        obtain ⟨a, k', rfl⟩ := List.exists_cons_of_ne_nil hne
        rw [hsub] at h
        exact hx (h x _ rfl)

/-- **Substituting twice**: `ASSIGNMENT` changes nothing in what it gives if and only if no bare value goes on
where a match has ended. -/
theorem assigned_twice (prev : Option Char) (cs : List Char) :
    sub assignment prev 0 (sub assignment prev 0 cs) = sub assignment prev 0 cs ↔
      ∀ rest ∈ rests assignment prev 0 cs, Ends rest := by
  refine cuts_assignment.induction (P := fun prev cs => sub assignment prev 0 (sub assignment prev 0 cs) =
    sub assignment prev 0 cs ↔ ∀ rest ∈ rests assignment prev 0 cs, Ends rest) ?_ ?_ ?_ prev cs
  · exact fun prev => iff_of_true rfl fun rest hrest => by cases hrest
  · intro prev x xs hnone ih
    have hagain : assignment prev (x :: sub assignment (some x) 0 xs) = none := by
      cases hfind : assignment prev (x :: sub assignment (some x) 0 xs) with
      | none => rfl
      | some m =>
        have := assignment_sub (Option.isSome_iff_exists.mpr ⟨m, hfind⟩)
        rw [hnone] at this
        cases this
    rw [sub_plain hnone, sub_plain hagain, rests_plain hnone, ← ih]
    exact ⟨fun h => (List.cons.inj h).2, fun h => congrArg (x :: ·) h⟩
  · intro prev x c rest text hmatch ih
    have hne : text ≠ [] := by
      obtain ⟨-, k, value, -, -, -, rfl⟩ := assignment_eq_some hmatch
      exact List.append_ne_nil_of_right_ne_nil _ (by decide)
    rw [sub_matched hmatch, rests_matched hmatch, List.forall_mem_cons]
    have hagain := assignment_again hmatch (sub assignment (lastOf (some x) c) 0 rest)
    obtain ⟨y, ys, rfl⟩ := List.exists_cons_of_ne_nil hne
    rw [List.cons_append] at hagain
    obtain ⟨p, hsub⟩ := cuts_assignment.sub_cut hagain
    rw [List.cons_append] at hsub ⊢
    rw [hsub, List.cons.injEq, eq_self_iff_true, true_and, List.append_cancel_left_eq, ← ih]
    by_cases hends : Ends rest
    · cases rest with
      | nil => exact iff_of_true rfl ⟨hends, rfl⟩
      | cons z rest =>
        have hz := hends z rest rfl
        have hnone : ∀ prev r, assignment prev (z :: r) = none := fun prev r => assignment_unbare hz
        rw [sub_plain (hnone _ _), List.dropWhile_cons_of_neg (by simp [hz]), sub_plain (hnone _ _),
          sub_plain (hnone _ _)]
        exact (and_iff_right hends).symm
    · refine iff_of_false (fun heq => hends ?_) fun h => hends h.1
      -- what is left begins with no bare value, and so does what it becomes
      refine ends_sub.mp (heq ▸ ends_sub.mpr fun d r hd => ?_)
      by_contra hbare
      exact dropWhile_ne (by simpa using hbare) _ hd

/-- **Redacting a text again changes nothing** if and only if every match of `ASSIGNMENT`, in what `BEARER` has
left, ends with the text or before white space, a comma or a semicolon. -/
theorem redactText_twice {text : String} : redactText (redactText text) = redactText text ↔
    ∀ rest ∈ rests assignment none 0 (redactBearer text.toList), Ends rest := by
  have hbearer : redactBearer (sub assignment none 0 (redactBearer text.toList)) =
      sub assignment none 0 (redactBearer text.toList) :=
    sub_of_tame cuts_bearer none _ (tame_assignment none _ (tame_bearer none _))
  have hagain : redactText (redactText text) =
      String.ofList (sub assignment none 0 (sub assignment none 0 (redactBearer text.toList))) := by
    rw [redactText, redactText, String.toList_ofList, hbearer]
  rw [hagain, redactText, ← assigned_twice]
  exact ⟨fun h => by simpa using congrArg String.toList h, fun h => by rw [h]⟩

end Scanners

end PayOps.Evidence
