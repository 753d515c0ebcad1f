import PayOps.JsonPretty

/-!
# The numerals of a JSON text

Which numerals `json.loads` gives to `float`, read from the text alone.

## The model

`floatNumerals` passes over the string literals of a text, and collects the numerals that have a fraction or an
exponent. It knows nothing of lists and mappings.

## What is proved

* `loads_floats` — **the floats of a value** are those of the numerals of its text, in order.
-/

namespace PayOps.Json

/-! ### Numerals -/

/-- How long the rest of a string literal is, with its closing quote. -/
def literalLength : List Char → ℕ
  | [] => 0
  | '"' :: _ => 1
  | '\\' :: _ :: cs => literalLength cs + 2
  | _ :: cs => literalLength cs + 1

/-- The numeral at the beginning of a text: its sign and digits, and its fraction and exponent. -/
def numeral (cs : List Char) : Option (List Char × List Char) :=
  match wholeDigits (numberSign cs).2 with
  | ([], _) => none
  | (digits, rest) => some ((numberSign cs).1 ++ digits, (fraction rest).1 ++ (exponent (fraction rest).2).1)

/-- The numerals of a text with a fraction or an exponent, after the first characters are passed over. -/
def floatNumerals : ℕ → List Char → List (List Char)
  | _, [] => []
  | n + 1, _ :: cs => floatNumerals n cs
  | 0, c :: cs =>
    if c = '"' then floatNumerals (literalLength cs) cs
    else match numeral (c :: cs) with
    | none => floatNumerals 0 cs
    | some (whole, []) => floatNumerals (whole.length - 1) cs
    | some (whole, tail) => (whole ++ tail) :: floatNumerals ((whole ++ tail).length - 1) cs

example : floatNumerals 0 "\x7b\"1.5\": [-2e3, 7, 0.5]\x7d".toList = ["-2e3".toList, "0.5".toList] := by decide

mutual

/-- The floats in a value. -/
def floats : Json → List String
  | float r => [r]
  | arr items => floatsItems items
  | obj fields => floatsFields fields
  | _ => []

/-- The floats in the items of a list. -/
def floatsItems : List Json → List String
  | [] => []
  | x :: xs => floats x ++ floatsItems xs

/-- The floats in the values of a mapping. -/
def floatsFields : List (String × Json) → List String
  | [] => []
  | (_, x) :: xs => floats x ++ floatsFields xs

end

/-! ### Tokens -/

theorem floatNumerals_drop (n : ℕ) (cs : List Char) : floatNumerals n cs = floatNumerals 0 (cs.drop n) := by
  induction n generalizing cs with
  | zero => rfl
  | succ n ih =>
    cases cs with
    | nil => simp [floatNumerals]
    | cons c cs => rw [floatNumerals, ih, List.drop_succ_cons]

theorem literalLength_cons {c : Char} (hquote : c ≠ '"') (hslash : c ≠ '\\') (cs : List Char) :
    literalLength (c :: cs) = literalLength cs + 1 := by
  rw [literalLength] <;> simp [hquote, hslash]

/-- A hexadecimal digit ends no literal. -/
theorem hexValue_plain {c : Char} {n : ℕ} (h : hexValue c = some n) : c ≠ '"' ∧ c ≠ '\\' := by
  constructor <;> rintro rfl <;> cases h

theorem hex4_length {cs rest : List Char} {n : ℕ} (h : hex4 cs = some (n, rest)) :
    literalLength cs = literalLength rest + 4 ∧ cs.drop 4 = rest := by
  unfold hex4 at h
  split at h
  · rename_i a b c d cs
    obtain ⟨a', ha, h⟩ := Option.bind_eq_some_iff.mp h
    obtain ⟨b', hb, h⟩ := Option.bind_eq_some_iff.mp h
    obtain ⟨c', hc, h⟩ := Option.bind_eq_some_iff.mp h
    obtain ⟨d', hd, h⟩ := Option.bind_eq_some_iff.mp h
    obtain ⟨-, rfl⟩ := Prod.mk.inj (Option.some.inj h)
    have ha := hexValue_plain ha
    have hb := hexValue_plain hb
    have hc := hexValue_plain hc
    have hd := hexValue_plain hd
    rw [literalLength_cons ha.1 ha.2, literalLength_cons hb.1 hb.2, literalLength_cons hc.1 hc.2,
      literalLength_cons hd.1 hd.2]
    exact ⟨rfl, rfl⟩
  · cases h

theorem unicodeChar_length {cs rest : List Char} {c : Char} (h : unicodeChar cs = some (c, rest)) :
    ∃ k, literalLength cs = literalLength rest + k ∧ cs.drop k = rest := by
  unfold unicodeChar at h
  obtain ⟨⟨high, after⟩, hhigh, h⟩ := Option.bind_eq_some_iff.mp h
  obtain ⟨hlength, hdrop⟩ := hex4_length hhigh
  simp only at h
  split_ifs at h with hbasic hlow
  · obtain ⟨-, rfl⟩ := Prod.mk.inj (Option.some.inj h)
    exact ⟨4, hlength, hdrop⟩
  · split at h
    · rename_i low
      obtain ⟨⟨low', rest'⟩, hlow', h⟩ := Option.bind_eq_some_iff.mp h
      obtain ⟨hlength', hdrop'⟩ := hex4_length hlow'
      simp only at h
      split_ifs at h
      obtain ⟨-, rfl⟩ := Prod.mk.inj (Option.some.inj h)
      refine ⟨10, ?_, ?_⟩
      · rw [hlength, literalLength, hlength']
      · rw [show 10 = 4 + (2 + 4) from rfl, ← List.drop_drop, hdrop, ← List.drop_drop]
        exact hdrop'
    · cases h

/-- **A literal** ends where its quote is. -/
theorem scanString_length {fuel : ℕ} {acc cs rest : List Char} {s : String}
    (h : scanString fuel acc cs = some (s, rest)) : cs.drop (literalLength cs) = rest := by
  fun_induction scanString fuel acc cs with
  | case1 => cases h
  | case2 => cases h
  | case3 =>
    obtain ⟨-, rfl⟩ := Prod.mk.inj (Option.some.inj h)
    rfl
  | case4 fuel acc cs ih =>
    obtain ⟨⟨c, after⟩, hchar, h⟩ := Option.bind_eq_some_iff.mp h
    obtain ⟨k, hlength, hdrop⟩ := unicodeChar_length hchar
    rw [literalLength, hlength, ← ih c after h, ← hdrop, List.drop_drop, Nat.add_comm k]
    rfl
  | case5 fuel acc c cs hc ih =>
    obtain ⟨d, -, h⟩ := Option.bind_eq_some_iff.mp h
    exact ih d h
  | case6 => cases h
  | case7 fuel acc c cs hquote hunicode hescape hplain ih =>
    rw [literalLength_cons hquote fun hslash => hplain (.inr hslash)]
    exact ih h

/-- The numerals of a text, as the floats that they are. -/
def readFloats [Platform] (cs : List Char) : List String :=
  (floatNumerals 0 cs).map fun numeral => Platform.floatRepr (String.ofList numeral)

section Values

variable [Platform]

/-- What begins neither a literal nor a numeral is passed over. -/
theorem readFloats_cons {c : Char} (hquote : c ≠ '"') (hminus : c ≠ '-') (hdigit : isDigit c = false)
    (cs : List Char) : readFloats (c :: cs) = readFloats cs := by
  have hnumeral : numeral (c :: cs) = none := by
    have hzero : (c :: cs).head? ≠ some '0' := by
      rintro ⟨⟩
      cases hdigit
    rw [numeral, numberSign_other (by simpa using hminus), wholeDigits_other hzero, List.span_eq_takeWhile_dropWhile,
      List.takeWhile_cons_of_neg (by simp [hdigit])]
  rw [readFloats, floatNumerals, if_neg hquote, hnumeral]
  rfl

theorem readFloats_skip (cs : List Char) : readFloats (skip cs) = readFloats cs := by
  induction cs with
  | nil => rfl
  | cons c cs ih =>
    rw [skip, List.dropWhile_cons]
    split_ifs with hblank
    · simp only [Bool.or_eq_true, beq_iff_eq] at hblank
      rw [← skip, ih]
      rcases hblank with ((rfl | rfl) | rfl) | rfl <;> exact (readFloats_cons (by decide) (by decide) (by decide) _).symm
    · rfl

/-- A literal is passed over. -/
theorem readFloats_literal {fuel : ℕ} {cs rest : List Char} {s : String} (h : scanString fuel [] cs = some (s, rest)) :
    readFloats ('"' :: cs) = readFloats rest := by
  rw [readFloats, floatNumerals, if_pos rfl, floatNumerals_drop, scanString_length h]
  rfl

omit [Platform] in
/-- What follows a token. -/
theorem drop_token {c : Char} {cs token rest : List Char} (h : token ++ rest = c :: cs) (htoken : token ≠ []) :
    cs.drop (token.length - 1) = rest := by
  cases token with
  | nil => exact absurd rfl htoken
  | cons d token =>
    obtain ⟨-, rfl⟩ := List.cons.inj h
    exact List.drop_left

/-- A number is a numeral. -/
theorem scanNumber_numeral {cs rest : List Char} {v : Json} (h : scanNumber cs = some (v, rest)) :
    ∃ whole tail, numeral cs = some (whole, tail) ∧ whole ≠ [] ∧ whole ++ tail ++ rest = cs ∧
      floats v = if tail = [] then [] else [Platform.floatRepr (String.ofList (whole ++ tail))] := by
  obtain ⟨hsign, -⟩ := consumes_numberSign cs
  obtain ⟨hwhole, -⟩ := consumes_wholeDigits (numberSign cs).2
  rw [scanNumber_eq] at h
  rcases hread : wholeDigits (numberSign cs).2 with ⟨_ | ⟨d, digits⟩, left⟩
  · rw [hread] at h
    cases h
  · obtain ⟨hfrac, -⟩ := consumes_fraction left
    obtain ⟨hexp, -⟩ := consumes_exponent (fraction left).2
    rw [hread] at h hwhole
    have hcs : (numberSign cs).1 ++ d :: digits ++ ((fraction left).1 ++ (exponent (fraction left).2).1) ++
        (exponent (fraction left).2).2 = cs := by
      simp only at hwhole
      rw [List.append_assoc, List.append_assoc, List.append_assoc, hexp, hfrac, hwhole, hsign]
    have hnumeral : numeral cs = some ((numberSign cs).1 ++ d :: digits,
        (fraction left).1 ++ (exponent (fraction left).2).1) := by rw [numeral, hread]
    simp only at h
    by_cases hint : (fraction left).1 = [] ∧ (exponent (fraction left).2).1 = []
    · rw [if_pos hint] at h
      by_cases hlong : 4300 < (d :: digits).length
      · rw [if_pos hlong] at h
        cases h
      · rw [if_neg hlong] at h
        obtain ⟨rfl, rfl⟩ := Prod.mk.inj (Option.some.inj h)
        exact ⟨_, _, hnumeral, by simp, hcs, by simp [floats, hint]⟩
    · rw [if_neg hint] at h
      obtain ⟨rfl, rfl⟩ := Prod.mk.inj (Option.some.inj h)
      exact ⟨_, _, hnumeral, by simp, hcs, by simp [floats, hint]⟩

/-- **A number** is passed over, and it is collected if it is a float. -/
theorem readFloats_number {cs rest : List Char} {v : Json} (h : scanNumber cs = some (v, rest)) :
    readFloats cs = floats v ++ readFloats rest := by
  obtain ⟨whole, tail, hnumeral, hwhole, hcs, hfloats⟩ := scanNumber_numeral h
  obtain ⟨c, ds, rfl, hc⟩ := scanNumber_head h
  have hquote : c ≠ '"' := by
    rintro rfl
    rcases hc with hc | hc <;> cases hc
  have hdrop := drop_token hcs (by simp [hwhole])
  rw [readFloats, floatNumerals, if_neg hquote, hnumeral, hfloats]
  cases tail with
  | nil =>
    rw [List.append_nil] at hdrop
    simp only [if_true, List.nil_append, floatNumerals_drop (whole.length - 1), hdrop]
    rfl
  | cons t tail =>
    simp only [reduceCtorEq, if_false, List.map_cons, List.singleton_append,
      floatNumerals_drop ((whole ++ t :: tail).length - 1), hdrop]
    rfl

/-! ### Values -/

/-- What the texts that were read are passed over to. -/
theorem readFloats_of_skip {c : Char} {cs rest : List Char} (h : skip cs = c :: rest) (hquote : c ≠ '"')
    (hminus : c ≠ '-') (hdigit : isDigit c = false) : readFloats cs = readFloats rest := by
  rw [← readFloats_skip, h, readFloats_cons hquote hminus hdigit]

/-- The floats of a value are those of the numerals before its end. -/
def ReadsValue (fuel : ℕ) : Prop :=
  ∀ depth cs v rest, scanValue fuel depth cs = some (v, rest) → readFloats cs = floats v ++ readFloats rest

/-- The same of the items of a list. -/
def ReadsItems (fuel : ℕ) : Prop :=
  ∀ depth cs items rest, scanItems fuel depth cs = some (items, rest) →
    readFloats cs = floatsItems items ++ readFloats rest

/-- The same of the items of a mapping. -/
def ReadsFields (fuel : ℕ) : Prop :=
  ∀ depth cs fields rest, scanFields fuel depth cs = some (fields, rest) →
    readFloats cs = floatsFields fields ++ readFloats rest

theorem ReadsValue.step {fuel : ℕ} (hitems : ReadsItems fuel) (hfields : ReadsFields fuel) :
    ReadsValue (fuel + 1) := by
  intro depth cs v rest h
  unfold scanValue at h
  split at h
  · cases h
  · rename_i fuel' cs hfuel
    obtain ⟨⟨s, after⟩, hstring, h⟩ := Option.bind_eq_some_iff.mp h
    obtain ⟨rfl, rfl⟩ := Prod.mk.inj (Option.some.inj h)
    exact readFloats_literal hstring
  · rename_i fuel' depth' cs hfuel
    obtain rfl := Nat.succ.inj hfuel
    rw [readFloats_cons (by decide) (by decide) (by decide)]
    split at h
    · rename_i after hskip
      obtain ⟨rfl, rfl⟩ := Prod.mk.inj (Option.some.inj h)
      exact readFloats_of_skip hskip (by decide) (by decide) (by decide)
    · obtain ⟨⟨fields, after⟩, hread, h⟩ := Option.bind_eq_some_iff.mp h
      simp only at h
      split_ifs at h
      obtain ⟨rfl, rfl⟩ := Prod.mk.inj (Option.some.inj h)
      rw [← readFloats_skip]
      exact hfields _ _ _ _ hread
  · rename_i fuel' depth' cs hfuel
    obtain rfl := Nat.succ.inj hfuel
    rw [readFloats_cons (by decide) (by decide) (by decide)]
    split at h
    · rename_i after hskip
      obtain ⟨rfl, rfl⟩ := Prod.mk.inj (Option.some.inj h)
      exact readFloats_of_skip hskip (by decide) (by decide) (by decide)
    · obtain ⟨⟨items, after⟩, hread, h⟩ := Option.bind_eq_some_iff.mp h
      obtain ⟨rfl, rfl⟩ := Prod.mk.inj (Option.some.inj h)
      rw [← readFloats_skip]
      exact hitems _ _ _ _ hread
  · obtain ⟨rfl, rfl⟩ := Prod.mk.inj (Option.some.inj h)
    rfl
  · obtain ⟨rfl, rfl⟩ := Prod.mk.inj (Option.some.inj h)
    rfl
  · obtain ⟨rfl, rfl⟩ := Prod.mk.inj (Option.some.inj h)
    rfl
  · exact readFloats_number h

theorem ReadsItems.step {fuel : ℕ} (hvalue : ReadsValue fuel) (hitems : ReadsItems fuel) : ReadsItems (fuel + 1) := by
  intro depth cs items rest h
  unfold scanItems at h
  obtain ⟨⟨item, after⟩, hitem, h⟩ := Option.bind_eq_some_iff.mp h
  rw [hvalue _ _ _ _ hitem]
  simp only at h
  split at h
  · rename_i last hskip
    obtain ⟨rfl, rfl⟩ := Prod.mk.inj (Option.some.inj h)
    rw [readFloats_of_skip hskip (by decide) (by decide) (by decide)]
    simp [floatsItems]
  · rename_i more hskip
    obtain ⟨⟨others, after'⟩, hothers, h⟩ := Option.bind_eq_some_iff.mp h
    obtain ⟨rfl, rfl⟩ := Prod.mk.inj (Option.some.inj h)
    rw [readFloats_of_skip hskip (by decide) (by decide) (by decide), ← readFloats_skip,
      hitems _ _ _ _ hothers, floatsItems, List.append_assoc]
  · cases h

theorem ReadsFields.step {fuel : ℕ} (hvalue : ReadsValue fuel) (hfields : ReadsFields fuel) :
    ReadsFields (fuel + 1) := by
  intro depth cs fields rest h
  unfold scanFields at h
  split at h
  · cases h
  · rename_i fuel' cs hfuel
    obtain rfl := Nat.succ.inj hfuel
    obtain ⟨⟨key, after⟩, hkey, h⟩ := Option.bind_eq_some_iff.mp h
    rw [readFloats_literal hkey]
    simp only at h
    split at h
    · rename_i colon hcolon
      obtain ⟨⟨item, after'⟩, hitem, h⟩ := Option.bind_eq_some_iff.mp h
      rw [readFloats_of_skip hcolon (by decide) (by decide) (by decide), ← readFloats_skip,
        hvalue _ _ _ _ hitem]
      simp only at h
      split at h
      · rename_i last hskip
        obtain ⟨rfl, rfl⟩ := Prod.mk.inj (Option.some.inj h)
        rw [readFloats_of_skip hskip (by decide) (by decide) (by decide)]
        simp [floatsFields]
      · rename_i more hskip
        obtain ⟨⟨others, last⟩, hothers, h⟩ := Option.bind_eq_some_iff.mp h
        obtain ⟨rfl, rfl⟩ := Prod.mk.inj (Option.some.inj h)
        rw [readFloats_of_skip hskip (by decide) (by decide) (by decide), ← readFloats_skip,
          hfields _ _ _ _ hothers, floatsFields, List.append_assoc]
      · cases h
    · cases h
  · cases h

/-- **The floats of a value** are those of the numerals before its end, however it is read. -/
theorem reads_floats (fuel : ℕ) : ReadsValue fuel ∧ ReadsItems fuel ∧ ReadsFields fuel := by
  induction fuel with
  | zero => refine ⟨?_, ?_, ?_⟩ <;> rintro depth cs v rest ⟨⟩
  | succ fuel ih =>
    obtain ⟨hvalue, hitems, hfields⟩ := ih
    exact ⟨.step hitems hfields, .step hvalue hitems, .step hvalue hfields⟩

/-- **The floats of what is decoded** are those of the numerals of the text. -/
theorem loads_floats {cs : List Char} {v : Json} (h : loads cs = some v) : readFloats cs = floats v := by
  unfold loads at h
  obtain ⟨⟨value, rest⟩, hvalue, h⟩ := Option.bind_eq_some_iff.mp h
  simp only at h
  split_ifs at h with hend
  obtain rfl := Option.some.inj h
  rw [← readFloats_skip, (reads_floats _).1 _ _ _ _ hvalue, ← readFloats_skip rest, hend]
  simp [readFloats, floatNumerals]

end Values

end PayOps.Json
