import PayOps.JsonText

/-!
# Indented JSON

`json.dumps(value, indent=n)`, and that `json.loads` reads it back.

## The model

`pretty` writes a value, `Printable` says of which values it is a text: the keys of a mapping are different, and a
number is written as it is read.

## What is proved

* `Printable.scan` — a value is read back from a longer text.
* `Printable.loads_pretty` — **main result**: `json.loads` inverts `json.dumps`.
* `Printable.plain`, `Printable.indented` — of which characters the text is, and that its lines are indented.
-/

namespace PayOps.Json

/-- A line feed, and the indentation of a level. -/
def newline (indent level : ℕ) : List Char := '\n' :: List.replicate (indent * level) ' '

mutual

/-- `json.dumps(value, indent=indent)`, of a value inside of `level` others. -/
def pretty (indent level : ℕ) : Json → List Char
  | null => "null".toList
  | bool b => (if b then "true" else "false").toList
  | int n => (toString n).toList
  | float r => r.toList
  | str s => quote true s
  | arr [] => ['[', ']']
  | arr (x :: xs) => '[' :: newline indent (level + 1) ++
      (',' :: newline indent (level + 1)).intercalate (prettyItems indent (level + 1) (x :: xs)) ++
      newline indent level ++ [']']
  | obj [] => ['{', '}']
  | obj (x :: xs) => '{' :: newline indent (level + 1) ++
      (',' :: newline indent (level + 1)).intercalate (prettyFields indent (level + 1) (x :: xs)) ++
      newline indent level ++ ['}']

/-- The texts of the items of a list. -/
def prettyItems (indent level : ℕ) : List Json → List (List Char)
  | [] => []
  | x :: xs => pretty indent level x :: prettyItems indent level xs

/-- The texts of the items of a mapping. -/
def prettyFields (indent level : ℕ) : List (String × Json) → List (List Char)
  | [] => []
  | (key, x) :: xs => (quote true key ++ ':' :: ' ' :: pretty indent level x) :: prettyFields indent level xs

end

/-- The text of a field. -/
def prettyField (indent level : ℕ) (f : String × Json) : List Char :=
  quote true f.1 ++ ':' :: ' ' :: pretty indent level f.2

theorem prettyItems_eq (indent level : ℕ) (items : List Json) :
    prettyItems indent level items = items.map (pretty indent level) := by
  induction items with
  | nil => rfl
  | cons x xs ih => rw [prettyItems, ih, List.map_cons]

theorem prettyFields_eq (indent level : ℕ) (fields : List (String × Json)) :
    prettyFields indent level fields = fields.map (prettyField indent level) := by
  induction fields with
  | nil => rfl
  | cons f fs ih =>
    obtain ⟨key, x⟩ := f
    rw [prettyFields, ih, List.map_cons]
    rfl

/-! ### Tokens -/

/-- What follows a value: nothing, or what ends a number. -/
def Stops (rest : List Char) : Prop := ∀ c ∈ rest.head?, c ∈ [',', '\n', ' ', ']', '}']

theorem Stops.not_digit {rest : List Char} (h : Stops rest) : ∀ c ∈ rest.head?, isDigit c = false := by
  intro c hc
  have hstop := h c hc
  revert hstop
  simp only [List.mem_cons, List.not_mem_nil, or_false]
  rintro (rfl | rfl | rfl | rfl | rfl) <;> rfl

/-- Digits end where the text did. -/
theorem span_digits {rest : List Char} (h : ∀ c ∈ rest.head?, isDigit c = false) (cs : List Char) :
    (cs ++ rest).span isDigit = ((cs.span isDigit).1, (cs.span isDigit).2 ++ rest) := by
  simp only [List.span_eq_takeWhile_dropWhile]
  induction cs with
  | nil =>
    cases rest with
    | nil => rfl
    | cons c rest => simp [h c rfl]
  | cons c cs ih =>
    cases hc : isDigit c with
    | true => simpa [hc] using ih
    | false => simp [hc]

/-- There is no fraction without a point. -/
theorem fraction_other {cs : List Char} (h : cs.head? ≠ some '.') : fraction cs = ([], cs) := by
  rw [fraction]
  rintro ds rfl
  exact h rfl

theorem fraction_append {rest : List Char} (h : Stops rest) (cs : List Char) :
    fraction (cs ++ rest) = ((fraction cs).1, (fraction cs).2 ++ rest) := by
  cases cs with
  | nil =>
    have hrest : rest.head? ≠ some '.' := fun hpoint => absurd (h '.' hpoint) (by decide)
    rw [List.nil_append, fraction_other hrest]
    rfl
  | cons c cs =>
    by_cases hc : c = '.'
    · subst hc
      simp only [List.cons_append, fraction, span_digits h.not_digit cs]
      rcases cs.span isDigit with ⟨_ | ⟨d, digits⟩, left⟩ <;> rfl
    · have hhead (ds : List Char) : (c :: ds).head? ≠ some '.' := by simpa using hc
      rw [List.cons_append, fraction_other (hhead _), fraction_other (hhead _)]
      rfl

/-- There is no exponent without its letter. -/
theorem exponent_other {cs : List Char} (h : ∀ c ∈ cs.head?, c ≠ 'e' ∧ c ≠ 'E') : exponent cs = ([], cs) := by
  cases cs with
  | nil => rfl
  | cons c cs =>
    obtain ⟨he, hE⟩ := h c rfl
    simp [exponent, he, hE]

/-- The sign of an exponent. -/
def exponentSign : List Char → List Char × List Char
  | '+' :: rest => (['+'], rest)
  | '-' :: rest => (['-'], rest)
  | rest => ([], rest)

theorem exponentSign_append {rest : List Char} (h : Stops rest) (cs : List Char) :
    exponentSign (cs ++ rest) = ((exponentSign cs).1, (exponentSign cs).2 ++ rest) := by
  have hother {c : Char} (ds : List Char) (hplus : c ≠ '+') (hminus : c ≠ '-') :
      exponentSign (c :: ds) = ([], c :: ds) := by
    rw [exponentSign] <;> simp [hplus, hminus]
  cases cs with
  | nil =>
    cases rest with
    | nil => rfl
    | cons c rest =>
      have hc := h c rfl
      refine hother rest ?_ ?_ <;> rintro rfl <;> exact absurd hc (by decide)
  | cons c cs =>
    by_cases hplus : c = '+'
    · subst hplus
      rfl
    by_cases hminus : c = '-'
    · subst hminus
      rfl
    · rw [List.cons_append, hother _ hplus hminus, hother _ hplus hminus]
      rfl

theorem exponent_cons {e : Char} (he : e = 'e' ∨ e = 'E') (cs : List Char) :
    exponent (e :: cs) =
      match (exponentSign cs).2.span isDigit with
      | ([], _) => ([], e :: cs)
      | (digits, rest) => (e :: (exponentSign cs).1 ++ digits, rest) := by
  show (if e = 'e' ∨ e = 'E' then _ else _) = _
  rw [if_pos he]
  rfl

theorem exponent_append {rest : List Char} (h : Stops rest) (cs : List Char) :
    exponent (cs ++ rest) = ((exponent cs).1, (exponent cs).2 ++ rest) := by
  cases cs with
  | nil =>
    have hrest : ∀ c ∈ rest.head?, c ≠ 'e' ∧ c ≠ 'E' := by
      intro c hc
      refine ⟨?_, ?_⟩ <;> rintro rfl <;> exact absurd (h _ hc) (by decide)
    rw [List.nil_append, exponent_other hrest]
    rfl
  | cons e cs =>
    by_cases he : e = 'e' ∨ e = 'E'
    · rw [List.cons_append, exponent_cons he, exponent_cons he, exponentSign_append h,
        span_digits h.not_digit]
      rcases (exponentSign cs).2.span isDigit with ⟨_ | ⟨d, digits⟩, left⟩ <;> rfl
    · have hhead (ds : List Char) : ∀ c ∈ (e :: ds).head?, c ≠ 'e' ∧ c ≠ 'E' := by
        simpa [not_or] using he
      rw [List.cons_append, exponent_other (hhead _), exponent_other (hhead _)]
      rfl

/-- The sign of a number. -/
def numberSign : List Char → List Char × List Char
  | '-' :: rest => (['-'], rest)
  | rest => ([], rest)

/-- The digits before the point. -/
def wholeDigits : List Char → List Char × List Char
  | '0' :: rest => (['0'], rest)
  | rest => rest.span isDigit

theorem numberSign_other {cs : List Char} (h : cs.head? ≠ some '-') : numberSign cs = ([], cs) := by
  rw [numberSign]
  rintro ds rfl
  exact h rfl

theorem wholeDigits_other {cs : List Char} (h : cs.head? ≠ some '0') : wholeDigits cs = cs.span isDigit := by
  rw [wholeDigits]
  rintro ds rfl
  exact h rfl

theorem numberSign_append {rest : List Char} (h : Stops rest) (cs : List Char) :
    numberSign (cs ++ rest) = ((numberSign cs).1, (numberSign cs).2 ++ rest) := by
  cases cs with
  | nil =>
    have hrest : rest.head? ≠ some '-' := fun hminus => absurd (h '-' hminus) (by decide)
    rw [List.nil_append, numberSign_other hrest]
    rfl
  | cons c cs =>
    by_cases hc : c = '-'
    · subst hc
      rfl
    · have hhead (ds : List Char) : (c :: ds).head? ≠ some '-' := by simpa using hc
      rw [List.cons_append, numberSign_other (hhead _), numberSign_other (hhead _)]
      rfl

theorem wholeDigits_append {rest : List Char} (h : Stops rest) (cs : List Char) :
    wholeDigits (cs ++ rest) = ((wholeDigits cs).1, (wholeDigits cs).2 ++ rest) := by
  cases cs with
  | nil =>
    have hrest : rest.head? ≠ some '0' := fun hzero => absurd (h '0' hzero) (by decide)
    rw [List.nil_append, wholeDigits_other hrest]
    exact span_digits h.not_digit []
  | cons c cs =>
    by_cases hc : c = '0'
    · subst hc
      rfl
    · have hhead (ds : List Char) : (c :: ds).head? ≠ some '0' := by simpa using hc
      rw [List.cons_append, wholeDigits_other (hhead _), wholeDigits_other (hhead _), ← List.cons_append]
      exact span_digits h.not_digit _

/-- The digits of a number denote it, and they begin with a zero just for zero. -/
theorem digits_repr (n : ℕ) :
    digitsValue (Nat.toDigits 10 n) = n ∧ ((Nat.toDigits 10 n).head? = some '0' → n = 0) := by
  induction n using Nat.strongRecOn with
  | ind n ih =>
    by_cases hn : n < 10
    · rw [Nat.toDigits_of_lt_base hn]
      simp [digitsValue, Nat.toNat_digitChar_of_lt_ten hn]
    · obtain ⟨hvalue, hhead⟩ := ih (n / 10) (by omega)
      rw [Nat.toDigits_of_base_le (by decide) (by omega)]
      refine ⟨?_, fun hzero => ?_⟩
      · have hdigit := Nat.toNat_digitChar_of_lt_ten (n := n % 10) (by omega)
        rw [digitsValue, List.foldl_append]
        show digitsValue (Nat.toDigits 10 (n / 10)) * 10 + ((n % 10).digitChar.toNat - '0'.toNat) = n
        rw [hvalue, hdigit, show '0'.toNat = 48 from rfl]
        omega
      · have hfirst : (Nat.toDigits 10 (n / 10)).head? = some '0' := by
          cases hdigits : Nat.toDigits 10 (n / 10) with
          | nil => exact absurd hdigits Nat.toDigits_ne_nil
          | cons d digits =>
            rw [hdigits] at hzero
            exact hzero
        have hsmall := hhead hfirst
        omega

theorem isDigit_toDigits {n : ℕ} {c : Char} (h : c ∈ Nat.toDigits 10 n) : isDigit c = true := by
  simpa [isDigit, Char.isDigit, Char.le_def] using Nat.isDigit_of_mem_toDigits (by decide) (by decide) h

theorem span_toDigits (n : ℕ) : (Nat.toDigits 10 n).span isDigit = (Nat.toDigits 10 n, []) := by
  have hdigits : ∀ c ∈ Nat.toDigits 10 n, isDigit c = true := fun c hc => isDigit_toDigits hc
  rw [List.span_eq_takeWhile_dropWhile, List.takeWhile_eq_self_iff.mpr hdigits, List.dropWhile_eq_nil_iff.mpr hdigits]

theorem wholeDigits_toDigits (n : ℕ) : wholeDigits (Nat.toDigits 10 n) = (Nat.toDigits 10 n, []) := by
  by_cases hzero : (Nat.toDigits 10 n).head? = some '0'
  · obtain rfl := (digits_repr n).2 hzero
    rfl
  · rw [wholeDigits_other hzero, span_toDigits]

section Numbers

variable [Platform]

/-- A number, by its parts. -/
theorem scanNumber_eq (cs : List Char) :
    scanNumber cs =
      match wholeDigits (numberSign cs).2 with
      | ([], _) => none
      | (digits, rest) =>
        let (frac, rest) := fraction rest
        let (exp, rest) := exponent rest
        if frac = [] ∧ exp = [] then
          if 4300 < digits.length then none
          else some (.int (if (numberSign cs).1 = [] then digitsValue digits else -digitsValue digits), rest)
        else some (.float (Platform.floatRepr (String.ofList ((numberSign cs).1 ++ digits ++ frac ++ exp))), rest) :=
  rfl

/-- **A number** is read from a longer text as it is read from its own. -/
theorem scanNumber_append {rest : List Char} (h : Stops rest) (cs : List Char) :
    scanNumber (cs ++ rest) = (scanNumber cs).map fun p => (p.1, p.2 ++ rest) := by
  rw [scanNumber_eq, scanNumber_eq, numberSign_append h, wholeDigits_append h]
  rcases wholeDigits (numberSign cs).2 with ⟨_ | ⟨d, digits⟩, left⟩
  · rfl
  · simp only [fraction_append h, exponent_append h]
    split_ifs <;> rfl

/-- What is read of an integer. -/
theorem scanNumber_int {n : ℤ} (h : (Nat.toDigits 10 n.natAbs).length ≤ 4300) :
    scanNumber (toString n).toList = some (.int n, []) := by
  have hread (m : ℕ) (sign : List Char) (cs : List Char) (hm : (Nat.toDigits 10 m).length ≤ 4300)
      (hsign : numberSign cs = (sign, Nat.toDigits 10 m)) :
      scanNumber cs = some (.int (if sign = [] then m else -m), []) := by
    rw [scanNumber_eq, hsign]
    simp only [wholeDigits_toDigits]
    cases hdigits : Nat.toDigits 10 m with
    | nil => exact absurd hdigits Nat.toDigits_ne_nil
    | cons d digits =>
      have hvalue := (digits_repr m).1
      rw [hdigits] at hm hvalue
      simp only [List.length_cons] at hm
      simp [fraction, exponent, hvalue]
      omega
  cases n with
  | ofNat m =>
    have hhead : (Nat.toDigits 10 m).head? ≠ some '-' := by
      intro hminus
      exact absurd (isDigit_toDigits (List.mem_of_mem_head? hminus)) (by decide)
    rw [show (toString (Int.ofNat m)).toList = Nat.toDigits 10 m from Nat.toList_repr,
      hread m [] _ h (numberSign_other hhead)]
    rfl
  | negSucc m =>
    have htext : (toString (Int.negSucc m)).toList = '-' :: Nat.toDigits 10 (m + 1) := by
      rw [← Nat.toList_repr]
      simp [toString, Int.repr]
    rw [htext, hread (m + 1) ['-'] _ h rfl]
    rfl

end Numbers

/-! ### Strings -/

theorem hexValue_hexDigit (n : ℕ) : hexValue (hexDigit n) = some (n % 16) := by
  have h : ∀ d : Fin 16, hexValue (Nat.digitChar d) = some d.val := by decide
  exact h ⟨n % 16, Nat.mod_lt _ (by decide)⟩

theorem hex4_hexDigit {n : ℕ} (h : n < 65536) (rest : List Char) :
    hex4 (hexDigit (n / 4096) :: hexDigit (n / 256) :: hexDigit (n / 16) :: hexDigit n :: rest) = some (n, rest) := by
  simp only [hex4, hexValue_hexDigit, Option.bind_eq_bind, Option.bind_some]
  have hn : n / 4096 % 16 * 4096 + n / 256 % 16 * 256 + n / 16 % 16 * 16 + n % 16 = n := by omega
  rw [hn]
  rfl

/-- The code point of a character. -/
theorem toNat_valid (c : Char) : c.toNat < 0xD800 ∨ (0xE000 ≤ c.toNat ∧ c.toNat < 0x110000) := by
  have h : c.toNat < 0xD800 ∨ 0xDFFF < c.toNat ∧ c.toNat < 0x110000 := c.valid
  omega

/-- The escape of a character of the basic plane. -/
theorem scanString_unicodeEscape {n : ℕ} (hplane : n < 0x10000) (h : n < 0xD800 ∨ 0xE000 ≤ n) (fuel : ℕ)
    (acc rest : List Char) :
    scanString (fuel + 1) acc (unicodeEscape n ++ rest) = scanString fuel (Char.ofNat n :: acc) rest := by
  have hchar : unicodeChar (hexDigit (n / 4096) :: hexDigit (n / 256) :: hexDigit (n / 16) :: hexDigit n :: rest) =
      some (Char.ofNat n, rest) := by
    rw [unicodeChar, hex4_hexDigit hplane]
    exact if_pos h
  simp only [unicodeEscape, List.cons_append, List.nil_append, scanString, hchar, Option.bind_eq_bind,
    Option.bind_some]

/-- The escapes of a character beyond it. -/
theorem scanString_surrogates {high low : ℕ} (hhigh : 0xD800 ≤ high ∧ high < 0xDC00)
    (hlow : 0xDC00 ≤ low ∧ low < 0xE000) (fuel : ℕ) (acc rest : List Char) :
    scanString (fuel + 1) acc (unicodeEscape high ++ unicodeEscape low ++ rest) =
      scanString fuel (Char.ofNat (0x10000 + (high - 0xD800) * 0x400 + (low - 0xDC00)) :: acc) rest := by
  have hbasic : ¬(high < 0xD800 ∨ 0xE000 ≤ high) := by omega
  have hfirst : ¬0xDC00 ≤ high := by omega
  have hchar : unicodeChar (hexDigit (high / 4096) :: hexDigit (high / 256) :: hexDigit (high / 16) ::
      hexDigit high :: '\\' :: 'u' :: hexDigit (low / 4096) :: hexDigit (low / 256) :: hexDigit (low / 16) ::
      hexDigit low :: rest) =
      some (Char.ofNat (0x10000 + (high - 0xD800) * 0x400 + (low - 0xDC00)), rest) := by
    rw [unicodeChar, hex4_hexDigit (by omega)]
    simp only [Option.bind_eq_bind, Option.bind_some]
    rw [if_neg hbasic, if_neg hfirst, hex4_hexDigit (by omega)]
    exact if_pos hlow
  simp only [unicodeEscape, List.cons_append, List.nil_append, scanString, hchar, Option.bind_eq_bind,
    Option.bind_some]

/-- **A character** is read back from its literal. -/
theorem scanString_escapeChar (ascii : Bool) (fuel : ℕ) (acc : List Char) (c : Char) (rest : List Char) :
    scanString (fuel + 1) acc (escapeChar ascii c ++ rest) = scanString fuel (c :: acc) rest := by
  have hvalid := toNat_valid c
  unfold escapeChar
  split_ifs with hquote hslash hfeed hreturn htab hback hform hcontrol hascii hplane
  · rw [hquote]
    rfl
  · rw [hslash]
    rfl
  · rw [hfeed]
    rfl
  · rw [hreturn]
    rfl
  · rw [htab]
    rfl
  · rw [show c = Char.ofNat 8 by rw [← hback, Char.ofNat_toNat]]
    rfl
  · rw [show c = Char.ofNat 12 by rw [← hform, Char.ofNat_toNat]]
    rfl
  · rw [scanString_unicodeEscape (by omega) (by omega), Char.ofNat_toNat]
  · rw [scanString_unicodeEscape (by omega) (by omega), Char.ofNat_toNat]
  · have hpair : 0x10000 + (0xD800 + (c.toNat - 0x10000) / 1024 - 0xD800) * 0x400 +
        (0xDC00 + (c.toNat - 0x10000) % 1024 - 0xDC00) = c.toNat := by omega
    rw [scanString_surrogates (by omega) (by omega), hpair, Char.ofNat_toNat]
  · rw [List.singleton_append, scanString]
    · rw [if_neg (by simpa [hslash] using hcontrol)]
    · exact hquote
    · rintro - rfl
      exact absurd rfl hslash
    · rintro _ _ rfl
      exact absurd rfl hslash

/-- **A string** is read back from its literal. -/
theorem scanString_flatMap (ascii : Bool) (cs : List Char) {fuel : ℕ} (acc rest : List Char) (h : cs.length < fuel) :
    scanString fuel acc (cs.flatMap (escapeChar ascii) ++ '"' :: rest) =
      some (String.ofList (acc.reverse ++ cs), rest) := by
  induction cs generalizing fuel acc with
  | nil =>
    obtain ⟨fuel, rfl⟩ : ∃ k, fuel = k + 1 := ⟨fuel - 1, by simp at h; omega⟩
    simp [scanString]
  | cons c cs ih =>
    obtain ⟨fuel, rfl⟩ : ∃ k, fuel = k + 1 := ⟨fuel - 1, by omega⟩
    rw [List.flatMap_cons, List.append_assoc, scanString_escapeChar, ih _ (by simpa using h)]
    simp

theorem escapeChar_ne_nil (ascii : Bool) (c : Char) : escapeChar ascii c ≠ [] := by
  unfold escapeChar
  split_ifs <;> simp [unicodeEscape]

theorem length_le_quote (ascii : Bool) (s : String) : s.toList.length + 2 ≤ (quote ascii s).length := by
  have hflat (cs : List Char) : cs.length ≤ (cs.flatMap (escapeChar ascii)).length := by
    induction cs with
    | nil => simp
    | cons c cs ih =>
      have hc := List.length_pos_iff.mpr (escapeChar_ne_nil ascii c)
      rw [List.flatMap_cons, List.length_append, List.length_cons]
      omega
  have hs := hflat s.toList
  simp only [quote, List.cons_append, List.length_cons, List.length_append, List.length_nil]
  omega

theorem scanString_quote (ascii : Bool) (s : String) {fuel : ℕ} (h : (quote ascii s).length ≤ fuel) :
    ∃ cs, quote ascii s = '"' :: cs ∧ ∀ rest, scanString fuel [] (cs ++ rest) = some (s, rest) := by
  have hlength := length_le_quote ascii s
  refine ⟨s.toList.flatMap (escapeChar ascii) ++ ['"'], rfl, fun rest => ?_⟩
  rw [List.append_assoc, List.singleton_append, scanString_flatMap _ _ _ _ (by omega)]
  simp

/-! ### Values -/

section Values

variable [Platform]

/-- A value that is written as JSON, nested in at most `depth` containers. -/
inductive Printable : ℕ → Json → Prop where
  /-- `None`. -/
  | null {depth : ℕ} : Printable depth .null
  /-- A boolean. -/
  | bool {depth : ℕ} (b : Bool) : Printable depth (.bool b)
  /-- An integer, within the bound of its conversion. -/
  | int {depth : ℕ} {n : ℤ} (h : (Nat.toDigits 10 n.natAbs).length ≤ 4300) : Printable depth (.int n)
  /-- A float, which is read from its representation. -/
  | float {depth : ℕ} {r : String} (h : scanNumber r.toList = some (.float r, [])) : Printable depth (.float r)
  /-- A string. -/
  | str {depth : ℕ} (s : String) : Printable depth (.str s)
  /-- A list. -/
  | arr {depth : ℕ} {items : List Json} (h : ∀ x ∈ items, Printable depth x) : Printable (depth + 1) (.arr items)
  /-- A mapping. -/
  | obj {depth : ℕ} {fields : List (String × Json)} (hkeys : (fields.map Prod.fst).Nodup)
      (h : ∀ f ∈ fields, Printable depth f.2) : Printable (depth + 1) (.obj fields)

/-- A value is nested no deeper under a larger bound. -/
theorem Printable.mono {bound bound' : ℕ} {v : Json} (h : Printable bound v) (hle : bound ≤ bound') :
    Printable bound' v := by
  induction h generalizing bound' with
  | null => exact .null
  | bool b => exact .bool b
  | int h => exact .int h
  | float h => exact .float h
  | str s => exact .str s
  | @arr bound items h ih =>
    obtain ⟨k, rfl⟩ : ∃ k, bound' = k + 1 := ⟨bound' - 1, by omega⟩
    exact .arr fun x hx => ih x hx (Nat.le_of_succ_le_succ hle)
  | @obj bound fields hkeys h ih =>
    obtain ⟨k, rfl⟩ : ∃ k, bound' = k + 1 := ⟨bound' - 1, by omega⟩
    exact .obj hkeys fun f hf => ih f hf (Nat.le_of_succ_le_succ hle)

/-- What a number begins with. -/
theorem scanNumber_head {cs : List Char} {p : Json × List Char} (h : scanNumber cs = some p) :
    ∃ c ds, cs = c :: ds ∧ (c = '-' ∨ isDigit c = true) := by
  cases cs with
  | nil => cases h
  | cons c ds =>
    refine ⟨c, ds, rfl, ?_⟩
    by_contra hhead
    simp only [not_or, Bool.not_eq_true] at hhead
    have hsign : numberSign (c :: ds) = ([], c :: ds) := numberSign_other (by simpa using hhead.1)
    have hzero : (c :: ds).head? ≠ some '0' := by
      rintro ⟨⟩
      exact absurd hhead.2 (by decide)
    rw [scanNumber_eq, hsign, wholeDigits_other hzero, List.span_eq_takeWhile_dropWhile] at h
    simp [hhead.2] at h

/-- A number is a value. -/
theorem scanValue_number {fuel depth : ℕ} {c : Char} {cs : List Char} (h : c = '-' ∨ isDigit c = true) :
    scanValue (fuel + 1) depth (c :: cs) = scanNumber (c :: cs) := by
  have hne (d : Char) (hd : ¬(d = '-' ∨ isDigit d = true)) : c ≠ d := by
    rintro rfl
    exact hd h
  have hquote := hne '"' (by decide)
  have hbrace := hne '\x7b' (by decide)
  have hbracket := hne '[' (by decide)
  have hnull := hne 'n' (by decide)
  have htrue := hne 't' (by decide)
  have hfalse := hne 'f' (by decide)
  rw [scanValue] <;> simp [hquote, hbrace, hbracket, hnull, htrue, hfalse]

theorem scanValue_arr {fuel depth : ℕ} {cs rest : List Char} {c : Char} (hskip : skip cs = c :: rest)
    (h : c ≠ ']') :
    scanValue (fuel + 1) (depth + 1) ('[' :: cs) =
      (scanItems fuel depth (c :: rest)).map fun p => (.arr p.1, p.2) := by
  rw [scanValue, hskip]
  split
  · rename_i hclosed
    exact absurd (List.cons.inj hclosed).1 h
  · cases scanItems fuel depth (c :: rest) <;> rfl

theorem scanItems_last {fuel depth : ℕ} {cs rest rest' : List Char} {x : Json}
    (h : scanValue fuel depth cs = some (x, rest)) (hskip : skip rest = ']' :: rest') :
    scanItems (fuel + 1) depth cs = some ([x], rest') := by
  simp [scanItems, h, hskip]

theorem scanItems_more {fuel depth : ℕ} {cs rest rest' : List Char} {x : Json}
    (h : scanValue fuel depth cs = some (x, rest)) (hskip : skip rest = ',' :: rest') :
    scanItems (fuel + 1) depth cs = (scanItems fuel depth (skip rest')).map fun p => (x :: p.1, p.2) := by
  simp only [scanItems, h, hskip, Option.bind_eq_bind, Option.bind_some]
  cases scanItems fuel depth (skip rest') <;> rfl

theorem scanValue_obj {fuel depth : ℕ} {cs rest : List Char} {c : Char} (hskip : skip cs = c :: rest)
    (h : c ≠ '\x7d') :
    scanValue (fuel + 1) (depth + 1) ('\x7b' :: cs) =
      (scanFields fuel depth (c :: rest)).bind fun p =>
        if (p.1.map Prod.fst).Nodup then some (.obj p.1, p.2) else none := by
  rw [scanValue, hskip]
  split
  · rename_i hclosed
    exact absurd (List.cons.inj hclosed).1 h
  · cases scanFields fuel depth (c :: rest) <;> rfl

theorem scanFields_last {fuel depth : ℕ} {cs key item rest rest' : List Char} {k : String} {x : Json}
    (hkey : scanString (fuel + 1) [] cs = some (k, key)) (hcolon : skip key = ':' :: item)
    (h : scanValue fuel depth (skip item) = some (x, rest)) (hskip : skip rest = '\x7d' :: rest') :
    scanFields (fuel + 1) depth ('"' :: cs) = some ([(k, x)], rest') := by
  simp [scanFields, hkey, hcolon, h, hskip]

theorem scanFields_more {fuel depth : ℕ} {cs key item rest rest' : List Char} {k : String} {x : Json}
    (hkey : scanString (fuel + 1) [] cs = some (k, key)) (hcolon : skip key = ':' :: item)
    (h : scanValue fuel depth (skip item) = some (x, rest)) (hskip : skip rest = ',' :: rest') :
    scanFields (fuel + 1) depth ('"' :: cs) =
      (scanFields fuel depth (skip rest')).map fun p => ((k, x) :: p.1, p.2) := by
  simp only [scanFields, hkey, hcolon, h, hskip, Option.bind_eq_bind, Option.bind_some]
  cases scanFields fuel depth (skip rest') <;> rfl

/-- White space between the tokens of a text. -/
def Blank (cs : List Char) : Prop := ∀ c ∈ cs, c = '\n' ∨ c = ' '

omit [Platform] in
theorem blank_newline (indent level : ℕ) : Blank (newline indent level) := by
  intro c hc
  rcases List.mem_cons.mp hc with rfl | hblank
  · exact .inl rfl
  · exact .inr (List.mem_replicate.mp hblank).2

omit [Platform] in
theorem skip_blank {blanks : List Char} (h : Blank blanks) (cs : List Char) : skip (blanks ++ cs) = skip cs := by
  refine List.dropWhile_append_of_pos fun c hc => ?_
  rcases h c hc with rfl | rfl <;> rfl

omit [Platform] in
theorem stops_blank {blanks cs : List Char} (h : Blank blanks) (hcs : Stops cs) : Stops (blanks ++ cs) := by
  cases blanks with
  | nil => exact hcs
  | cons c blanks =>
    rintro d ⟨⟩
    rcases h c (by simp) with rfl | rfl <;> simp

/-- A character that a value begins with. -/
def leading (c : Char) : Bool := c ∈ ['"', '\x7b', '[', 'n', 't', 'f', '-'] || isDigit c

omit [Platform] in
theorem skip_leading {c : Char} (h : leading c = true) (cs : List Char) : skip (c :: cs) = c :: cs := by
  refine List.dropWhile_cons_of_neg ?_
  simp only [Bool.or_eq_true, beq_iff_eq]
  rintro (((rfl | rfl) | rfl) | rfl) <;> exact absurd h (by decide)

theorem leading_number {cs : List Char} {p : Json × List Char} (h : scanNumber cs = some p) :
    ∃ c ds, cs = c :: ds ∧ leading c = true := by
  obtain ⟨c, ds, rfl, hc | hc⟩ := scanNumber_head h
  · exact ⟨c, ds, rfl, by simp [leading, hc]⟩
  · exact ⟨c, ds, rfl, by simp [leading, hc]⟩

/-- What a value begins with. -/
theorem Printable.head {depth : ℕ} {v : Json} (h : Printable depth v) (indent level : ℕ) :
    ∃ c cs, pretty indent level v = c :: cs ∧ leading c = true := by
  cases h with
  | null => exact ⟨_, _, rfl, rfl⟩
  | bool b => cases b <;> exact ⟨_, _, rfl, rfl⟩
  | int h => exact leading_number (scanNumber_int h)
  | float h => exact leading_number h
  | str s => exact ⟨_, _, rfl, rfl⟩
  | @arr depth items h => cases items <;> exact ⟨_, _, rfl, rfl⟩
  | @obj depth fields hkeys h => cases fields <;> exact ⟨_, _, rfl, rfl⟩

omit [Platform] in
/-- The first of several texts. -/
theorem intercalate_head (sep t : List Char) (ts : List (List Char)) :
    ∃ tail, sep.intercalate (t :: ts) = t ++ tail := by
  cases ts with
  | nil => exact ⟨[], by simp⟩
  | cons t' ts => exact ⟨_, List.intercalate_cons_cons.trans (List.append_assoc _ _ _)⟩

omit [Platform] in
theorem skip_intercalate {sep t : List Char} (h : ∃ c cs, t = c :: cs ∧ leading c = true) (ts : List (List Char))
    (rest : List Char) : skip (sep.intercalate (t :: ts) ++ rest) = sep.intercalate (t :: ts) ++ rest := by
  obtain ⟨c, cs, rfl, hc⟩ := h
  obtain ⟨tail, htail⟩ := intercalate_head sep (c :: cs) ts
  rw [htail]
  exact skip_leading hc _

section Layout

variable {blanks colon closing : List Char} {written : Json → List Char}

/-- A value is read from a text that it begins. -/
def Scans (written : Json → List Char) (depth : ℕ) (v : Json) : Prop :=
  ∀ fuel rest, 2 * (written v).length ≤ fuel → Stops rest → scanValue fuel depth (written v ++ rest) = some (v, rest)

/-- The text of a member. -/
def fieldText (ascii : Bool) (colon : List Char) (written : Json → List Char) (f : String × Json) : List Char :=
  quote ascii f.1 ++ ':' :: colon ++ written f.2

/-- **The items of a list** are read from their texts. -/
theorem scanItems_texts (hblanks : Blank blanks) (hclosing : Blank closing) {depth : ℕ} {x : Json} {items : List Json}
    (hhead : ∀ y ∈ x :: items, ∃ c cs, written y = c :: cs ∧ leading c = true)
    (hscan : ∀ y ∈ x :: items, Scans written depth y) {fuel : ℕ} (rest : List Char)
    (hfuel : 2 * ((',' :: blanks).intercalate ((x :: items).map written)).length < fuel) :
    scanItems fuel depth ((',' :: blanks).intercalate ((x :: items).map written) ++ (closing ++ ']' :: rest)) =
      some (x :: items, rest) := by
  induction items generalizing x fuel with
  | nil =>
    obtain ⟨fuel, rfl⟩ : ∃ k, fuel = k + 1 := ⟨fuel - 1, by omega⟩
    simp only [List.map_cons, List.map_nil, List.intercalate_singleton] at hfuel ⊢
    have hstops : Stops (closing ++ ']' :: rest) := stops_blank hclosing (by rintro c ⟨⟩; simp)
    refine scanItems_last (hscan x (by simp) fuel _ (by omega) hstops) ?_
    rw [skip_blank hclosing]
    rfl
  | cons y ys ih =>
    obtain ⟨fuel, rfl⟩ : ∃ k, fuel = k + 1 := ⟨fuel - 1, by omega⟩
    obtain ⟨hx, hscans⟩ := List.forall_mem_cons.mp hscan
    obtain ⟨-, hheads⟩ := List.forall_mem_cons.mp hhead
    simp only [List.map_cons, List.intercalate_cons_cons, List.append_assoc, List.length_append,
      List.cons_append, List.length_cons] at hfuel ih ⊢
    rw [scanItems_more (hx fuel _ (by omega) (by rintro c ⟨⟩; simp)) rfl, skip_blank hblanks,
      skip_intercalate (hheads y (by simp)), ih hheads hscans (by omega)]
    rfl

/-- A member is read up to its value. -/
theorem scanFields_key (ascii : Bool) (hcolon : Blank colon) {depth : ℕ} {f : String × Json}
    (hhead : ∃ c cs, written f.2 = c :: cs ∧ leading c = true) (hscan : Scans written depth f.2)
    {fuel : ℕ} (hfuel : 2 * (fieldText ascii colon written f).length ≤ fuel) {rest : List Char} (hrest : Stops rest) :
    ∃ cs key item, fieldText ascii colon written f ++ rest = '"' :: cs ∧
      scanString (fuel + 1) [] cs = some (f.1, key) ∧ skip key = ':' :: item ∧
      scanValue fuel depth (skip item) = some (f.2, rest) := by
  simp only [fieldText, List.length_append, List.length_cons] at hfuel
  obtain ⟨cs, hquote, hstring⟩ := scanString_quote ascii f.1 (show (quote ascii f.1).length ≤ fuel + 1 by omega)
  refine ⟨cs ++ (':' :: colon ++ written f.2 ++ rest), ':' :: colon ++ written f.2 ++ rest,
    colon ++ (written f.2 ++ rest), ?_, hstring _, ?_, ?_⟩
  · rw [fieldText, hquote]
    simp
  · rw [List.cons_append, List.cons_append, List.append_assoc]
    rfl
  · have hvalue : skip (colon ++ (written f.2 ++ rest)) = written f.2 ++ rest := by
      obtain ⟨c, ds, hwritten, hc⟩ := hhead
      rw [skip_blank hcolon, hwritten]
      exact skip_leading hc _
    rw [hvalue]
    exact hscan fuel rest (by omega) hrest

/-- **The members of a mapping** are read from their texts. -/
theorem scanFields_texts {ascii : Bool} (hblanks : Blank blanks) (hcolon : Blank colon) (hclosing : Blank closing)
    {depth : ℕ} {f : String × Json} {fields : List (String × Json)}
    (hhead : ∀ g ∈ f :: fields, ∃ c cs, written g.2 = c :: cs ∧ leading c = true)
    (hscan : ∀ g ∈ f :: fields, Scans written depth g.2) {fuel : ℕ} (rest : List Char)
    (hfuel : 2 * ((',' :: blanks).intercalate ((f :: fields).map (fieldText ascii colon written))).length < fuel) :
    scanFields fuel depth ((',' :: blanks).intercalate ((f :: fields).map (fieldText ascii colon written)) ++
      (closing ++ '\x7d' :: rest)) = some (f :: fields, rest) := by
  induction fields generalizing f fuel with
  | nil =>
    obtain ⟨fuel, rfl⟩ : ∃ k, fuel = k + 1 := ⟨fuel - 1, by omega⟩
    simp only [List.map_cons, List.map_nil, List.intercalate_singleton] at hfuel ⊢
    have hstops : Stops (closing ++ '\x7d' :: rest) := stops_blank hclosing (by rintro c ⟨⟩; simp)
    obtain ⟨cs, key, item, htext, hkey, hitem, hvalue⟩ := scanFields_key ascii hcolon (hhead f (by simp))
      (hscan f (by simp)) (show _ ≤ fuel by omega) hstops
    rw [htext]
    refine scanFields_last hkey hitem hvalue ?_
    rw [skip_blank hclosing]
    rfl
  | cons g gs ih =>
    obtain ⟨fuel, rfl⟩ : ∃ k, fuel = k + 1 := ⟨fuel - 1, by omega⟩
    obtain ⟨hf, hscans⟩ := List.forall_mem_cons.mp hscan
    obtain ⟨hfirst, hheads⟩ := List.forall_mem_cons.mp hhead
    simp only [List.map_cons, List.intercalate_cons_cons, List.append_assoc, List.length_append,
      List.cons_append, List.length_cons] at hfuel ih ⊢
    have hleads : ∃ c cs, fieldText ascii colon written g = c :: cs ∧ leading c = true := ⟨'"', _, rfl, rfl⟩
    have hstops (cs : List Char) : Stops (',' :: cs) := by
      rintro c ⟨⟩
      simp
    obtain ⟨cs, key, item, htext, hkey, hitem, hvalue⟩ :=
      scanFields_key ascii hcolon hfirst hf (show _ ≤ fuel by omega) (hstops _)
    rw [htext, scanFields_more hkey hitem hvalue rfl, skip_blank hblanks, skip_intercalate hleads,
      ih hheads hscans (by omega)]
    rfl

/-- A number is read from its text. -/
theorem scans_number {depth : ℕ} {v : Json} (h : scanNumber (written v) = some (v, [])) : Scans written depth v := by
  intro fuel rest hfuel hrest
  obtain ⟨c, cs, hwritten, hc⟩ := scanNumber_head h
  obtain ⟨fuel, rfl⟩ : ∃ k, fuel = k + 1 := ⟨fuel - 1, by simp [hwritten] at hfuel; omega⟩
  have hscan := scanNumber_append hrest (written v)
  rw [h, hwritten] at hscan
  rw [hwritten, List.cons_append, scanValue_number hc]
  exact hscan

/-- A string is read from its literal. -/
theorem scans_str {ascii : Bool} {depth : ℕ} {s : String} (h : written (.str s) = quote ascii s) :
    Scans written depth (.str s) := by
  intro fuel rest hfuel _
  have hlength := length_le_quote ascii s
  rw [h] at hfuel ⊢
  obtain ⟨fuel, rfl⟩ : ∃ k, fuel = k + 1 := ⟨fuel - 1, by omega⟩
  obtain ⟨cs, hquote, hstring⟩ := scanString_quote ascii s (show (quote ascii s).length ≤ fuel + 1 by omega)
  rw [hquote, List.cons_append, scanValue, hstring]
  rfl

/-- A list is read from its text. -/
theorem scanValue_items (hblanks : Blank blanks) (hclosing : Blank closing) {opening : List Char}
    (hopening : Blank opening) {depth : ℕ} {x : Json} {items : List Json}
    (hscan : ∀ y ∈ x :: items, Scans written depth y)
    (hhead : ∀ y ∈ x :: items, ∃ c cs, written y = c :: cs ∧ leading c = true) {fuel : ℕ} (rest : List Char)
    (hfuel : 2 * ((',' :: blanks).intercalate ((x :: items).map written)).length < fuel) :
    scanValue (fuel + 1) (depth + 1) ('[' :: (opening ++
      ((',' :: blanks).intercalate ((x :: items).map written) ++ (closing ++ ']' :: rest)))) =
        some (.arr (x :: items), rest) := by
  obtain ⟨c, cs, hx, hc⟩ := hhead x (by simp)
  obtain ⟨tail, htail⟩ := intercalate_head (',' :: blanks) (written x) (items.map written)
  have hitems := scanItems_texts hblanks hclosing hhead hscan rest hfuel
  rw [List.map_cons, htail, hx, List.append_assoc, List.cons_append] at hitems ⊢
  have hskip := (skip_blank hopening _).trans
    (skip_leading hc (cs ++ (tail ++ (closing ++ ']' :: rest))))
  rw [scanValue_arr hskip (by rintro rfl; cases hc), hitems]
  rfl

/-- A mapping is read from its text. -/
theorem scanValue_fields (ascii : Bool) (hblanks : Blank blanks) (hcolon : Blank colon) (hclosing : Blank closing)
    {opening : List Char} (hopening : Blank opening) {depth : ℕ} {f : String × Json} {fields : List (String × Json)}
    (hkeys : ((f :: fields).map Prod.fst).Nodup)
    (hscan : ∀ g ∈ f :: fields, Scans written depth g.2)
    (hhead : ∀ g ∈ f :: fields, ∃ c cs, written g.2 = c :: cs ∧ leading c = true) {fuel : ℕ} (rest : List Char)
    (hfuel : 2 * ((',' :: blanks).intercalate ((f :: fields).map (fieldText ascii colon written))).length < fuel) :
    scanValue (fuel + 1) (depth + 1) ('\x7b' :: (opening ++
      ((',' :: blanks).intercalate ((f :: fields).map (fieldText ascii colon written)) ++
        (closing ++ '\x7d' :: rest)))) = some (.obj (f :: fields), rest) := by
  obtain ⟨tail, htail⟩ := intercalate_head (',' :: blanks) (fieldText ascii colon written f)
    (fields.map (fieldText ascii colon written))
  have hfields := scanFields_texts hblanks hcolon hclosing hhead hscan rest hfuel
  have hquote : ∃ cs, fieldText ascii colon written f = '"' :: cs := ⟨_, rfl⟩
  obtain ⟨cs, hf⟩ := hquote
  rw [List.map_cons, htail, hf, List.append_assoc, List.cons_append] at hfields ⊢
  have hskip := (skip_blank hopening _).trans
    (skip_leading (c := '"') rfl (cs ++ (tail ++ (closing ++ '\x7d' :: rest))))
  rw [scanValue_obj hskip (by decide), hfields, Option.bind_some, if_pos hkeys]

end Layout

omit [Platform] in
theorem prettyField_eq (indent level : ℕ) : prettyField indent level = fieldText true [' '] (pretty indent level) := by
  funext f
  simp [prettyField, fieldText]

/-- **A value is read back** from a text that goes on after it. -/
theorem Printable.scan {bound depth : ℕ} {v : Json} (h : Printable bound v) (hdepth : bound ≤ depth)
    (indent level : ℕ) : Scans (pretty indent level) depth v := by
  induction h generalizing depth level with
  | null =>
    intro fuel rest hfuel _
    obtain ⟨fuel, rfl⟩ : ∃ k, fuel = k + 1 := ⟨fuel - 1, by simp [pretty] at hfuel; omega⟩
    simp [pretty, scanValue]
  | bool b =>
    intro fuel rest hfuel _
    obtain ⟨fuel, rfl⟩ : ∃ k, fuel = k + 1 := ⟨fuel - 1, by cases b <;> simp [pretty] at hfuel <;> omega⟩
    cases b <;> simp [pretty, scanValue]
  | int h => exact scans_number (scanNumber_int h)
  | float h => exact scans_number h
  | str s => exact scans_str rfl
  | @arr bound items h ih =>
    intro fuel rest hfuel _
    obtain ⟨depth, rfl⟩ : ∃ k, depth = k + 1 := ⟨depth - 1, by omega⟩
    cases items with
    | nil =>
      simp only [pretty, List.length_cons] at hfuel
      obtain ⟨fuel, rfl⟩ : ∃ k, fuel = k + 1 := ⟨fuel - 1, by omega⟩
      rfl
    | cons x xs =>
      simp only [pretty, prettyItems_eq, List.cons_append, List.append_assoc, List.length_cons, List.length_append,
        List.nil_append] at hfuel ⊢
      obtain ⟨fuel, rfl⟩ : ∃ k, fuel = k + 1 := ⟨fuel - 1, by omega⟩
      have hscan : ∀ y ∈ x :: xs, Scans (pretty indent (level + 1)) depth y := fun y hy =>
        ih y hy (Nat.le_of_succ_le_succ hdepth) (level + 1)
      exact scanValue_items (blank_newline _ _) (blank_newline indent level) (blank_newline _ _)
        hscan (fun y hy => (h y hy).head indent (level + 1)) rest (by omega)
  | @obj bound fields hkeys h ih =>
    intro fuel rest hfuel _
    obtain ⟨depth, rfl⟩ : ∃ k, depth = k + 1 := ⟨depth - 1, by omega⟩
    cases fields with
    | nil =>
      simp only [pretty, List.length_cons] at hfuel
      obtain ⟨fuel, rfl⟩ : ∃ k, fuel = k + 1 := ⟨fuel - 1, by omega⟩
      rfl
    | cons f fs =>
      simp only [pretty, prettyFields_eq, prettyField_eq, List.cons_append, List.append_assoc, List.length_cons,
        List.length_append, List.nil_append] at hfuel ⊢
      obtain ⟨fuel, rfl⟩ : ∃ k, fuel = k + 1 := ⟨fuel - 1, by omega⟩
      have hcolon : Blank [' '] := by simp [Blank]
      have hscan : ∀ g ∈ f :: fs, Scans (pretty indent (level + 1)) depth g.2 := fun g hg =>
        ih g hg (Nat.le_of_succ_le_succ hdepth) (level + 1)
      exact scanValue_fields true (blank_newline _ _) hcolon (blank_newline indent level) (blank_newline _ _) hkeys
        hscan (fun g hg => (h g hg).head indent (level + 1)) rest (by omega)

/-- **`json.loads` inverts `json.dumps`**, of a value that is not nested too deep. -/
theorem Printable.loads_pretty {v : Json} (h : Printable Platform.nesting v) (indent : ℕ) :
    loads (pretty indent 0 v) = some v := by
  obtain ⟨c, cs, hpretty, hc⟩ := h.head indent 0
  have hskip : skip (pretty indent 0 v) = pretty indent 0 v := by
    rw [hpretty]
    exact skip_leading hc cs
  have hscan := h.scan le_rfl indent 0 (2 * (pretty indent 0 v).length + 1) [] (by omega) (by rintro c ⟨⟩)
  rw [List.append_nil] at hscan
  rw [loads, hskip, hscan]
  rfl

end Values

/-! ### Characters -/

/-- A character of a number. -/
def numberChar (c : Char) : Bool := isDigit c || c ∈ ['-', '+', '.', 'e', 'E']

/-- What is read are characters of a number, and the rest is left. -/
def Consumes (f : List Char → List Char × List Char) : Prop :=
  ∀ cs, (f cs).1 ++ (f cs).2 = cs ∧ ∀ c ∈ (f cs).1, numberChar c = true

theorem consumes_digits : Consumes fun cs => cs.span isDigit := by
  intro cs
  simp only [List.span_eq_takeWhile_dropWhile, List.takeWhile_append_dropWhile, true_and]
  intro c hc
  rw [numberChar, List.mem_takeWhile_imp hc, Bool.true_or]

theorem consumes_numberSign : Consumes numberSign := by
  intro cs
  by_cases h : cs.head? = some '-'
  · obtain ⟨ds, rfl⟩ : ∃ ds, cs = '-' :: ds := by simpa [List.head?_eq_some_iff] using h
    exact ⟨rfl, by simp [numberSign, numberChar]⟩
  · rw [numberSign_other h]
    exact ⟨rfl, by simp⟩

theorem consumes_wholeDigits : Consumes wholeDigits := by
  intro cs
  by_cases h : cs.head? = some '0'
  · obtain ⟨ds, rfl⟩ : ∃ ds, cs = '0' :: ds := by simpa [List.head?_eq_some_iff] using h
    exact ⟨rfl, by simp [wholeDigits, numberChar, isDigit]⟩
  · rw [wholeDigits_other h]
    exact consumes_digits cs

theorem consumes_fraction : Consumes fraction := by
  intro cs
  by_cases h : cs.head? = some '.'
  · obtain ⟨ds, rfl⟩ : ∃ ds, cs = '.' :: ds := by simpa [List.head?_eq_some_iff] using h
    have hread := consumes_digits ds
    simp only [fraction] at hread ⊢
    generalize ds.span isDigit = p at hread
    obtain ⟨_ | ⟨d, digits⟩, left⟩ := p
    · exact ⟨rfl, by simp⟩
    · exact ⟨congrArg ('.' :: ·) hread.1, List.forall_mem_cons.mpr ⟨rfl, hread.2⟩⟩
  · rw [fraction_other h]
    exact ⟨rfl, by simp⟩

theorem consumes_exponentSign : Consumes exponentSign := by
  intro cs
  rcases cs with _ | ⟨c, cs⟩
  · exact ⟨rfl, by simp [exponentSign]⟩
  · by_cases hplus : c = '+'
    · subst hplus
      exact ⟨rfl, by simp [exponentSign, numberChar]⟩
    by_cases hminus : c = '-'
    · subst hminus
      exact ⟨rfl, by simp [exponentSign, numberChar]⟩
    · have hother : exponentSign (c :: cs) = ([], c :: cs) := by
        rw [exponentSign] <;> simp [hplus, hminus]
      rw [hother]
      exact ⟨rfl, by simp⟩

theorem consumes_exponent : Consumes exponent := by
  intro cs
  by_cases h : ∀ c ∈ cs.head?, c ≠ 'e' ∧ c ≠ 'E'
  · rw [exponent_other h]
    exact ⟨rfl, by simp⟩
  · rcases cs with _ | ⟨e, cs⟩
    · simp at h
    · have he : e = 'e' ∨ e = 'E' := by simpa [not_and_or, imp_iff_not_or] using h
      have hletter : numberChar e = true := by rcases he with rfl | rfl <;> rfl
      obtain ⟨hsign, hsigns⟩ := consumes_exponentSign cs
      have hread := consumes_digits (exponentSign cs).2
      rw [exponent_cons he]
      simp only at hread
      generalize (exponentSign cs).2.span isDigit = p at hread
      obtain ⟨_ | ⟨d, digits⟩, left⟩ := p
      · exact ⟨rfl, by simp⟩
      · refine ⟨?_, List.forall_mem_cons.mpr ⟨hletter, List.forall_mem_append.mpr ⟨hsigns, hread.2⟩⟩⟩
        rw [← hread.1] at hsign
        simpa using hsign

/-- A number is written in its characters. -/
theorem scanNumber_chars [Platform] {cs : List Char} {v : Json} (h : scanNumber cs = some (v, [])) :
    ∀ c ∈ cs, numberChar c = true := by
  obtain ⟨hsign, hsigns⟩ := consumes_numberSign cs
  obtain ⟨hwhole, hdigits⟩ := consumes_wholeDigits (numberSign cs).2
  rw [scanNumber_eq] at h
  rcases hread : wholeDigits (numberSign cs).2 with ⟨_ | ⟨d, digits⟩, left⟩
  · rw [hread] at h
    cases h
  · obtain ⟨hfrac, hfracs⟩ := consumes_fraction left
    obtain ⟨hexp, hexps⟩ := consumes_exponent (fraction left).2
    rw [hread] at h hwhole hdigits
    have hrest : (exponent (fraction left).2).2 = [] := by
      simp only at h
      split_ifs at h <;> exact (Prod.mk.inj (Option.some.inj h)).2
    rw [hrest, List.append_nil] at hexp
    rw [← hsign, ← hwhole, ← hfrac, ← hexp]
    intro c hc
    simp only [List.mem_append] at hc
    rcases hc with hc | hc | hc | hc
    · exact hsigns c hc
    · exact hdigits c hc
    · exact hfracs c hc
    · exact hexps c hc

/-- A printable ASCII character. -/
def plainChar (c : Char) : Bool := 32 ≤ c.toNat && c.toNat ≤ 126

/-- A text of printable ASCII characters and of line feeds, each followed by a blank. -/
def indented : List Char → Bool
  | [] => true
  | c :: cs => (if c = '\n' then cs.head? == some ' ' else plainChar c) && indented cs

theorem indented_append {a b : List Char} (ha : indented a = true) (hb : indented b = true) :
    indented (a ++ b) = true := by
  induction a with
  | nil => exact hb
  | cons c a ih =>
    simp only [indented, Bool.and_eq_true] at ha
    rw [List.cons_append, indented, ih ha.2, Bool.and_true]
    have hc := ha.1
    split_ifs at hc ⊢ with hfeed
    · cases a with
      | nil => cases hc
      | cons d a => exact hc
    · exact hc

theorem indented_of_plain {cs : List Char} (h : ∀ c ∈ cs, plainChar c = true) : indented cs = true := by
  induction cs with
  | nil => rfl
  | cons c cs ih =>
    obtain ⟨hc, hcs⟩ := List.forall_mem_cons.mp h
    have hfeed : c ≠ '\n' := by
      rintro rfl
      cases hc
    rw [indented, if_neg hfeed, hc, ih hcs]
    rfl

theorem indented_cons {c : Char} {cs : List Char} (hc : plainChar c = true) (h : indented cs = true) :
    indented (c :: cs) = true :=
  indented_append (a := [c]) (indented_of_plain (by simpa using hc)) h

theorem indented_newline {indent level : ℕ} (h : 0 < indent * level) : indented (newline indent level) = true := by
  obtain ⟨n, hn⟩ : ∃ n, indent * level = n + 1 := ⟨indent * level - 1, by omega⟩
  have hblanks : indented (List.replicate (indent * level) ' ') = true := by
    refine indented_of_plain fun c hc => ?_
    rw [(List.mem_replicate.mp hc).2]
    rfl
  rw [newline, indented, if_pos rfl, hblanks, hn]
  rfl

theorem indented_intercalate {sep : List Char} (hsep : indented sep = true) {ts : List (List Char)}
    (h : ∀ t ∈ ts, indented t = true) : indented (sep.intercalate ts) = true := by
  induction ts with
  | nil => rfl
  | cons t ts ih =>
    obtain ⟨ht, hts⟩ := List.forall_mem_cons.mp h
    cases ts with
    | nil => simpa using ht
    | cons t' ts =>
      rw [List.intercalate_cons_cons]
      exact indented_append (indented_append ht hsep) (ih hts)

theorem plainChar_hexDigit (n : ℕ) : plainChar (hexDigit n) = true := by
  have h : ∀ d : Fin 16, plainChar (Nat.digitChar d) = true := by decide
  exact h ⟨n % 16, Nat.mod_lt _ (by decide)⟩

theorem plain_unicodeEscape (n : ℕ) : ∀ c ∈ unicodeEscape n, plainChar c = true := by
  simp [unicodeEscape, plainChar_hexDigit, show plainChar '\\' = true from rfl, show plainChar 'u' = true from rfl]

/-- The characters of a literal are printable. -/
theorem plain_escapeChar (c : Char) : ∀ d ∈ escapeChar true c, plainChar d = true := by
  have hslashed (d : Char) (hd : plainChar d = true) : ∀ e ∈ ['\\', d], plainChar e = true := by
    simp [hd, show plainChar '\\' = true from rfl]
  unfold escapeChar
  split_ifs with hquote hslash hfeed hreturn htab hback hform hcontrol hascii hplane
  · exact hslashed _ rfl
  · exact hslashed _ rfl
  · exact hslashed _ rfl
  · exact hslashed _ rfl
  · exact hslashed _ rfl
  · exact hslashed _ rfl
  · exact hslashed _ rfl
  · exact plain_unicodeEscape _
  · exact plain_unicodeEscape _
  · exact List.forall_mem_append.mpr ⟨plain_unicodeEscape _, plain_unicodeEscape _⟩
  · simp only [Bool.true_and, decide_eq_true_iff, not_le] at hascii
    intro d hd
    rw [List.mem_singleton.mp hd]
    simp only [plainChar, Bool.and_eq_true, decide_eq_true_iff]
    omega

theorem plain_quote (s : String) : ∀ c ∈ quote true s, plainChar c = true := by
  intro c hc
  simp only [quote, List.cons_append, List.mem_cons, List.mem_append, List.mem_flatMap, List.not_mem_nil,
    or_false] at hc
  rcases hc with rfl | ⟨d, -, hc⟩ | rfl
  · rfl
  · exact plain_escapeChar d c hc
  · rfl

theorem plain_number {c : Char} (h : numberChar c = true) : plainChar c = true := by
  simp only [numberChar, isDigit, Bool.or_eq_true, Bool.and_eq_true, decide_eq_true_iff, Char.le_def, List.mem_cons,
    List.not_mem_nil, or_false] at h
  rcases h with ⟨hlow, hhigh⟩ | rfl | rfl | rfl | rfl | rfl
  · have hl : 48 ≤ c.toNat := hlow
    have hh : c.toNat ≤ 57 := hhigh
    simp only [plainChar, Bool.and_eq_true, decide_eq_true_iff]
    omega
  all_goals rfl

/-- The texts of several values, one on each line. -/
theorem indented_lines {indent level : ℕ} (hlevel : 0 < indent * (level + 1)) {ts : List (List Char)}
    (h : ∀ t ∈ ts, indented t = true) :
    indented (newline indent (level + 1) ++ (',' :: newline indent (level + 1)).intercalate ts) = true :=
  indented_append (indented_newline hlevel) (indented_intercalate (indented_cons rfl (indented_newline hlevel)) h)

theorem indented_field {indent level : ℕ} {f : String × Json} (h : indented (pretty indent level f.2) = true) :
    indented (prettyField indent level f) = true :=
  indented_append (indented_of_plain (plain_quote f.1)) (indented_cons rfl (indented_cons rfl h))

/-- **The text of a value** inside of others has only indented lines. -/
theorem Printable.indented [Platform] {bound : ℕ} {v : Json} (h : Printable bound v) {indent level : ℕ}
    (hlevel : 0 < indent * level) : Json.indented (pretty indent level v) = true := by
  have hmore : 0 < indent * (level + 1) := by
    rw [Nat.mul_succ]
    omega
  induction h generalizing level with
  | null => rfl
  | bool b => cases b <;> rfl
  | int h => exact indented_of_plain fun c hc => plain_number (scanNumber_chars (scanNumber_int h) c hc)
  | float h => exact indented_of_plain fun c hc => plain_number (scanNumber_chars h c hc)
  | str s => exact indented_of_plain (plain_quote s)
  | @arr bound items h ih =>
    cases items with
    | nil => rfl
    | cons x xs =>
      rw [pretty, prettyItems_eq, List.cons_append]
      refine indented_append (indented_append (indented_cons rfl (indented_lines hmore fun t ht => ?_))
        (indented_newline hlevel)) rfl
      obtain ⟨y, hy, rfl⟩ := List.mem_map.mp ht
      exact ih y hy hmore (by rw [Nat.mul_succ]; omega)
  | @obj bound fields hkeys h ih =>
    cases fields with
    | nil => rfl
    | cons f fs =>
      rw [pretty, prettyFields_eq, List.cons_append]
      refine indented_append (indented_append (indented_cons rfl (indented_lines hmore fun t ht => ?_))
        (indented_newline hlevel)) rfl
      obtain ⟨g, hg, rfl⟩ := List.mem_map.mp ht
      exact indented_field (ih g hg hmore (by rw [Nat.mul_succ]; omega))

/-- **The text of a mapping**: a brace, indented lines, and a brace. -/
theorem Printable.framed [Platform] {bound : ℕ} {fields : List (String × Json)} (h : Printable bound (.obj fields))
    (hfields : fields ≠ []) {indent : ℕ} (hindent : 0 < indent) :
    ∃ body, pretty indent 0 (.obj fields) = '\x7b' :: '\n' :: body ++ ['\n', '\x7d'] ∧
      Json.indented ('\n' :: body) = true := by
  cases h with
  | @obj bound fields hkeys h =>
    obtain ⟨f, fs, rfl⟩ := List.exists_cons_of_ne_nil hfields
    have hlevel : 0 < indent * (0 + 1) := by omega
    have hlines : ∀ t ∈ (f :: fs).map (prettyField indent 1), Json.indented t = true := by
      intro t ht
      obtain ⟨g, hg, rfl⟩ := List.mem_map.mp ht
      exact indented_field ((h g hg).indented hlevel)
    refine ⟨_, ?_, indented_lines hlevel hlines⟩
    rw [pretty, prettyFields_eq]
    simp [newline]

end PayOps.Json
