import PayOps.JsonNumerals
import PayOps.Evidence.SpanRecovery

/-!
# The nesting of a span's JSON

`_depth` of `payops.evidence.trace_span` before the decoder that it guards, `json.loads` with the hooks of
`_project`.

## The model

The decoder is written once more, because here it matters where it stops and not only what it returns. A scan
(`Scan`) tells the most containers that were open at once, up to the end of a value or to the first error, and
the value if there is one. Strings are their code points: an escape of a lone surrogate is read, as in Python.
`finite` is the test of `_float`, and `limit` is how deep the decoder may call itself. A fuel that is too small
is one more error; the results hold for every fuel.

## What is proved

* `decoder_bounded` — the scan of `_depth` bounds the decoder, and it fails on a value that is nested deeper
  only.
-/

namespace PayOps.Evidence.Trace

open Json

namespace Decoder

/-! ### The source -/

/-- A value that the decoder returns. -/
inductive Value where
  /-- `None`. -/
  | null
  /-- A boolean. -/
  | bool (b : Bool)
  /-- A number, by its numeral. -/
  | number (numeral : List Char)
  /-- A string, by its code points. -/
  | str (codes : List ℕ)
  /-- A list. -/
  | arr (items : List Value)
  /-- A mapping. -/
  | obj (fields : List (List ℕ × Value))

mutual

/-- How deep the containers of a value are nested. -/
def Value.nesting : Value → ℕ
  | .arr items => nestingItems items + 1
  | .obj fields => nestingFields fields + 1
  | _ => 0

/-- How deep the items of a list are nested. -/
def nestingItems : List Value → ℕ
  | [] => 0
  | x :: xs => max x.nesting (nestingItems xs)

/-- How deep the values of a mapping are nested. -/
def nestingFields : List (List ℕ × Value) → ℕ
  | [] => 0
  | (_, x) :: xs => max x.nesting (nestingFields xs)

end

/-- What follows `\u`: a code point, of which a pair of surrogates may be the escape. -/
def escapeCode (cs : List Char) : Option (ℕ × List Char) :=
  match hex4 cs with
  | none => none
  | some (high, rest) =>
    if 0xD800 ≤ high ∧ high < 0xDC00 then
      match rest with
      | '\\' :: 'u' :: low =>
        match hex4 low with
        | none => none
        | some (code, after) =>
          if 0xDC00 ≤ code ∧ code < 0xE000 then
            some (0x10000 + (high - 0xD800) * 0x400 + (code - 0xDC00), after)
          else some (high, rest)
      | _ => some (high, rest)
    else some (high, rest)

/-- The rest of a string literal, its code points so far in reverse. -/
def scanCodes : ℕ → List ℕ → List Char → Option (List ℕ × List Char)
  | 0, _, _ => none
  | _ + 1, _, [] => none
  | _ + 1, acc, '"' :: cs => some (acc.reverse, cs)
  | fuel + 1, acc, '\\' :: 'u' :: cs =>
    match escapeCode cs with
    | none => none
    | some (code, rest) => scanCodes fuel (code :: acc) rest
  | fuel + 1, acc, '\\' :: c :: cs =>
    match simpleEscape c with
    | none => none
    | some d => scanCodes fuel (d.toNat :: acc) cs
  | fuel + 1, acc, c :: cs =>
    if c.toNat < 32 ∨ c = '\\' then none else scanCodes fuel (c.toNat :: acc) cs

/-- The rest of a string literal. -/
def literal (cs : List Char) : Option (List ℕ × List Char) := scanCodes (cs.length + 1) [] cs

/-- A part of the parse. -/
structure Scan (α : Type) where
  /-- The most containers that were open at once. -/
  peak : ℕ
  /-- What was read and what follows it; none after an error. -/
  result : Option (α × List Char)

section Parse

variable (finite : List Char → Bool)

/-- Neither `int` nor `_float` refuses a numeral; an integer may have 4300 digits. -/
def accepted (whole tail : List Char) : Bool :=
  if tail = [] then decide ((whole.filter isDigit).length ≤ 4300) else finite (whole ++ tail)

/-- A number. -/
def scanNumeral (cs : List Char) : Option (Value × List Char) :=
  match numeral cs with
  | none => none
  | some (whole, tail) =>
    if accepted finite whole tail then some (.number (whole ++ tail), cs.drop (whole ++ tail).length) else none

mutual

/-- A value, where `k` containers are open. -/
def scanValue : ℕ → ℕ → ℕ → List Char → Scan Value
  | 0, _, k, _ => ⟨k, none⟩
  | _ + 1, _, k, '"' :: cs => ⟨k, (literal cs).map fun p => (.str p.1, p.2)⟩
  | fuel + 1, limit + 1, k, '{' :: cs =>
    match skip cs with
    | '}' :: rest => ⟨k + 1, some (.obj [], rest)⟩
    | cs =>
      let inner := scanFields fuel limit (k + 1) cs
      -- The hook sees the pairs when the brace is read.
      ⟨inner.peak, inner.result.bind fun p =>
        if (p.1.map Prod.fst).Nodup then some (.obj p.1, p.2) else none⟩
  | fuel + 1, limit + 1, k, '[' :: cs =>
    match skip cs with
    | ']' :: rest => ⟨k + 1, some (.arr [], rest)⟩
    | cs =>
      let inner := scanItems fuel limit (k + 1) cs
      ⟨inner.peak, inner.result.map fun p => (.arr p.1, p.2)⟩
  | _ + 1, _, k, 'n' :: 'u' :: 'l' :: 'l' :: cs => ⟨k, some (.null, cs)⟩
  | _ + 1, _, k, 't' :: 'r' :: 'u' :: 'e' :: cs => ⟨k, some (.bool true, cs)⟩
  | _ + 1, _, k, 'f' :: 'a' :: 'l' :: 's' :: 'e' :: cs => ⟨k, some (.bool false, cs)⟩
  | _ + 1, _, k, cs => ⟨k, scanNumeral finite cs⟩

/-- The items of a list that is not empty, up to its bracket. -/
def scanItems : ℕ → ℕ → ℕ → List Char → Scan (List Value)
  | 0, _, k, _ => ⟨k, none⟩
  | fuel + 1, limit, k, cs =>
    let first := scanValue fuel limit k cs
    match first.result with
    | none => ⟨first.peak, none⟩
    | some (item, rest) =>
      match skip rest with
      | ']' :: rest => ⟨first.peak, some ([item], rest)⟩
      | ',' :: rest =>
        let others := scanItems fuel limit k (skip rest)
        ⟨max first.peak others.peak, others.result.map fun p => (item :: p.1, p.2)⟩
      | _ => ⟨first.peak, none⟩

/-- The fields of a mapping that is not empty, up to its brace. -/
def scanFields : ℕ → ℕ → ℕ → List Char → Scan (List (List ℕ × Value))
  | 0, _, k, _ => ⟨k, none⟩
  | fuel + 1, limit, k, '"' :: cs =>
    match literal cs with
    | none => ⟨k, none⟩
    | some (key, rest) =>
      match skip rest with
      | ':' :: rest =>
        let first := scanValue fuel limit k (skip rest)
        match first.result with
        | none => ⟨first.peak, none⟩
        | some (item, rest) =>
          match skip rest with
          | '}' :: rest => ⟨first.peak, some ([(key, item)], rest)⟩
          | ',' :: rest =>
            let others := scanFields fuel limit k (skip rest)
            ⟨max first.peak others.peak, others.result.map fun p => ((key, item) :: p.1, p.2)⟩
          | _ => ⟨first.peak, none⟩
      | _ => ⟨k, none⟩
  | _ + 1, _, k, _ => ⟨k, none⟩

end

/-- `json.loads`, up to its end or to its first error. -/
def parse (fuel limit : ℕ) (text : List Char) : Scan Value := scanValue finite fuel limit 0 (skip text)

/-- `json.loads`; none where it raises. -/
def decode (fuel limit : ℕ) (text : List Char) : Option Value :=
  (parse finite fuel limit text).result.bind fun p => if skip p.2 = [] then some p.1 else none

end Parse

/-! ### Tokens -/

/-- The scan of `_depth` outside of a literal. -/
abbrev outside (depth : ℤ) (cs : List Char) : Except Fault Unit := depthScan depth false false cs

/-- The failure of the scan. -/
def tooDeep : Except Fault Unit := .error (.value "span JSON exceeds depth budget")

theorem outside_plain {c : Char} (h : c ∉ ['"', '[', '\x7b', ']', '\x7d']) (depth : ℤ) (cs : List Char) :
    outside depth (c :: cs) = outside depth cs := by
  have hpasses : Passes depth [c] := passes_plain (by simpa using h)
  exact hpasses cs

theorem outside_skip (depth : ℤ) (cs : List Char) : outside depth (skip cs) = outside depth cs := by
  induction cs with
  | nil => rfl
  | cons c cs ih =>
    unfold skip at ih ⊢
    rw [List.dropWhile_cons]
    split_ifs with hspace
    · have hplain : c ∉ ['"', '[', '\x7b', ']', '\x7d'] := by
        simp only [Bool.or_eq_true, beq_iff_eq] at hspace
        rcases hspace with ((rfl | rfl) | rfl) | rfl <;> decide
      rw [outside_plain hplain, ih]
    · rfl

theorem outside_open {c : Char} (h : c = '[' ∨ c = '\x7b') (depth : ℤ) (cs : List Char) :
    outside depth (c :: cs) = if 8 < depth + 1 then tooDeep else outside (depth + 1) cs := by
  rcases h with rfl | rfl <;> rfl

theorem outside_close {c : Char} (h : c = ']' ∨ c = '\x7d') (depth : ℤ) (cs : List Char) :
    outside depth (c :: cs) = outside (depth - 1) cs := by
  rcases h with rfl | rfl <;> rfl

theorem hex4_quoted {cs rest : List Char} {n : ℕ} (h : hex4 cs = some (n, rest)) (depth : ℤ) :
    depthScan depth true false cs = depthScan depth true false rest := by
  unfold hex4 at h
  split at h
  · rename_i a b c d cs
    obtain ⟨a', ha, h⟩ := Option.bind_eq_some_iff.mp h
    obtain ⟨b', hb, h⟩ := Option.bind_eq_some_iff.mp h
    obtain ⟨c', hc, h⟩ := Option.bind_eq_some_iff.mp h
    obtain ⟨d', hd, h⟩ := Option.bind_eq_some_iff.mp h
    obtain ⟨-, rfl⟩ := Prod.mk.inj (Option.some.inj h)
    have hquoted {c : Char} {n : ℕ} (hc : hexValue c = some n) (cs : List Char) :
        depthScan depth true false (c :: cs) = depthScan depth true false cs :=
      depthScan_quoted (hexValue_plain hc).2 (hexValue_plain hc).1 depth cs
    rw [hquoted ha, hquoted hb, hquoted hc, hquoted hd]
  · cases h

theorem escapeCode_quoted {cs rest : List Char} {n : ℕ} (h : escapeCode cs = some (n, rest)) (depth : ℤ) :
    depthScan depth true false cs = depthScan depth true false rest := by
  unfold escapeCode at h
  split at h
  · cases h
  · rename_i high after hhigh
    rw [hex4_quoted hhigh]
    split_ifs at h
    · split at h
      · rename_i low
        split at h
        · cases h
        · rename_i code after' hlow
          split_ifs at h
          · obtain ⟨-, rfl⟩ := Prod.mk.inj (Option.some.inj h)
            exact hex4_quoted hlow depth
          · obtain ⟨-, rfl⟩ := Prod.mk.inj (Option.some.inj h)
            rfl
      · obtain ⟨-, rfl⟩ := Prod.mk.inj (Option.some.inj h)
        rfl
    · obtain ⟨-, rfl⟩ := Prod.mk.inj (Option.some.inj h)
      rfl

/-- **A literal** ends for the scan where it ends for the decoder. -/
theorem scanCodes_quoted {fuel : ℕ} {acc codes : List ℕ} {cs rest : List Char}
    (h : scanCodes fuel acc cs = some (codes, rest)) (depth : ℤ) :
    depthScan depth true false cs = outside depth rest := by
  fun_induction scanCodes fuel acc cs with
  | case1 => cases h
  | case2 => cases h
  | case3 =>
    obtain ⟨-, rfl⟩ := Prod.mk.inj (Option.some.inj h)
    rfl
  | case4 => cases h
  | case5 fuel acc cs code after hcode ih =>
    have hescape : depthScan depth true false ('\\' :: 'u' :: cs) = depthScan depth true false cs := rfl
    rw [hescape, escapeCode_quoted hcode, ih h]
  | case6 => cases h
  | case7 fuel acc c cs _ d _ ih =>
    -- Whatever character is escaped, it is passed over.
    have hescape : depthScan depth true false ('\\' :: c :: cs) = depthScan depth true false cs := rfl
    rw [hescape, ih h]
  | case8 => cases h
  | case9 fuel acc c cs hquote hunicode hescape hplain ih =>
    rw [depthScan_quoted (fun hslash => hplain (.inr hslash)) hquote, ih h]

theorem literal_outside {codes : List ℕ} {cs rest : List Char} (h : literal cs = some (codes, rest)) (depth : ℤ) :
    outside depth ('"' :: cs) = outside depth rest :=
  scanCodes_quoted h depth

/-- A numeral has no bracket and no quote. -/
theorem numeral_plain {cs whole tail : List Char} (h : numeral cs = some (whole, tail)) :
    whole ++ tail ++ cs.drop (whole ++ tail).length = cs ∧ ∀ c ∈ whole ++ tail, numberChar c = true := by
  obtain ⟨hsign, hsigns⟩ := consumes_numberSign cs
  obtain ⟨hwhole, hdigits⟩ := consumes_wholeDigits (numberSign cs).2
  unfold numeral at h
  rcases hread : wholeDigits (numberSign cs).2 with ⟨_ | ⟨d, digits⟩, left⟩
  · simp [hread] at h
  · obtain ⟨hfrac, hfracs⟩ := consumes_fraction left
    obtain ⟨hexp, hexps⟩ := consumes_exponent (fraction left).2
    rw [hread] at h hwhole hdigits
    obtain ⟨rfl, rfl⟩ := Prod.mk.inj (Option.some.inj h)
    have hcs : (numberSign cs).1 ++ d :: digits ++ ((fraction left).1 ++ (exponent (fraction left).2).1) ++
        (exponent (fraction left).2).2 = cs := by
      simp only at hwhole
      rw [List.append_assoc, List.append_assoc, List.append_assoc, hexp, hfrac, hwhole, hsign]
    refine ⟨?_, ?_⟩
    · have hdrop := congrArg (List.drop ((numberSign cs).1 ++ d :: digits ++
        ((fraction left).1 ++ (exponent (fraction left).2).1)).length) hcs
      rw [List.drop_left] at hdrop
      rw [← hdrop, hcs]
    · simp only [List.mem_append]
      rintro c ((hc | hc) | hc | hc)
      exacts [hsigns c hc, hdigits c hc, hfracs c hc, hexps c hc]

theorem numberChar_plain {c : Char} (h : numberChar c = true) : c ∉ ['"', '[', '\x7b', ']', '\x7d'] := by
  simp only [List.mem_cons, List.not_mem_nil, or_false]
  rintro (rfl | rfl | rfl | rfl | rfl) <;> revert h <;> decide

section Parse

variable {finite : List Char → Bool}

theorem scanNumeral_outside {cs rest : List Char} {v : Value} (h : scanNumeral finite cs = some (v, rest))
    (depth : ℤ) : v.nesting = 0 ∧ outside depth cs = outside depth rest := by
  unfold scanNumeral at h
  split at h
  · cases h
  · rename_i whole tail hnumeral
    split_ifs at h
    obtain ⟨rfl, rfl⟩ := Prod.mk.inj (Option.some.inj h)
    obtain ⟨hcs, hchars⟩ := numeral_plain hnumeral
    have hpasses : Passes depth _ := passes_plain fun c hc => numberChar_plain (hchars c hc)
    have hscan := hpasses (cs.drop (whole ++ tail).length)
    rw [hcs] at hscan
    exact ⟨by simp [Value.nesting], hscan⟩

/-! ### Parts of the parse -/

/-- What a part of the parse of a text is to the scan, begun where `k` containers are open. -/
structure Tracks {α : Type} (k : ℕ) (cs : List Char) (left : ℤ) (height : α → ℕ) (s : Scan α) : Prop where
  /-- The containers that were open are those of the value. -/
  peak : ∀ a rest, s.result = some (a, rest) → s.peak = k + height a
  /-- The scan stops where there are too many. -/
  stops : k ≤ 8 → 8 < s.peak → outside k cs = tooDeep
  /-- Otherwise it comes as far as the decoder. -/
  within : s.peak ≤ 8 → ∀ a rest, s.result = some (a, rest) → outside k cs = outside left rest

section Tracks

variable {α β : Type} {k : ℕ} {cs : List Char} {left : ℤ} {height : α → ℕ}

/-- Nothing was opened. -/
theorem Tracks.flat {result : Option (α × List Char)}
    (h : ∀ a rest, result = some (a, rest) → height a = 0 ∧ outside k cs = outside left rest) :
    Tracks k cs left height ⟨k, result⟩ where
  peak a rest ha := by rw [(h a rest ha).1, Nat.add_zero]
  stops hk hover := absurd hover (by simpa using hk)
  within _ a rest ha := (h a rest ha).2

/-- An error after a part. -/
theorem Tracks.fail {s : Scan α} (h : Tracks k cs left height s) {left' : ℤ} {height' : β → ℕ} :
    Tracks k cs left' height' ⟨s.peak, none⟩ where
  peak _ _ ha := by cases ha
  stops := h.stops
  within _ _ _ ha := by cases ha

/-- A part with which nothing was opened or closed before it. -/
theorem Tracks.skipped {ds : List Char} {s : Scan α} (h : Tracks k ds left height s)
    (hscan : outside k cs = outside k ds) : Tracks k cs left height s where
  peak := h.peak
  stops hk hover := hscan.trans (h.stops hk hover)
  within hwithin a rest ha := hscan.trans (h.within hwithin a rest ha)

/-- The rest of the items after one. -/
theorem Tracks.more {γ : Type} {s : Scan γ} {t : Scan β} {item : γ} {rest ds : List Char} {one : γ → ℕ}
    {others : β → ℕ} {total : α → ℕ} {g : β → α} (hs : Tracks k cs k one s) (hresult : s.result = some (item, rest))
    (hrest : outside k rest = outside k ds) (ht : Tracks k ds left others t)
    (htotal : ∀ b, total (g b) = max (one item) (others b)) :
    Tracks k cs left total ⟨max s.peak t.peak, t.result.map fun p => (g p.1, p.2)⟩ where
  peak a rest' ha := by
    obtain ⟨⟨b, after⟩, hb, hbuild⟩ := Option.map_eq_some_iff.mp ha
    obtain ⟨rfl, rfl⟩ := Prod.mk.inj hbuild
    show max s.peak t.peak = _
    rw [hs.peak item rest hresult, ht.peak b after hb, htotal, Nat.add_max_add_left]
  stops hk hover := by
    by_cases hfirst : 8 < s.peak
    · exact hs.stops hk hfirst
    · have hothers : 8 < t.peak := by
        simp only [lt_max_iff] at hover
        omega
      rw [hs.within (by omega) item rest hresult, hrest]
      exact ht.stops hk hothers
  within hwithin a rest' ha := by
    obtain ⟨⟨b, after⟩, hb, hbuild⟩ := Option.map_eq_some_iff.mp ha
    obtain ⟨rfl, rfl⟩ := Prod.mk.inj hbuild
    simp only [max_le_iff] at hwithin
    rw [hs.within hwithin.1 item rest hresult, hrest]
    exact ht.within hwithin.2 b after hb

/-- A container that is opened before a part and closed with it. -/
theorem Tracks.opened {c : Char} (hc : c = '[' ∨ c = '\x7b') {ds : List Char} {s : Scan β} {inner : β → ℕ}
    (h : Tracks (k + 1) (skip ds) k inner s) {f : β × List Char → Option (α × List Char)}
    (hf : ∀ b rest a rest', f (b, rest) = some (a, rest') → rest' = rest ∧ height a = inner b + 1) :
    Tracks k (c :: ds) k height ⟨s.peak, s.result.bind f⟩ where
  peak a rest' ha := by
    obtain ⟨⟨b, rest⟩, hb, hbuild⟩ := Option.bind_eq_some_iff.mp ha
    rw [(hf b rest a rest' hbuild).2]
    show s.peak = _
    rw [h.peak b rest hb]
    omega
  stops hk hover := by
    rw [outside_open hc]
    split_ifs with hdeep
    · rfl
    · have hopen : k + 1 ≤ 8 := by omega
      rw [← outside_skip]
      exact h.stops hopen hover
  within hwithin a rest' ha := by
    obtain ⟨⟨b, rest⟩, hb, hbuild⟩ := Option.bind_eq_some_iff.mp ha
    obtain ⟨rfl, -⟩ := hf b rest a rest' hbuild
    have hpeak := h.peak b rest' hb
    have hshallow : ¬ 8 < (k : ℤ) + 1 := by
      simp only at hwithin
      omega
    rw [outside_open hc, if_neg hshallow, ← outside_skip]
    exact h.within hwithin b rest' hb

end Tracks

/-- What the scan has to do with a value. -/
def TracksValue (finite : List Char → Bool) (fuel : ℕ) : Prop :=
  ∀ limit k cs, Tracks k cs k Value.nesting (scanValue finite fuel limit k cs)

/-- The same of the items of a list, which is closed after them. -/
def TracksItems (finite : List Char → Bool) (fuel : ℕ) : Prop :=
  ∀ limit k cs, Tracks (k + 1) cs k nestingItems (scanItems finite fuel limit (k + 1) cs)

/-- The same of the fields of a mapping. -/
def TracksFields (finite : List Char → Bool) (fuel : ℕ) : Prop :=
  ∀ limit k cs, Tracks (k + 1) cs k nestingFields (scanFields finite fuel limit (k + 1) cs)

/-- An error before anything is opened. -/
theorem tracks_none {α : Type} {k : ℕ} {cs : List Char} {left : ℤ} {height : α → ℕ} :
    Tracks k cs left height ⟨k, none⟩ :=
  .flat fun _ _ h => by cases h

/-- The end of a container. -/
theorem outside_closed {c : Char} (hc : c = ']' ∨ c = '\x7d') {k : ℕ} {cs rest : List Char}
    (h : skip cs = c :: rest) : outside ((k + 1 : ℕ) : ℤ) cs = outside k rest := by
  rw [← outside_skip, h, outside_close hc]
  congr 1
  omega

/-- A separator between the parts of a container. -/
theorem outside_separator {c : Char} (hc : c = ',' ∨ c = ':') {depth : ℤ} {cs rest : List Char}
    (h : skip cs = c :: rest) : outside depth cs = outside depth (skip rest) := by
  rw [outside_skip, ← outside_skip depth cs, h]
  rcases hc with rfl | rfl <;> rfl

/-- A container that is closed at once. -/
theorem tracks_closed {c : Char} (hc : c = ']' ∨ c = '\x7d') {k : ℕ} {cs rest : List Char}
    (h : skip cs = c :: rest) : Tracks (k + 1) (skip cs) k (fun _ : Unit => 0) ⟨k + 1, some ((), rest)⟩ := by
  refine .flat fun _ _ hresult => ⟨rfl, ?_⟩
  cases hresult
  rw [outside_skip, outside_closed hc h]

theorem TracksValue.step {fuel : ℕ} (hitems : TracksItems finite fuel) (hfields : TracksFields finite fuel) :
    TracksValue finite (fuel + 1) := by
  intro limit k cs
  unfold scanValue
  split
  · exact tracks_none
  · refine .flat fun v rest h => ?_
    obtain ⟨⟨codes, after⟩, hliteral, hbuild⟩ := Option.map_eq_some_iff.mp h
    obtain ⟨rfl, rfl⟩ := Prod.mk.inj hbuild
    exact ⟨by simp [Value.nesting], literal_outside hliteral _⟩
  · rename_i hfuel
    obtain rfl := Nat.succ.inj hfuel
    split
    · rename_i rest hskip
      refine (tracks_closed (.inr rfl) hskip).opened (.inr rfl) (f := fun p => some (Value.obj [], p.2))
        fun _ _ v rest' h => ?_
      cases h
      exact ⟨rfl, by simp [Value.nesting, nestingFields]⟩
    · refine (hfields _ _ (skip _)).opened (.inr rfl) fun fields after v rest' h => ?_
      simp only at h
      split_ifs at h
      cases h
      exact ⟨rfl, by simp [Value.nesting]⟩
  · rename_i hfuel
    obtain rfl := Nat.succ.inj hfuel
    split
    · rename_i rest hskip
      refine (tracks_closed (.inl rfl) hskip).opened (.inl rfl) (f := fun p => some (Value.arr [], p.2))
        fun _ _ v rest' h => ?_
      cases h
      exact ⟨rfl, by simp [Value.nesting, nestingItems]⟩
    · simp only [Option.map_eq_bind, Function.comp_def]
      refine (hitems _ _ (skip _)).opened (.inl rfl) fun items after v rest' h => ?_
      cases h
      exact ⟨rfl, by simp [Value.nesting]⟩
  · refine .flat fun v rest h => ?_
    cases h
    exact ⟨by simp [Value.nesting], rfl⟩
  · refine .flat fun v rest h => ?_
    cases h
    exact ⟨by simp [Value.nesting], rfl⟩
  · refine .flat fun v rest h => ?_
    cases h
    exact ⟨by simp [Value.nesting], rfl⟩
  · exact .flat fun v rest h => scanNumeral_outside h _

theorem TracksItems.step {fuel : ℕ} (hvalue : TracksValue finite fuel) (hitems : TracksItems finite fuel) :
    TracksItems finite (fuel + 1) := by
  intro limit k cs
  have hfirst := hvalue limit (k + 1) cs
  unfold scanItems
  simp only
  split
  · exact hfirst.fail
  · rename_i item rest hitem
    split
    · rename_i last hskip
      exact {
        peak := fun items rest' h => by
          cases h
          simp [hfirst.peak item rest hitem, nestingItems]
        stops := hfirst.stops
        within := fun hwithin items rest' h => by
          cases h
          rw [hfirst.within hwithin item rest hitem, outside_closed (.inl rfl) hskip] }
    · rename_i more hskip
      exact hfirst.more (g := (item :: ·)) hitem (outside_separator (.inl rfl) hskip) (hitems limit k (skip more))
        fun items => by simp [nestingItems]
    · exact hfirst.fail

theorem TracksFields.step {fuel : ℕ} (hvalue : TracksValue finite fuel) (hfields : TracksFields finite fuel) :
    TracksFields finite (fuel + 1) := by
  intro limit k cs
  unfold scanFields
  split
  · exact tracks_none
  · rename_i hfuel
    obtain rfl := Nat.succ.inj hfuel
    split
    · exact tracks_none
    · rename_i key after hkey
      have hliteral := literal_outside hkey ((k + 1 : ℕ) : ℤ)
      split
      · rename_i value hcolon
        have hfirst (limit : ℕ) := hvalue limit (k + 1) (skip value)
        refine Tracks.skipped ?_ (hliteral.trans (outside_separator (.inr rfl) hcolon))
        simp only
        split
        · exact (hfirst _).fail
        · rename_i item rest hitem
          split
          · rename_i last hskip
            exact {
              peak := fun fields rest' h => by
                cases h
                simp [(hfirst _).peak item rest hitem, nestingFields]
              stops := (hfirst _).stops
              within := fun hwithin fields rest' h => by
                cases h
                rw [(hfirst _).within hwithin item rest hitem, outside_closed (.inr rfl) hskip] }
          · rename_i more hskip
            exact (hfirst _).more (g := ((key, item) :: ·)) hitem (outside_separator (.inl rfl) hskip)
              (hfields _ k (skip more)) fun fields => by simp [nestingFields]
          · exact (hfirst _).fail
      · exact tracks_none
  · exact tracks_none

theorem tracks (fuel : ℕ) : TracksValue finite fuel ∧ TracksItems finite fuel ∧ TracksFields finite fuel := by
  induction fuel with
  | zero =>
    refine ⟨fun limit k cs => ?_, fun limit k cs => ?_, fun limit k cs => ?_⟩
    · rw [scanValue]
      exact tracks_none
    · rw [scanItems]
      exact tracks_none
    · rw [scanFields]
      exact tracks_none
  | succ fuel ih =>
    obtain ⟨hvalue, hitems, hfields⟩ := ih
    exact ⟨.step hitems hfields, .step hvalue hitems, .step hvalue hfields⟩

/-- The whole parse. -/
theorem tracks_parse (fuel limit : ℕ) (text : List Char) :
    Tracks 0 text 0 Value.nesting (parse finite fuel limit text) :=
  ((tracks fuel).1 limit 0 (skip text)).skipped (outside_skip 0 text).symm

/-- **The depth scanner bounds the decoder.** Where it accepts a text, the parse has at most eight containers
open up to its end or its first error; on a text that is decoded it fails if and only if the value is nested
deeper; and what is inside of a string is not counted. -/
theorem decoder_bounded (finite : List Char → Bool) (fuel limit : ℕ) (text : List Char) :
    (depthScan 0 false false text = .ok () → (parse finite fuel limit text).peak ≤ 8) ∧
      (∀ v, decode finite fuel limit text = some v →
        ((∃ e, depthScan 0 false false text = .error e) ↔ 8 < v.nesting)) ∧
      ∀ depth cs codes rest, literal cs = some (codes, rest) →
        depthScan depth false false ('"' :: cs) = depthScan depth false false rest := by
  have h : Tracks 0 text 0 Value.nesting (parse finite fuel limit text) := tracks_parse fuel limit text
  refine ⟨fun hok => ?_, fun v hv => ?_, fun depth cs codes rest hliteral => literal_outside hliteral depth⟩
  · by_contra hpeak
    have hdeep := h.stops (Nat.zero_le 8) (by omega)
    exact absurd (hok.symm.trans hdeep) (by simp [tooDeep])
  · obtain ⟨⟨value, rest⟩, hresult, hv⟩ := Option.bind_eq_some_iff.mp hv
    simp only at hv
    split_ifs at hv with hrest
    cases hv
    have hpeak := h.peak v rest hresult
    rw [Nat.zero_add] at hpeak
    constructor
    · rintro ⟨e, he⟩
      by_contra hshallow
      have hscan := h.within (by omega) v rest hresult
      rw [← outside_skip 0 rest, hrest] at hscan
      exact absurd (he.symm.trans hscan) (by simp [depthScan])
    · intro hdeep
      exact ⟨_, h.stops (Nat.zero_le 8) (by omega)⟩

/-- The brackets of a key are not counted. -/
example : (decode (fun _ => true) 50 50 "[\x7b\"[\\u005b\\\"\": [-1.5e3, null]\x7d]".toList).map Value.nesting = some 3 := by
  decide +kernel

end Parse

end Decoder

end PayOps.Evidence.Trace
