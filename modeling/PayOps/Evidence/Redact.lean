import PayOps.Platform
import PayOps.Text.Substitution

/-!
# Redaction of texts

`redact_text` of `payops.evidence.redact`: two regular expressions, one after the other.

## The model

Each expression is a scanner: what is left of a text after a match at its start. Neither ever has to go
back: white space ends where something else begins, no keyword is the start of another, and an alternative of
`ASSIGNMENT` that fails has the next tried at the same place.

## What is proved

* `local_bearer`, `local_assignment` — a match depends on nothing behind it but the next character.
* `redact_text_quoted` — what is put in quotation marks behind a keyword is hidden, if neither expression
  finds a match that begins before the keyword and reaches it, and `BEARER` none that reaches the closing
  mark.
* `redact_text_bearer` — a secret whose last word follows `Bearer` is not hidden.
-/

namespace PayOps.Evidence

open Text

/-! ### Characters -/

/-- Letters in any case, as `(?i)` compares them with lower case ASCII letters. -/
def foldCase (c : Char) : Char :=
  if c = 'ſ' then 's' else if c = '\u212A' then 'k' else if c = 'İ' ∨ c = 'ı' then 'i' else c.toLower

/-- The class `\s`. -/
def reSpace (c : Char) : Bool := whiteSpace c || (0x1C ≤ c.val && c.val ≤ 0x1F)

/-- The class `[^\s,;]`. -/
def bare (c : Char) : Bool := !reSpace c && c != ',' && c != ';'

/-- What an assignment is replaced by, behind its keyword. -/
def redacted : List Char := "=[REDACTED]".toList

section Expressions

variable [Platform]

/-- The class `\w`. -/
def wordChar (c : Char) : Bool := if c.val < 128 then asciiWord c else Platform.reWord c

/-- `\b`, between the character before and what follows. -/
def boundary (prev : Option Char) (next : List Char) : Bool := prev.any wordChar != next.head?.any wordChar

/-- `BEARER`, with its replacement. -/
def bearer : Scanner Char := fun prev cs =>
  if boundary prev cs && "bearer".toList.isPrefixOf (cs.map foldCase) then
    let spaces := cs.drop 6
    let word := spaces.dropWhile reSpace
    let rest := word.dropWhile fun c => !reSpace c
    if word.length < spaces.length ∧ rest.length < word.length then
      some (rest, "Bearer [REDACTED]".toList)
    else none
  else none

/-- `password|secret|token|api[_-]?key`. -/
def keywords : List (List Char) :=
  ["password".toList, "secret".toList, "token".toList, "api_key".toList, "api-key".toList, "apikey".toList]

/-- The keyword at the start of a text. -/
def keyword (cs : List Char) : Option (List Char) := keywords.find? fun k => k.isPrefixOf (cs.map foldCase)

/-- `\s*[=:]\s*`. -/
def separator (cs : List Char) : Option (List Char) :=
  match cs.dropWhile reSpace with
  | '=' :: rest => some (rest.dropWhile reSpace)
  | ':' :: rest => some (rest.dropWhile reSpace)
  | _ => none

/-- `[^\s,;]+`. -/
def bareValue (cs : List Char) : Option (List Char) :=
  let rest := cs.dropWhile bare
  if rest.length < cs.length then some rest else none

/-- A value in marks, up to the next one. -/
def quotedValue (mark : Char) (cs : List Char) : Option (List Char) :=
  match cs with
  | c :: cs => if c = mark ∧ mark ∈ cs then some ((cs.dropWhile fun c => c != mark).drop 1) else none
  | [] => none

/-- `(?:"[^"]*"|'[^']*'|[^\s,;]+)`. -/
def assignedValue (cs : List Char) : Option (List Char) :=
  (quotedValue '"' cs).or ((quotedValue '\'' cs).or (bareValue cs))

/-- `ASSIGNMENT`, with its replacement. -/
def assignment : Scanner Char := fun prev cs => do
  let k ← if boundary prev cs then keyword cs else none
  let value ← separator (cs.drop k.length)
  let rest ← assignedValue value
  return (rest, cs.take k.length ++ redacted)

/-- `BEARER.sub("Bearer [REDACTED]", text)`. -/
def redactBearer (cs : List Char) : List Char := sub bearer none 0 cs

/-- `redact_text`. -/
def redactText (text : String) : String :=
  String.ofList (sub assignment none 0 (redactBearer text.toList))

end Expressions

/-! ### Keywords -/

/-- No keyword is the start of another. -/
theorem keywords_apart : ∀ k ∈ keywords, ∀ k' ∈ keywords, k <+: k' → k = k' := by decide

theorem keyword_mem {cs k : List Char} (h : keyword cs = some k) : k ∈ keywords ∧ k <+: cs.map foldCase := by
  unfold keyword at h
  have hstart := List.find?_some (p := fun k : List Char => k.isPrefixOf (cs.map foldCase)) h
  exact ⟨List.mem_of_find?_eq_some h, List.isPrefixOf_iff_prefix.mp hstart⟩

/-- **The keyword of a text** is the one that it starts with. -/
theorem keyword_eq_some {cs k : List Char} :
    keyword cs = some k ↔ k ∈ keywords ∧ k <+: cs.map foldCase := by
  constructor
  · exact keyword_mem
  · rintro ⟨hk, hstart⟩
    cases hfound : keyword cs with
    | none =>
      have := List.find?_eq_none.mp hfound k hk
      exact absurd (List.isPrefixOf_iff_prefix.mpr hstart) (by simpa using this)
    | some k' =>
      obtain ⟨hk', hstart'⟩ := keyword_mem hfound
      rcases List.prefix_or_prefix_of_prefix hstart hstart' with h | h
      · rw [keywords_apart k hk k' hk' h]
      · rw [keywords_apart k' hk' k hk h]

variable {xs ys ys' : List Char}

theorem startsWith_append {k : List Char} (hlen : k.length ≤ xs.length) :
    k <+: (xs ++ ys).map foldCase ↔ k <+: xs.map foldCase := by
  rw [List.map_append]
  constructor
  · intro h
    exact List.prefix_of_prefix_length_le h (List.prefix_append _ _) (by simpa using hlen)
  · exact fun h => h.trans (List.prefix_append _ _)

theorem keyword_local {k : List Char} (h : keyword (xs ++ ys) = some k) (hlen : k.length ≤ xs.length) :
    keyword (xs ++ ys') = some k := by
  obtain ⟨hk, hstart⟩ := keyword_eq_some.mp h
  exact keyword_eq_some.mpr ⟨hk, (startsWith_append hlen).mpr ((startsWith_append hlen).mp hstart)⟩

/-! ### Locality -/

/-- Neither kind of quotation mark is in the text. -/
def Unquoted (cs : List Char) : Prop := '"' ∉ cs ∧ '\'' ∉ cs

instance (cs : List Char) : Decidable (Unquoted cs) := inferInstanceAs (Decidable (_ ∧ _))

theorem separator_lt {cs rest : List Char} (h : separator cs = some rest) : rest.length < cs.length := by
  have hle := (List.dropWhile_suffix (l := cs) reSpace).length_le
  unfold separator at h
  split at h
  next r heq =>
    cases h
    rw [heq, List.length_cons] at hle
    have := (List.dropWhile_suffix (l := r) reSpace).length_le
    omega
  next r heq =>
    cases h
    rw [heq, List.length_cons] at hle
    have := (List.dropWhile_suffix (l := r) reSpace).length_le
    omega
  next => cases h

theorem separator_local {rest : List Char} (hhead : ys.head? = ys'.head?) (h : separator (xs ++ ys) = some rest)
    (hle : ys.length ≤ rest.length) :
    ∃ xs', xs' <:+ xs ∧ rest = xs' ++ ys ∧ separator (xs ++ ys') = some (xs' ++ ys') := by
  have hcase : ∃ s r, (s = '=' ∨ s = ':') ∧ (xs ++ ys).dropWhile reSpace = s :: r ∧ rest = r.dropWhile reSpace := by
    unfold separator at h
    split at h
    next r heq => exact ⟨'=', r, .inl rfl, heq, (Option.some.inj h).symm⟩
    next r heq => exact ⟨':', r, .inr rfl, heq, (Option.some.inj h).symm⟩
    next => cases h
  obtain ⟨s, r, hs, hskip, rfl⟩ := hcase
  have hr := (List.dropWhile_suffix (l := r) reSpace).length_le
  obtain ⟨heq, heq'⟩ := dropWhile_local (p := reSpace) xs hhead
    (by rw [hskip, List.length_cons]; omega)
  -- the separator stands in the first part
  rw [hskip] at heq
  obtain ⟨x, hx⟩ : ∃ x, xs.dropWhile reSpace = s :: x := by
    cases hxs : xs.dropWhile reSpace with
    | nil =>
      rw [hxs, List.nil_append] at heq
      rw [← heq, List.length_cons] at hle
      omega
    | cons y x =>
      rw [hxs, List.cons_append] at heq
      obtain ⟨rfl, -⟩ := List.cons.inj heq
      exact ⟨x, rfl⟩
  rw [hx, List.cons_append] at heq heq'
  obtain ⟨-, rfl⟩ := List.cons.inj heq
  obtain ⟨hrest, hrest'⟩ := dropWhile_local (p := reSpace) x hhead hle
  have hsuffix : x <:+ xs := (List.suffix_cons s x).trans (hx ▸ List.dropWhile_suffix _)
  refine ⟨x.dropWhile reSpace, (List.dropWhile_suffix _).trans hsuffix, hrest, ?_⟩
  unfold separator
  rcases hs with rfl | rfl
  · rw [heq']
    exact congrArg some hrest'
  · rw [heq']
    exact congrArg some hrest'

theorem bareValue_lt {cs rest : List Char} (h : bareValue cs = some rest) : rest.length < cs.length := by
  unfold bareValue at h
  simp only at h
  split_ifs at h with hlt
  exact Option.some.inj h ▸ hlt

theorem quotedValue_lt {mark : Char} {cs rest : List Char} (h : quotedValue mark cs = some rest) :
    rest.length < cs.length := by
  unfold quotedValue at h
  split at h
  next c cs =>
    split_ifs at h with hc
    rw [← Option.some.inj h, List.length_drop, List.length_cons]
    have := (List.dropWhile_suffix (l := cs) fun c => c != mark).length_le
    omega
  next => cases h

theorem assignedValue_lt {cs rest : List Char} (h : assignedValue cs = some rest) : rest.length < cs.length := by
  unfold assignedValue at h
  cases hdouble : quotedValue '"' cs with
  | some r =>
    rw [hdouble, Option.some_or] at h
    exact Option.some.inj h ▸ quotedValue_lt hdouble
  | none =>
    rw [hdouble, Option.none_or] at h
    cases hsingle : quotedValue '\'' cs with
    | some r =>
      rw [hsingle, Option.some_or] at h
      exact Option.some.inj h ▸ quotedValue_lt hsingle
    | none =>
      rw [hsingle, Option.none_or] at h
      exact bareValue_lt h

/-- A value that starts in a text without marks is a bare one. -/
theorem assignedValue_unquoted {x : Char} {cs : List Char} (hx : x ≠ '"' ∧ x ≠ '\'') :
    assignedValue (x :: cs) = bareValue (x :: cs) := by
  simp [assignedValue, quotedValue, hx]

theorem assignedValue_local {rest : List Char} (hxs : Unquoted xs) (hhead : ys.head? = ys'.head?)
    (h : assignedValue (xs ++ ys) = some rest) (hle : ys.length ≤ rest.length) :
    ∃ xs', rest = xs' ++ ys ∧ assignedValue (xs ++ ys') = some (xs' ++ ys') := by
  cases xs with
  | nil =>
    have := assignedValue_lt h
    rw [List.nil_append] at this
    omega
  | cons x xs =>
    have hx : x ≠ '"' ∧ x ≠ '\'' :=
      ⟨fun h => hxs.1 (h ▸ List.mem_cons_self), fun h => hxs.2 (h ▸ List.mem_cons_self)⟩
    have hlt := assignedValue_lt h
    rw [List.cons_append, assignedValue_unquoted hx, ← List.cons_append] at h ⊢
    unfold bareValue at h ⊢
    simp only at h ⊢
    split_ifs at h with hshort
    obtain rfl := Option.some.inj h
    obtain ⟨heq, heq'⟩ := dropWhile_local (p := bare) (x :: xs) hhead hle
    refine ⟨(x :: xs).dropWhile bare, heq, ?_⟩
    rw [heq, List.length_append, List.length_append] at hshort
    rw [heq', if_pos]
    rw [List.length_append, List.length_append]
    omega

section Matches

variable [Platform]

theorem boundary_local {prev : Option Char} (hhead : ys.head? = ys'.head?) :
    boundary prev (xs ++ ys) = boundary prev (xs ++ ys') := by
  rw [boundary, boundary, List.head?_append, List.head?_append, hhead]

/-- **A match of `ASSIGNMENT` that begins in a text without marks** and stays in it depends on nothing behind
the text but the next character. -/
theorem local_assignment : Local Unquoted assignment := by
  intro prev xs ys ys' rest text hxs hhead h _ hle
  unfold assignment at h ⊢
  rw [boundary_local hhead] at h
  by_cases hb : boundary prev (xs ++ ys') = true
  · simp only [hb, if_true, Option.bind_eq_bind, Option.bind_eq_some_iff, Option.pure_def,
      Option.some.injEq, Prod.mk.injEq] at h ⊢
    obtain ⟨k, hk, value, hvalue, rest, hrest, rfl, rfl⟩ := h
    have hlt := assignedValue_lt hrest
    have hlt' := separator_lt hvalue
    have hlen : k.length ≤ xs.length := by
      rw [List.length_drop, List.length_append] at hlt'
      omega
    rw [List.drop_append_of_le_length hlen] at hvalue
    obtain ⟨x, hx, rfl, hvalue'⟩ := separator_local hhead hvalue (by omega)
    have hmem : ∀ c ∈ x, c ∈ xs := fun c hc => List.mem_of_mem_drop (hx.subset hc)
    obtain ⟨x', rfl, hrest'⟩ := assignedValue_local ⟨fun h => hxs.1 (hmem _ h), fun h => hxs.2 (hmem _ h)⟩
      hhead hrest hle
    refine ⟨x', rfl, k, keyword_local hk hlen, x ++ ys', ?_, x' ++ ys', hrest', rfl, ?_⟩
    · rwa [List.drop_append_of_le_length hlen]
    · rw [List.take_append_of_le_length hlen, List.take_append_of_le_length hlen]
  · simp [hb] at h

theorem bearer_eq_some {prev : Option Char} {cs rest text : List Char} (h : bearer prev cs = some (rest, text)) :
    boundary prev cs = true ∧ "bearer".toList <+: cs.map foldCase ∧
      ((cs.drop 6).dropWhile reSpace).length < (cs.drop 6).length ∧
      rest = ((cs.drop 6).dropWhile reSpace).dropWhile (fun c => !reSpace c) ∧
      rest.length < ((cs.drop 6).dropWhile reSpace).length ∧ text = "Bearer [REDACTED]".toList := by
  unfold bearer at h
  simp only at h
  split_ifs at h with hstart hlen
  rw [Bool.and_eq_true] at hstart
  obtain ⟨rfl, rfl⟩ := Prod.mk.inj (Option.some.inj h)
  exact ⟨hstart.1, List.isPrefixOf_iff_prefix.mp hstart.2, hlen.1, rfl, hlen.2, rfl⟩

theorem bearer_of {prev : Option Char} {cs : List Char} (hboundary : boundary prev cs = true)
    (hstart : "bearer".toList <+: cs.map foldCase)
    (hspaces : ((cs.drop 6).dropWhile reSpace).length < (cs.drop 6).length)
    (hword : (((cs.drop 6).dropWhile reSpace).dropWhile (fun c => !reSpace c)).length <
      ((cs.drop 6).dropWhile reSpace).length) :
    bearer prev cs = some (((cs.drop 6).dropWhile reSpace).dropWhile (fun c => !reSpace c),
      "Bearer [REDACTED]".toList) := by
  unfold bearer
  simp only
  rw [if_pos, if_pos ⟨hspaces, hword⟩]
  rw [hboundary, Bool.true_and]
  exact List.isPrefixOf_iff_prefix.mpr hstart

/-- **A match of `BEARER` that stays in a text** depends on nothing behind it but the next character. -/
theorem local_bearer (ok : List Char → Prop) : Local ok bearer := by
  intro prev xs ys ys' rest text _ hhead h _ hle
  obtain ⟨hboundary, hstart, hspaces, rfl, hword, rfl⟩ := bearer_eq_some h
  have hlen : 6 ≤ xs.length := by
    rw [List.length_drop, List.length_append] at hspaces
    omega
  rw [List.drop_append_of_le_length hlen] at hspaces hword hle ⊢
  obtain ⟨hword₁, hword₂⟩ := dropWhile_local (p := reSpace) (xs.drop 6) hhead (by omega)
  rw [hword₁] at hspaces hword hle ⊢
  obtain ⟨hrest₁, hrest₂⟩ := dropWhile_local (p := fun c => !reSpace c)
    ((xs.drop 6).dropWhile reSpace) hhead hle
  rw [hrest₁] at hword ⊢
  refine ⟨_, rfl, ?_⟩
  have hboundary' : boundary prev (xs ++ ys') = true := boundary_local hhead ▸ hboundary
  have hstart' : "bearer".toList <+: (xs ++ ys').map foldCase :=
    (startsWith_append (k := "bearer".toList) hlen).mpr ((startsWith_append (k := "bearer".toList) hlen).mp hstart)
  rw [bearer_of hboundary' hstart']
  · rw [List.drop_append_of_le_length hlen, hword₂, hrest₂]
  · rw [List.drop_append_of_le_length hlen, hword₂]
    simp only [List.length_append] at hspaces ⊢
    omega
  · rw [List.drop_append_of_le_length hlen, hword₂, hrest₂]
    simp only [List.length_append] at hword ⊢
    omega

theorem progress_bearer : Progress bearer := by
  intro prev xs rest text h
  obtain ⟨-, -, hspaces, rfl, hword, -⟩ := bearer_eq_some h
  have := List.length_drop (i := 6) (l := xs)
  omega

/-- A match of `BEARER` ends at white space. -/
theorem passes_bearer {c : Char} (hc : reSpace c = false) : Passes bearer (c :: ys) := by
  intro prev xs rest text h hlen
  obtain ⟨-, -, -, rfl, -, -⟩ := bearer_eq_some h
  have hsuffix : ((((xs ++ c :: ys).drop 6).dropWhile reSpace).dropWhile fun c => !reSpace c) <:+
      xs ++ c :: ys :=
    (List.dropWhile_suffix _).trans ((List.dropWhile_suffix _).trans (List.drop_suffix _ _))
  have heq : ((((xs ++ c :: ys).drop 6).dropWhile reSpace).dropWhile fun c => !reSpace c) = c :: ys :=
    List.IsSuffix.eq_of_length (List.suffix_of_suffix_length_le hsuffix (List.suffix_append _ _) hlen.le) hlen
  exact dropWhile_ne (by simp [hc]) _ heq

/-- The replacement of `BEARER` has no quotation marks. -/
theorem bearer_text {prev : Option Char} {cs rest text : List Char} (h : bearer prev cs = some (rest, text)) :
    ∀ c ∈ text, c ≠ '"' ∧ c ≠ '\'' := by
  obtain ⟨-, -, -, -, -, rfl⟩ := bearer_eq_some h
  simp

/-- `BEARER` finds nothing where no `b` is. -/
theorem bearer_none {prev : Option Char} {c : Char} {cs : List Char} (hc : foldCase c ≠ 'b') :
    bearer prev (c :: cs) = none := by
  cases h : bearer prev (c :: cs) with
  | none => rfl
  | some m =>
    obtain ⟨rest, text⟩ := m
    obtain ⟨-, hstart, -⟩ := bearer_eq_some h
    rw [List.map_cons] at hstart
    obtain ⟨r, hr⟩ := hstart
    exact absurd (List.cons.inj hr).1.symm hc

/-! ### A value in quotation marks -/

omit [Platform] in
/-- White space has no letters. -/
theorem foldCase_space {c : Char} (h : reSpace c = true) : reSpace (foldCase c) = true := by
  unfold foldCase
  split_ifs with hlong hkelvin hdotted
  · subst hlong
    exact absurd h (by decide)
  · subst hkelvin
    exact absurd h (by decide)
  · rcases hdotted with rfl | rfl <;> exact absurd h (by decide)
  · have hsmall : ¬ (c.val ≥ 'A'.val ∧ c.val ≤ 'Z'.val) := by
      rintro ⟨hA, hZ⟩
      have hA' : 65 ≤ c.toNat := UInt32.le_iff_toNat_le.mp hA
      have hZ' : c.toNat ≤ 90 := UInt32.le_iff_toNat_le.mp hZ
      simp [reSpace, whiteSpace, UInt32.le_iff_toNat_le, ← UInt32.toNat_inj] at h
      omega
    rwa [Char.toLower, dif_neg hsmall]

omit [Platform] in
theorem keyword_char : ∀ k ∈ keywords, ∀ c ∈ k, c ≠ 'b' ∧ reSpace c = false := by
  intro k hk
  simp only [keywords, List.mem_cons, List.not_mem_nil, or_false] at hk
  rcases hk with rfl | rfl | rfl | rfl | rfl | rfl <;> · simp; decide

/-- What is assigned in quotation marks, and what follows. -/
def quoted (kw : List Char) (sep : Char) (v post : List Char) : List Char :=
  kw ++ sep :: '"' :: (v ++ '"' :: post)

section Quoted

variable {pre kw v post : List Char} {sep : Char}

theorem bearer_mark {prev : Option Char} {cs : List Char} : bearer prev ('"' :: cs) = none :=
  bearer_none (by decide)

omit [Platform] in
theorem quoted_plain (hkw : kw.map foldCase ∈ keywords) (hsep : sep = '=' ∨ sep = ':') :
    ∀ c ∈ kw ++ [sep, '"'], foldCase c ≠ 'b' := by
  intro c hc
  rcases List.mem_append.mp hc with hc | hc
  · exact (keyword_char _ hkw _ (List.mem_map_of_mem hc)).1
  · simp only [List.mem_cons, List.not_mem_nil, or_false] at hc
    rcases hc with rfl | rfl
    · rcases hsep with rfl | rfl <;> decide
    · decide

/-- **`BEARER` leaves the keyword, the separator and the marks**, if no match from before one of them reaches
it. -/
theorem sub_bearer_quoted (hkw : kw.map foldCase ∈ keywords) (hsep : sep = '=' ∨ sep = ':') {prev : Option Char}
    (hinside : overlap bearer (some '"') 0 v ('"' :: post) = 0) :
    sub bearer prev 0 (quoted kw sep v post) =
      quoted kw sep (emit bearer (some '"') 0 v ('"' :: post)) (sub bearer (some '"') 0 post) := by
  obtain ⟨hemit, hoverlap⟩ : emit bearer prev 0 (kw ++ [sep, '"']) (v ++ '"' :: post) = kw ++ [sep, '"'] ∧
      overlap bearer prev 0 (kw ++ [sep, '"']) (v ++ '"' :: post) = 0 :=
    emit_self fun _ c hc _ => bearer_none (quoted_plain hkw hsep c hc)
  have hlast : lastOf prev (kw ++ [sep, '"']) = some '"' := by simp [lastOf_eq]
  have hsplit : quoted kw sep v post = (kw ++ [sep, '"']) ++ (v ++ '"' :: post) := by simp [quoted]
  rw [hsplit, sub_append, hemit, hoverlap, hlast, sub_append, hinside, sub, bearer_mark]
  simp [quoted]

/-- **What is assigned in quotation marks is covered by one match** of `ASSIGNMENT`. -/
theorem sub_assignment_quoted (hkw : kw.map foldCase ∈ keywords) (hsep : sep = '=' ∨ sep = ':')
    {prev : Option Char} (hprev : boundary prev kw = true) (hv : '"' ∉ v) :
    sub assignment prev 0 (quoted kw sep v post) = kw ++ redacted ++ sub assignment (some '"') 0 post := by
  have hkeyword : keyword (quoted kw sep v post) = some (kw.map foldCase) :=
    keyword_eq_some.mpr ⟨hkw, by rw [quoted, List.map_append]; exact List.prefix_append _ _⟩
  have hseparator : separator (sep :: '"' :: (v ++ '"' :: post)) = some ('"' :: (v ++ '"' :: post)) := by
    have hs : reSpace sep = false := by rcases hsep with rfl | rfl <;> decide
    have hmark : ('"' :: (v ++ '"' :: post)).dropWhile reSpace = '"' :: (v ++ '"' :: post) :=
      List.dropWhile_cons_of_neg (by decide)
    unfold separator
    rw [List.dropWhile_cons_of_neg (by simp [hs])]
    rcases hsep with rfl | rfl
    · exact congrArg some hmark
    · exact congrArg some hmark
  have hvalue : assignedValue ('"' :: (v ++ '"' :: post)) = some post := by
    have hskip : (v ++ '"' :: post).dropWhile (fun c => c != '"') = '"' :: post := by
      rw [List.dropWhile_append_of_pos, List.dropWhile_cons_of_neg (by decide)]
      intro c hc
      exact bne_iff_ne.mpr fun h => hv (h ▸ hc)
    have hquoted : quotedValue '"' ('"' :: (v ++ '"' :: post)) = some post := by
      simp [quotedValue, hskip]
    rw [assignedValue, hquoted, Option.some_or]
  cases kw with
  | nil => exact absurd hkw (by decide)
  | cons c kw =>
    have hb : boundary prev (quoted (c :: kw) sep v post) = true := hprev
    have hmatch : assignment prev (quoted (c :: kw) sep v post) = some (post, (c :: kw) ++ redacted) := by
      unfold assignment
      rw [if_pos hb, hkeyword]
      simp only [Option.bind_eq_bind, Option.bind_some, List.length_map, Option.pure_def]
      rw [quoted, List.drop_left, hseparator, Option.bind_some, hvalue, Option.bind_some, List.take_left]
    have hcovered : (kw ++ sep :: '"' :: (v ++ '"' :: post)).length - post.length =
        (kw ++ [sep, '"'] ++ v ++ ['"']).length := by
      simp only [List.length_append, List.length_cons, List.length_nil]
      omega
    have hsplit : kw ++ sep :: '"' :: (v ++ '"' :: post) = (kw ++ [sep, '"'] ++ v ++ ['"']) ++ post := by simp
    have hlast : lastOf (some c) (kw ++ [sep, '"'] ++ v ++ ['"']) = some '"' := by
      rw [lastOf_append]
      rfl
    rw [quoted, List.cons_append] at hmatch ⊢
    rw [sub, hmatch]
    simp only
    rw [hcovered, hsplit, sub_covered, hlast]

/-- No expression disturbs an assignment in quotation marks. -/
structure Undisturbed (pre kw : List Char) (sep : Char) (v post : List Char) : Prop where
  /-- No match of `BEARER` from before the keyword reaches it. -/
  before : overlap bearer none 0 pre (quoted kw sep v post) = 0
  /-- No match of `BEARER` from before the closing mark reaches it. -/
  inside : overlap bearer none 0 (pre ++ kw ++ sep :: '"' :: v) ('"' :: post) = 0
  /-- In what `BEARER` leaves, no match of `ASSIGNMENT` from before the keyword reaches it. -/
  assigned : overlap assignment none 0 (emit bearer none 0 pre (quoted kw sep v post))
    (sub bearer (lastOf none pre) 0 (quoted kw sep v post)) = 0

/-- The match before the value cannot be told from one before another. -/
theorem inside_value (hkw : kw.map foldCase ∈ keywords) (hsep : sep = '=' ∨ sep = ':')
    (h : Undisturbed pre kw sep v post) : overlap bearer (some '"') 0 v ('"' :: post) = 0 := by
  have hsplit : pre ++ kw ++ sep :: '"' :: v = pre ++ ((kw ++ [sep, '"']) ++ v) := by simp
  have hlast : lastOf (lastOf none pre) (kw ++ [sep, '"']) = some '"' := by
    rw [lastOf_append]
    rfl
  have hbefore : (kw ++ [sep, '"']) ++ (v ++ '"' :: post) = quoted kw sep v post := by simp [quoted]
  have hinside := h.inside
  rw [hsplit, overlap_append, List.append_assoc, hbefore, h.before, overlap_append,
    (emit_self fun _ c hc _ => bearer_none (quoted_plain hkw hsep c hc)).2, hlast] at hinside
  exact hinside

/-- **What is redacted of an assignment in quotation marks**: the keyword stays, and what stands around. -/
theorem redact_quoted (hpre : Unquoted pre) (hboundary : boundary pre.getLast? kw = true)
    (hkw : kw.map foldCase ∈ keywords) (hsep : sep = '=' ∨ sep = ':') (hv : '"' ∉ v)
    (h : Undisturbed pre kw sep v post) :
    ∃ rest, rest.head? = kw.head? ∧
      overlap assignment none 0 (emit bearer none 0 pre (quoted kw sep v post)) rest = 0 ∧
      sub assignment none 0 (redactBearer (pre ++ quoted kw sep v post)) =
        emit assignment none 0 (emit bearer none 0 pre (quoted kw sep v post)) rest ++
          (kw ++ redacted ++ sub assignment (some '"') 0 (sub bearer (some '"') 0 post)) := by
  have hhead : ∃ c kw', kw = c :: kw' ∧ reSpace c = false := by
    cases kw with
    | nil => exact absurd hkw (by decide)
    | cons c kw' =>
      refine ⟨c, kw', rfl, ?_⟩
      by_contra hc
      have := foldCase_space (Bool.not_eq_false _ ▸ hc)
      rw [(keyword_char _ hkw _ List.mem_cons_self).2] at this
      cases this
  have hsub : sub bearer (lastOf none pre) 0 (quoted kw sep v post) =
      quoted kw sep (emit bearer (some '"') 0 v ('"' :: post)) (sub bearer (some '"') 0 post) :=
    sub_bearer_quoted hkw hsep (inside_value hkw hsep h)
  have hassigned := h.assigned
  rw [hsub] at hassigned
  refine ⟨_, ?_, hassigned, ?_⟩
  · obtain ⟨c, kw', rfl, -⟩ := hhead
    rfl
  · have hlast : (emit bearer none 0 pre (quoted kw sep v post)).getLast? = pre.getLast? := by
      cases pre with
      | nil => rfl
      | cons x pre =>
        obtain ⟨c, kw', rfl, hc⟩ := hhead
        exact getLast?_emit progress_bearer (passes_bearer hc) (Nat.succ_pos _) h.before
    have hvalue : '"' ∉ emit bearer (some '"') 0 v ('"' :: post) := by
      intro hmem
      refine emit_all (p := fun c => c ≠ '"') (fun c hc hq => hv (hq ▸ hc)) ?_ _ hmem rfl
      intro prev cs rest text hfind c hc
      exact (bearer_text hfind c hc).1
    have hprev : boundary (lastOf none (emit bearer none 0 pre (quoted kw sep v post))) kw = true := by
      rw [lastOf_eq, hlast, Option.or_none]
      exact hboundary
    rw [redactBearer, sub_append, h.before, hsub, sub_append, hassigned, sub_assignment_quoted hkw hsep hprev hvalue]

end Quoted

/-- **What is put in quotation marks behind a keyword is hidden**, where nothing disturbs it. -/
theorem redact_text_quoted {pre kw v₁ v₂ post : String} {sep : Char} (hpre : Unquoted pre.toList)
    (hboundary : boundary pre.toList.getLast? kw.toList = true) (hkw : kw.toList.map foldCase ∈ keywords)
    (hsep : sep = '=' ∨ sep = ':') (hv₁ : '"' ∉ v₁.toList) (hv₂ : '"' ∉ v₂.toList)
    (h₁ : Undisturbed pre.toList kw.toList sep v₁.toList post.toList)
    (h₂ : Undisturbed pre.toList kw.toList sep v₂.toList post.toList) :
    redactText (pre ++ kw ++ sep.toString ++ "\"" ++ v₁ ++ "\"" ++ post) =
      redactText (pre ++ kw ++ sep.toString ++ "\"" ++ v₂ ++ "\"" ++ post) := by
  have htext : ∀ v : String, (pre ++ kw ++ sep.toString ++ "\"" ++ v ++ "\"" ++ post).toList =
      pre.toList ++ quoted kw.toList sep v.toList post.toList := by
    intro v
    simp [quoted, Char.toString]
  obtain ⟨rest₁, hhead₁, hclear₁, heq₁⟩ := redact_quoted hpre hboundary hkw hsep hv₁ h₁
  obtain ⟨rest₂, hhead₂, hclear₂, heq₂⟩ := redact_quoted hpre hboundary hkw hsep hv₂ h₂
  have hfirst : (quoted kw.toList sep v₁.toList post.toList).head? =
      (quoted kw.toList sep v₂.toList post.toList).head? := by
    simp [quoted, List.head?_append]
  -- what stands before the keyword becomes the same
  have hemit := emit_congr (local_bearer fun _ => True) (fun _ _ _ => trivial) trivial hfirst h₁.before h₂.before
  rw [hemit] at hclear₁ heq₁
  have hplain : Unquoted (emit bearer none 0 pre.toList (quoted kw.toList sep v₂.toList post.toList)) := by
    have hmarks : ∀ c ∈ emit bearer none 0 pre.toList (quoted kw.toList sep v₂.toList post.toList),
        c ≠ '"' ∧ c ≠ '\'' := by
      refine emit_all (fun c hc => ⟨fun hq => hpre.1 (hq ▸ hc), fun hq => hpre.2 (hq ▸ hc)⟩) ?_
      exact fun _ _ _ _ hfind => bearer_text hfind
    exact ⟨fun hq => (hmarks _ hq).1 rfl, fun hq => (hmarks _ hq).2 rfl⟩
  have hbefore := emit_congr local_assignment
    (fun _ _ hok => ⟨fun hq => hok.1 (List.mem_cons_of_mem _ hq), fun hq => hok.2 (List.mem_cons_of_mem _ hq)⟩)
    hplain (hhead₁.trans hhead₂.symm) hclear₁ hclear₂
  rw [redactText, redactText, htext, htext, heq₁, heq₂, hbefore]

end Matches

/-! ### The word `Bearer` in a value -/

/-- Only ASCII characters in `\w`. -/
@[reducible] def textPlatform : Platform where
  sha256 _ := "0"
  patternWord _ := false
  reWord _ := false
  nesting := 64
  floatRepr text := text

attribute [local instance] textPlatform

/-- Values in quotation marks are hidden, as the test of quoted credentials has it. -/
theorem redact_text_quoted_words :
    redactText ("" ++ "password" ++ '='.toString ++ "\"" ++ "two word-secret-marker" ++ "\"" ++ "") =
      redactText ("" ++ "password" ++ '='.toString ++ "\"" ++ "other" ++ "\"" ++ "") := by
  refine redact_text_quoted ?_ ?_ ?_ (.inl rfl) ?_ ?_ ⟨?_, ?_, ?_⟩ ⟨?_, ?_, ?_⟩ <;> decide +kernel

/-- **A value whose last word follows `Bearer`** is not hidden: the closing mark goes with that word. -/
theorem redact_text_bearer :
    ¬ ∀ pre kw v₁ v₂ post : String, ∀ sep : Char, Unquoted pre.toList →
      boundary pre.toList.getLast? kw.toList = true → kw.toList.map foldCase ∈ keywords →
      (sep = '=' ∨ sep = ':') → '"' ∉ v₁.toList → '"' ∉ v₂.toList →
      redactText (pre ++ kw ++ sep.toString ++ "\"" ++ v₁ ++ "\"" ++ post) =
        redactText (pre ++ kw ++ sep.toString ++ "\"" ++ v₂ ++ "\"" ++ post) := by
  intro h
  have hsame := h "" "password" "correct horse Bearer x" "other" "" '=' (by decide) (by decide) (by decide +kernel)
    (.inl rfl) (by decide) (by decide)
  revert hsame
  decide +kernel

end PayOps.Evidence
