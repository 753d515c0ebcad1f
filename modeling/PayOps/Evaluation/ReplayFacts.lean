import PayOps.Faults
import PayOps.JsonPatch

/-!
# Source pointers of replayed facts

`at_pointer` of `payops.evaluation.replay_facts`.

## The model

A path has a key for each mapping and an index for each list it goes through (`Step`). Its encoding is that
of RFC 6901: every token follows a slash, a tilde in it is written `~0` and a slash `~1`. The source undoes
this by two replacements in the whole of a part, which `unescape` keeps apart (`str.replace` of two different
characters, `replacePair`). An index of more than 4300 digits, which Python's `int` refuses, is beyond every
list, so that only the class of the error differs.

## What is proved

* `at_pointer_exact` — a path that exists is followed by its encoding, and a pointer on which `at_pointer`
  returns is the encoding of the one path it follows.
-/

namespace PayOps.Evaluation

open Json

/-! ### The source -/

/-- `re.search("~(?![01])", part)`. -/
def badEscape : List Char → Bool
  | '~' :: '0' :: cs => badEscape cs
  | '~' :: '1' :: cs => badEscape cs
  | '~' :: _ => true
  | _ :: cs => badEscape cs
  | [] => false

/-- `text.replace(a + b, out)`, for two characters. -/
def replacePair (a b out : Char) : List Char → List Char
  | x :: y :: cs => if x = a ∧ y = b then out :: replacePair a b out cs else x :: replacePair a b out (y :: cs)
  | cs => cs

/-- `part.replace("~1", "/").replace("~0", "~")`. -/
def unescape (part : List Char) : List Char := replacePair '~' '0' '~' (replacePair '~' '1' '/' part)

/-- The value that a token refers to. -/
def follow (value : Json) (key : String) : Except Fault Json :=
  match value with
  | .obj fields =>
    match field fields key with
    | some x => .ok x
    | none => .error (.key key)
  | .arr items =>
    match arrayIndex key with
    | some i =>
      match items[i]? with
      | some x => .ok x
      | none => .error (.other "IndexError")
    | none => .error (.value "source pointer does not resolve")
  | _ => .error (.value "source pointer does not resolve")

/-- The loop over the parts of a pointer. -/
def atParts (value : Json) : List (List Char) → Except Fault Json
  | [] => .ok value
  | part :: parts =>
    if badEscape part then .error (.value "invalid pointer escape")
    else
      match follow value (String.ofList (unescape part)) with
      | .ok value => atParts value parts
      | .error e => .error e

/-- `at_pointer`. -/
def atPointer (value : Json) (pointer : String) : Except Fault Json :=
  match pointer.toList with
  | [] => .ok value
  | c :: cs =>
    if c = '/' then atParts value (cs.splitOn '/') else .error (.value "invalid source pointer")

/-! ### Paths -/

/-- A step of a path. -/
inductive Step where
  /-- To the value of a key. -/
  | key (k : String)
  /-- To an item of a list. -/
  | index (i : ℕ)

/-- The reference token of a step. -/
def Step.token : Step → String
  | key k => k
  | index i => i.repr

/-- The path leads from a value to another. -/
inductive Resolves : Json → List Step → Json → Prop where
  /-- The empty path leads nowhere else. -/
  | nil (x : Json) : Resolves x [] x
  /-- Through a member of a mapping. -/
  | key {fields : JsonObject} {k : String} {x y : Json} {path : List Step} :
      field fields k = some x → Resolves x path y → Resolves (.obj fields) (.key k :: path) y
  /-- Through an item of a list. -/
  | index {items : List Json} {i : ℕ} {x y : Json} {path : List Step} :
      items[i]? = some x → Resolves x path y → Resolves (.arr items) (.index i :: path) y

/-- A character as RFC 6901 writes it. -/
def escapeChar (c : Char) : List Char :=
  if c = '~' then ['~', '0'] else if c = '/' then ['~', '1'] else [c]

/-- A token as RFC 6901 writes it. -/
def escape (cs : List Char) : List Char := cs.flatMap escapeChar

/-- The JSON pointer of a path. -/
def encode (path : List Step) : String :=
  String.ofList (path.flatMap fun s => '/' :: escape s.token.toList)

/-! ### Escapes -/

section Replace

variable {a b out : Char}

theorem replacePair_pair (cs : List Char) : replacePair a b out (a :: b :: cs) = out :: replacePair a b out cs := by
  simp [replacePair]

theorem replacePair_of_ne {c : Char} (h : c ≠ a) (cs : List Char) :
    replacePair a b out (c :: cs) = c :: replacePair a b out cs := by
  cases cs <;> simp [replacePair, h]

theorem replacePair_other {c : Char} (h : c ≠ b) (cs : List Char) :
    replacePair a b out (a :: c :: cs) = a :: replacePair a b out (c :: cs) := by
  simp [replacePair, h]

end Replace

@[simp] theorem unescape_nil : unescape [] = [] := rfl

@[simp] theorem unescape_slash (cs : List Char) : unescape ('~' :: '1' :: cs) = '/' :: unescape cs := by
  rw [unescape, replacePair_pair, replacePair_of_ne (by decide)]
  rfl

@[simp] theorem unescape_tilde (cs : List Char) : unescape ('~' :: '0' :: cs) = '~' :: unescape cs := by
  -- The first replacement leaves both characters, whatever follows them.
  have hfirst : replacePair '~' '1' '/' ('~' :: '0' :: cs) = '~' :: '0' :: replacePair '~' '1' '/' cs := by
    rw [replacePair_other (by decide), replacePair_of_ne (by decide)]
  rw [unescape, hfirst, replacePair_pair]
  rfl

theorem unescape_plain {c : Char} (h : c ≠ '~') (cs : List Char) : unescape (c :: cs) = c :: unescape cs := by
  rw [unescape, replacePair_of_ne h, replacePair_of_ne h]
  rfl

@[simp] theorem escape_nil : escape [] = [] := rfl

@[simp] theorem escape_cons (c : Char) (cs : List Char) : escape (c :: cs) = escapeChar c ++ escape cs := rfl

theorem escapeChar_cases (c : Char) :
    (c = '~' ∧ escapeChar c = ['~', '0']) ∨ (c = '/' ∧ escapeChar c = ['~', '1']) ∨
      (c ≠ '~' ∧ c ≠ '/' ∧ escapeChar c = [c]) := by
  by_cases htilde : c = '~'
  · exact .inl ⟨htilde, by simp [escapeChar, htilde]⟩
  · by_cases hslash : c = '/'
    · exact .inr (.inl ⟨hslash, by simp [escapeChar, hslash]⟩)
    · exact .inr (.inr ⟨htilde, hslash, by simp [escapeChar, htilde, hslash]⟩)

theorem unescape_escape (cs : List Char) : unescape (escape cs) = cs := by
  induction cs with
  | nil => rfl
  | cons c cs ih =>
    obtain ⟨rfl, h⟩ | ⟨rfl, h⟩ | ⟨htilde, -, h⟩ := escapeChar_cases c
    · simp [h, ih]
    · simp [h, ih]
    · simp [h, unescape_plain htilde, ih]

theorem badEscape_plain {c : Char} (h : c ≠ '~') (cs : List Char) : badEscape (c :: cs) = badEscape cs := by
  rw [badEscape] <;> simp [h]

theorem badEscape_escape (cs : List Char) : badEscape (escape cs) = false := by
  induction cs with
  | nil => rfl
  | cons c cs ih =>
    obtain ⟨rfl, h⟩ | ⟨rfl, h⟩ | ⟨htilde, -, h⟩ := escapeChar_cases c
    · simp [h, badEscape, ih]
    · simp [h, badEscape, ih]
    · simp [h, badEscape_plain htilde, ih]

theorem slash_not_mem_escape (cs : List Char) : '/' ∉ escape cs := by
  induction cs with
  | nil => simp
  | cons c cs ih =>
    obtain ⟨rfl, h⟩ | ⟨rfl, h⟩ | ⟨-, hslash, h⟩ := escapeChar_cases c
    · simp [h, ih]
    · simp [h, ih]
    · simp [h, ih, Ne.symm hslash]

theorem escape_unescape (cs : List Char) (hbad : badEscape cs = false) (hslash : '/' ∉ cs) :
    escape (unescape cs) = cs := by
  fun_induction badEscape cs with
  | case1 cs ih =>
    simp only [List.mem_cons, not_or] at hslash
    simp [escapeChar, ih hbad hslash.2.2]
  | case2 cs ih =>
    simp only [List.mem_cons, not_or] at hslash
    simp [escapeChar, ih hbad hslash.2.2]
  | case3 => cases hbad
  | case4 c cs _ _ htilde ih =>
    simp only [List.mem_cons, not_or] at hslash
    have hc : c ≠ '~' := htilde
    simp [unescape_plain hc, escapeChar, hc, Ne.symm hslash.1, ih hbad hslash.2]
  | case5 => rfl

/-! ### Indices -/

theorem decimal_append (n : ℕ) (cs : List Char) (c : Char) :
    decimal n (cs ++ [c]) = 10 * decimal n cs + (c.toNat - 48) := by
  simp [decimal]

theorem isDigit_iff (c : Char) : c.isDigit = true ↔ 48 ≤ c.toNat ∧ c.toNat ≤ 57 := by
  simp [Char.isDigit, UInt32.le_iff_toNat_le]

theorem digitChar_spec {d : ℕ} (h : d < 10) :
    d.digitChar.toNat = d + 48 ∧ d.digitChar.isDigit = true := by
  interval_cases d <;> decide

theorem digitChar_toNat {c : Char} (h : c.isDigit = true) : (c.toNat - 48).digitChar = c := by
  rw [isDigit_iff] at h
  have hd := digitChar_spec (d := c.toNat - 48) (by omega)
  exact Char.toNat_inj.mp (by omega)

/-- The digits of a positive number, of which the first is not zero. -/
theorem toDigits_pos {n : ℕ} (h : 0 < n) : ∃ c cs, Nat.toDigits 10 n = c :: cs ∧ 49 ≤ c.toNat ∧ c.toNat ≤ 57 ∧
    cs.all Char.isDigit = true ∧ decimal (c.toNat - 48) cs = n := by
  induction n using Nat.strong_induction_on with
  | _ n ih =>
    by_cases hn : n < 10
    · have hd := digitChar_spec hn
      exact ⟨n.digitChar, [], Nat.toDigits_of_lt_base hn, by omega, by omega, rfl,
        by show n.digitChar.toNat - 48 = n; omega⟩
    · obtain ⟨c, cs, heq, hlow, hhigh, hall, hvalue⟩ := ih (n / 10) (by omega) (by omega)
      have hd := digitChar_spec (d := n % 10) (by omega)
      refine ⟨c, cs ++ [(n % 10).digitChar], ?_, hlow, hhigh, by simp [hd.2] at hall ⊢; exact hall, ?_⟩
      · rw [Nat.toDigits_of_base_le (by decide) (by omega), heq]
        rfl
      · rw [decimal_append, hvalue, hd.1]
        omega

/-- More digits of a number. -/
theorem toDigits_decimal {n : ℕ} (h : 0 < n) {cs : List Char} (hall : cs.all Char.isDigit = true) :
    Nat.toDigits 10 (decimal n cs) = Nat.toDigits 10 n ++ cs := by
  induction cs generalizing n with
  | nil => simp [decimal]
  | cons c cs ih =>
    simp only [List.all_cons, Bool.and_eq_true] at hall
    have hc := (isDigit_iff c).mp hall.1
    have hlast : Nat.toDigits 10 (c.toNat - 48) = [c] := by
      rw [Nat.toDigits_of_lt_base (by omega), digitChar_toNat hall.1]
    have hstep : Nat.toDigits 10 (10 * n + (c.toNat - 48)) = Nat.toDigits 10 n ++ [c] := by
      rw [← Nat.toDigits_append_toDigits (by decide) h (by omega), hlast]
    show Nat.toDigits 10 (decimal (10 * n + (c.toNat - 48)) cs) = _
    rw [ih (by omega) hall.2, hstep]
    simp

theorem arrayIndex_repr (i : ℕ) : arrayIndex i.repr = some i := by
  rcases Nat.eq_zero_or_pos i with rfl | hi
  · rfl
  · obtain ⟨c, cs, heq, hlow, hhigh, hall, hvalue⟩ := toDigits_pos hi
    have hlist : i.repr.toList = c :: cs := by rw [Nat.toList_repr, heq]
    have hne : i.repr ≠ "0" := by
      intro hzero
      rw [hzero] at hlist
      have hchar : c = '0' := (List.cons.inj hlist).1.symm
      rw [hchar] at hlow
      exact absurd hlow (by decide)
    simp only [arrayIndex, hne, hlist, hlow, hhigh, hall, hvalue, if_false, and_self, if_true]

/-- An index has one token. -/
theorem arrayIndex_eq_some {token : String} {i : ℕ} (h : arrayIndex token = some i) : token = i.repr := by
  unfold arrayIndex at h
  split_ifs at h with hzero
  · cases h
    exact hzero
  · split at h
    · rename_i c cs htoken
      split_ifs at h with hdigits
      obtain rfl := Option.some.inj h
      have hc : c.isDigit = true := (isDigit_iff c).mpr ⟨by omega, hdigits.2.1⟩
      apply String.toList_inj.mp
      rw [Nat.toList_repr, toDigits_decimal (by omega) hdigits.2.2, Nat.toDigits_of_lt_base (by omega),
        digitChar_toNat hc, htoken]
      rfl
    · cases h

theorem repr_inj {i j : ℕ} (h : i.repr = j.repr) : i = j := by
  have hindex := arrayIndex_repr i
  rw [h, arrayIndex_repr] at hindex
  exact (Option.some.inj hindex).symm

/-! ### Parts -/

theorem splitOn_flatMap (p : List Char) (ps : List (List Char)) (hp : '/' ∉ p) (hps : ∀ q ∈ ps, '/' ∉ q) :
    (p ++ ps.flatMap ('/' :: ·)).splitOn '/' = p :: ps := by
  induction ps generalizing p with
  | nil => simpa using List.splitOn_eq_singleton hp
  | cons q ps ih =>
    rw [List.forall_mem_cons] at hps
    rw [List.flatMap_cons, List.cons_append, List.splitOn_append_cons_self_of_not_mem hp, ih q hps.1 hps.2]

theorem intercalate_flatMap (p : List Char) (ps : List (List Char)) :
    ['/'].intercalate (p :: ps) = p ++ ps.flatMap ('/' :: ·) := by
  induction ps generalizing p with
  | nil => simp
  | cons q ps ih => simp [List.intercalate_cons_cons, ih]

theorem slash_not_mem_splitOn (cs : List Char) : ∀ p ∈ cs.splitOn '/', '/' ∉ p := by
  induction cs with
  | nil => simp
  | cons c cs ih =>
    rw [List.splitOn_cons_eq_if_modifyHead]
    split_ifs with hc
    · exact List.forall_mem_cons.mpr ⟨by simp, ih⟩
    · cases hsplit : cs.splitOn '/' with
      | nil => simp
      | cons p ps =>
        rw [hsplit, List.forall_mem_cons] at ih
        refine List.forall_mem_cons.mpr ⟨?_, ih.2⟩
        have hne : '/' ≠ c := fun h => hc (by simp [← h])
        simp [hne, ih.1]

/-- The parts of the pointer of a path. -/
def partsOf (path : List Step) : List (List Char) := path.map fun s => escape s.token.toList

theorem slash_not_mem_partsOf (path : List Step) : ∀ p ∈ partsOf path, '/' ∉ p := by
  intro p hp
  obtain ⟨s, -, rfl⟩ := List.mem_map.mp hp
  exact slash_not_mem_escape _

theorem toList_encode (path : List Step) : (encode path).toList = (partsOf path).flatMap ('/' :: ·) := by
  simp [encode, partsOf, List.flatMap_map]

theorem atPointer_encode (value : Json) (path : List Step) :
    atPointer value (encode path) = atParts value (partsOf path) := by
  unfold atPointer
  rw [toList_encode]
  cases hparts : partsOf path with
  | nil => rfl
  | cons p ps =>
    have hslash := slash_not_mem_partsOf path
    rw [hparts, List.forall_mem_cons] at hslash
    simp only [List.flatMap_cons, List.cons_append, if_true]
    rw [splitOn_flatMap p ps hslash.1 hslash.2]

/-- A pointer on which `at_pointer` returns is made of its parts. -/
theorem atPointer_parts {value result : Json} {pointer : String} (h : atPointer value pointer = .ok result) :
    ∃ parts, atParts value parts = .ok result ∧ (∀ p ∈ parts, '/' ∉ p) ∧
      pointer.toList = parts.flatMap ('/' :: ·) := by
  unfold atPointer at h
  split at h
  · rename_i hempty
    exact ⟨[], h, by simp, hempty⟩
  · rename_i c cs hlist
    split_ifs at h with hslash
    refine ⟨cs.splitOn '/', h, slash_not_mem_splitOn cs, ?_⟩
    have hjoin : ['/'].intercalate (cs.splitOn '/') = cs := List.intercalate_splitOn '/'
    cases hsplit : cs.splitOn '/' with
    | nil => exact absurd hsplit (List.splitOn_ne_nil '/' cs)
    | cons p ps =>
      rw [hsplit, intercalate_flatMap] at hjoin
      rw [hlist, hslash, List.flatMap_cons, List.cons_append, hjoin]

/-- Tokens are read back from the parts. -/
theorem tokens_of_partsOf {path other : List Step} (h : partsOf path = partsOf other) :
    path.map Step.token = other.map Step.token := by
  have hread := congrArg (List.map fun p => String.ofList (unescape p)) h
  simpa [partsOf, unescape_escape, Function.comp_def] using hread

theorem partsOf_of_encode {path other : List Step} (h : encode path = encode other) :
    partsOf path = partsOf other := by
  have hlist : (partsOf path).flatMap ('/' :: ·) = (partsOf other).flatMap ('/' :: ·) := by
    rw [← toList_encode, ← toList_encode, h]
  -- Both are the parts between the slashes.
  have hsplit := congrArg (List.splitOn '/') hlist
  have hparts := fun path => splitOn_flatMap [] (partsOf path) (by simp) (slash_not_mem_partsOf path)
  simp only [List.nil_append] at hparts
  rw [hparts, hparts] at hsplit
  exact (List.cons.inj hsplit).2

/-! ### Pointers -/

theorem follow_key {fields : JsonObject} {k : String} {x : Json} (h : field fields k = some x) :
    follow (.obj fields) k = .ok x := by
  simp only [follow, h]

theorem follow_index {items : List Json} {i : ℕ} {x : Json} (h : items[i]? = some x) :
    follow (.arr items) i.repr = .ok x := by
  simp only [follow, arrayIndex_repr, h]

theorem atParts_escape (value : Json) (s : Step) (path : List Step) :
    atParts value (partsOf (s :: path)) =
      match follow value s.token with
      | .ok value => atParts value (partsOf path)
      | .error e => .error e := by
  simp only [partsOf, List.map_cons, atParts, badEscape_escape, unescape_escape, String.ofList_toList,
    Bool.false_eq_true, if_false]

theorem atParts_of_resolves {value result : Json} {path : List Step} (h : Resolves value path result) :
    atParts value (partsOf path) = .ok result := by
  induction h with
  | nil => rfl
  | key hfield _ ih =>
    rw [atParts_escape]
    simp only [Step.token, follow_key hfield, ih]
  | index hitem _ ih =>
    rw [atParts_escape]
    simp only [Step.token, follow_index hitem, ih]

/-- What a token refers to, by the step it stands for. -/
theorem follow_step {value x : Json} {key : String} (h : follow value key = .ok x) :
    ∃ s : Step, s.token = key ∧ ∀ path y, Resolves x path y → Resolves value (s :: path) y := by
  unfold follow at h
  split at h
  · split at h
    · rename_i hfield
      cases h
      exact ⟨.key key, rfl, fun _ _ => Resolves.key hfield⟩
    · cases h
  · split at h
    · rename_i i hindex
      split at h
      · rename_i hitem
        cases h
        exact ⟨.index i, (arrayIndex_eq_some hindex).symm, fun _ _ => Resolves.index hitem⟩
      · cases h
    · cases h
  · cases h

theorem resolves_of_atParts {value result : Json} {parts : List (List Char)}
    (h : atParts value parts = .ok result) (hslash : ∀ p ∈ parts, '/' ∉ p) :
    ∃ path, Resolves value path result ∧ partsOf path = parts := by
  induction parts generalizing value with
  | nil =>
    cases h
    exact ⟨[], .nil _, rfl⟩
  | cons p ps ih =>
    rw [List.forall_mem_cons] at hslash
    rw [atParts] at h
    split_ifs at h with hbad
    split at h
    · rename_i x hfollow
      obtain ⟨s, htoken, hstep⟩ := follow_step hfollow
      obtain ⟨path, hpath, hparts⟩ := ih h hslash.2
      refine ⟨s :: path, hstep path result hpath, ?_⟩
      have hp : escape s.token.toList = p := by
        rw [htoken, String.toList_ofList, escape_unescape p (by simpa using hbad) hslash.1]
      rw [← hp, ← hparts]
      rfl
    · cases h

/-- The value decides between a key and an index. -/
theorem Resolves.path_eq {value x y : Json} {path other : List Step} (h : Resolves value path x)
    (h' : Resolves value other y) (htokens : path.map Step.token = other.map Step.token) : path = other := by
  induction h generalizing other with
  | nil => exact (List.map_eq_nil_iff.mp htokens.symm).symm
  | key hfield _ ih =>
    cases h' with
    | nil => cases htokens
    | key hfield' h' =>
      simp only [List.map_cons, List.cons.injEq, Step.token] at htokens
      obtain ⟨rfl, htokens⟩ := htokens
      obtain rfl := Option.some.inj (hfield.symm.trans hfield')
      rw [ih h' htokens]
  | index hitem _ ih =>
    cases h' with
    | nil => cases htokens
    | index hitem' h' =>
      simp only [List.map_cons, List.cons.injEq, Step.token] at htokens
      obtain rfl := repr_inj htokens.1
      obtain rfl := Option.some.inj (hitem.symm.trans hitem')
      rw [ih h' htokens.2]

/-- **Source pointers resolve exactly.** The encoding of a path that exists leads to the value at its end, and
a pointer on which `at_pointer` returns is the encoding of one path of the value, the one followed; any other
path of that encoding has the same tokens. -/
theorem at_pointer_exact (value : Json) :
    (∀ path result, Resolves value path result → atPointer value (encode path) = .ok result) ∧
      ∀ pointer result, atPointer value pointer = .ok result →
        ∃ path, Resolves value path result ∧ encode path = pointer ∧
          (∀ other found, Resolves value other found → encode other = pointer → other = path) ∧
          ∀ other, encode other = pointer → other.map Step.token = path.map Step.token := by
  refine ⟨fun path result h => ?_, fun pointer result h => ?_⟩
  · rw [atPointer_encode]
    exact atParts_of_resolves h
  · obtain ⟨parts, hparts, hslash, hpointer⟩ := atPointer_parts h
    obtain ⟨path, hpath, rfl⟩ := resolves_of_atParts hparts hslash
    have hencode : encode path = pointer := by
      apply String.toList_inj.mp
      rw [toList_encode, hpointer]
    have htokens : ∀ other, encode other = pointer → other.map Step.token = path.map Step.token :=
      fun other ho => tokens_of_partsOf (partsOf_of_encode (ho.trans hencode.symm))
    exact ⟨path, hpath, hencode, fun other found hother ho => hother.path_eq hpath (htokens other ho), htokens⟩

/-- A key of escapes alone. -/
example : (atPointer (.obj [("~1/", .arr [.null, .int 7])]) "/~01~1/1").toOption.map (·.same (.int 7)) = some true := by
  decide +kernel

end PayOps.Evaluation
