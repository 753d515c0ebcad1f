import PayOps.Json

/-!
# Reading JSON

`json.loads(text, object_pairs_hook=…, parse_constant=…)` with the hooks the code passes: a
mapping with a key twice is rejected, and so are `NaN` and the infinities.

## The model

The functions read a prefix of the text and return what is left of it. `fuel` bounds their calls:
of two nested calls at least one reads a character, so that twice the length of the text, and
one, is enough. `depth` is how many containers may still be opened.

## Honest scope

A text has no lone surrogates. Python reads an escape of one and fails when it encodes the
string later; here such a text is rejected at once. An integer may have 4300 digits, which is
Python's default bound.
-/

namespace PayOps.Json

/-! ### Tokens -/

/-- Skip the white space of JSON. -/
def skip (cs : List Char) : List Char :=
  cs.dropWhile fun c => c == ' ' || c == '\t' || c == '\n' || c == '\r'

/-- The value of a hexadecimal digit. -/
def hexValue (c : Char) : Option ℕ :=
  if '0' ≤ c ∧ c ≤ '9' then some (c.toNat - '0'.toNat)
  else if 'a' ≤ c ∧ c ≤ 'f' then some (c.toNat - 'a'.toNat + 10)
  else if 'A' ≤ c ∧ c ≤ 'F' then some (c.toNat - 'A'.toNat + 10)
  else none

/-- Four hexadecimal digits. -/
def hex4 : List Char → Option (ℕ × List Char)
  | a :: b :: c :: d :: cs => do
    let a ← hexValue a
    let b ← hexValue b
    let c ← hexValue c
    let d ← hexValue d
    return (a * 4096 + b * 256 + c * 16 + d, cs)
  | _ => none

/-- What follows `\u`: one character, of which a pair of surrogates may be the escape. -/
def unicodeChar (cs : List Char) : Option (Char × List Char) := do
  let (high, rest) ← hex4 cs
  if high < 0xD800 ∨ 0xE000 ≤ high then return (Char.ofNat high, rest)
  else if 0xDC00 ≤ high then none
  else match rest with
    | '\\' :: 'u' :: low =>
      let (low, rest) ← hex4 low
      if 0xDC00 ≤ low ∧ low < 0xE000 then
        return (Char.ofNat (0x10000 + (high - 0xD800) * 0x400 + (low - 0xDC00)), rest)
      else none
    | _ => none

/-- The character of a simple escape. -/
def simpleEscape : Char → Option Char
  | '"' => some '"'
  | '\\' => some '\\'
  | '/' => some '/'
  | 'b' => some (Char.ofNat 8)
  | 'f' => some (Char.ofNat 12)
  | 'n' => some '\n'
  | 'r' => some '\r'
  | 't' => some '\t'
  | _ => none

/-- The rest of a string literal, its characters so far in reverse. -/
def scanString : ℕ → List Char → List Char → Option (String × List Char)
  | 0, _, _ => none
  | _ + 1, _, [] => none
  | _ + 1, acc, '"' :: cs => some (String.ofList acc.reverse, cs)
  | fuel + 1, acc, '\\' :: 'u' :: cs => do
    let (c, rest) ← unicodeChar cs
    scanString fuel (c :: acc) rest
  | fuel + 1, acc, '\\' :: c :: cs => do
    let c ← simpleEscape c
    scanString fuel (c :: acc) cs
  | fuel + 1, acc, c :: cs =>
    if c.toNat < 32 ∨ c = '\\' then none else scanString fuel (c :: acc) cs

/-- An ASCII digit. -/
def isDigit (c : Char) : Bool := '0' ≤ c && c ≤ '9'

/-- `(\.[0-9]+)?`. -/
def fraction : List Char → List Char × List Char
  | '.' :: cs => match cs.span isDigit with
    | ([], _) => ([], '.' :: cs)
    | (digits, rest) => ('.' :: digits, rest)
  | cs => ([], cs)

/-- `([eE][-+]?[0-9]+)?`. -/
def exponent (cs : List Char) : List Char × List Char :=
  match cs with
  | e :: rest =>
    if e = 'e' ∨ e = 'E' then
      let (sign, rest) := match rest with
        | '+' :: rest => (['+'], rest)
        | '-' :: rest => (['-'], rest)
        | rest => ([], rest)
      match rest.span isDigit with
      | ([], _) => ([], cs)
      | (digits, rest) => (e :: sign ++ digits, rest)
    else ([], cs)
  | [] => ([], [])

/-- The number that digits denote. -/
def digitsValue (digits : List Char) : ℕ :=
  digits.foldl (fun n c => n * 10 + (c.toNat - '0'.toNat)) 0

section Values

variable [Platform]

/-- `-?(0|[1-9][0-9]*)(\.[0-9]+)?([eE][-+]?[0-9]+)?`. -/
def scanNumber (cs : List Char) : Option (Json × List Char) :=
  let (sign, rest) := match cs with
    | '-' :: rest => (['-'], rest)
    | rest => ([], rest)
  let whole := match rest with
    | '0' :: rest => (['0'], rest)
    | rest => rest.span isDigit
  match whole with
  | ([], _) => none
  | (digits, rest) =>
    let (frac, rest) := fraction rest
    let (exp, rest) := exponent rest
    if frac = [] ∧ exp = [] then
      if 4300 < digits.length then none
      else some (.int (if sign = [] then digitsValue digits else -digitsValue digits), rest)
    else some (.float (Platform.floatRepr (String.ofList (sign ++ digits ++ frac ++ exp))), rest)

/-! ### Values -/

mutual

/-- A value. -/
def scanValue : ℕ → ℕ → List Char → Option (Json × List Char)
  | 0, _, _ => none
  | fuel + 1, _, '"' :: cs => do
    let (s, rest) ← scanString (fuel + 1) [] cs
    return (.str s, rest)
  | fuel + 1, depth + 1, '{' :: cs => match skip cs with
    | '}' :: rest => some (.obj [], rest)
    | cs => do
      let (fields, rest) ← scanFields fuel depth cs
      if (fields.map Prod.fst).Nodup then return (.obj fields, rest) else none
  | fuel + 1, depth + 1, '[' :: cs => match skip cs with
    | ']' :: rest => some (.arr [], rest)
    | cs => do
      let (items, rest) ← scanItems fuel depth cs
      return (.arr items, rest)
  | _ + 1, _, 'n' :: 'u' :: 'l' :: 'l' :: cs => some (.null, cs)
  | _ + 1, _, 't' :: 'r' :: 'u' :: 'e' :: cs => some (.bool true, cs)
  | _ + 1, _, 'f' :: 'a' :: 'l' :: 's' :: 'e' :: cs => some (.bool false, cs)
  | _ + 1, _, cs => scanNumber cs

/-- The items of a list that is not empty, up to its bracket. -/
def scanItems : ℕ → ℕ → List Char → Option (List Json × List Char)
  | 0, _, _ => none
  | fuel + 1, depth, cs => do
    let (item, rest) ← scanValue fuel depth cs
    match skip rest with
    | ']' :: rest => return ([item], rest)
    | ',' :: rest =>
      let (items, rest) ← scanItems fuel depth (skip rest)
      return (item :: items, rest)
    | _ => none

/-- The fields of a mapping that is not empty, up to its brace. -/
def scanFields : ℕ → ℕ → List Char → Option (List (String × Json) × List Char)
  | 0, _, _ => none
  | fuel + 1, depth, '"' :: cs => do
    let (key, rest) ← scanString (fuel + 1) [] cs
    match skip rest with
    | ':' :: rest =>
      let (item, rest) ← scanValue fuel depth (skip rest)
      match skip rest with
      | '}' :: rest => return ([(key, item)], rest)
      | ',' :: rest =>
        let (fields, rest) ← scanFields fuel depth (skip rest)
        return ((key, item) :: fields, rest)
      | _ => none
    | _ => none
  | _ + 1, _, _ => none

end

/-- `json.loads`; none where it raises. -/
def loads (cs : List Char) : Option Json := do
  let (value, rest) ← scanValue (2 * cs.length + 1) Platform.nesting (skip cs)
  if skip rest = [] then return value else none

end Values

end PayOps.Json
