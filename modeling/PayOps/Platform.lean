import Mathlib

/-!
# What the code takes from its platform

Python's and pydantic's own functions that no definition here depends on the details of, the
clock's unit, and the restricted strings most records are made of.

## The model

* `Platform` — the digest function, the two tables of Unicode word characters beyond ASCII,
  the bound on nested JSON, and the floats. Every result holds whatever they are.
* `Time` — aware datetimes, in microseconds from a fixed origin, which is their resolution.
  A comparison of `total_seconds()` with a whole number of seconds is exact at that
  resolution.
* `Identifier`, `Digest`, `Summary` — a restricted string carries the check that its
  validator makes, so a string that fails the check cannot be one.

## Honest scope

Additions of a `timedelta` past year 9999, where Python raises `OverflowError`, are not
modelled: `Time` is unbounded.
-/

namespace PayOps

/-- Functions of the platform that the code calls. -/
class Platform where
  /-- `hashlib.sha256(text.encode()).hexdigest()`. -/
  sha256 : String → String
  /-- Whether a character beyond ASCII is in the class `\w` of pydantic's patterns. -/
  patternWord : Char → Bool
  /-- Whether a character beyond ASCII is in the class `\w` of Python's `re`. -/
  reWord : Char → Bool
  /-- How deep `json.loads` and pydantic follow nested values. -/
  nesting : ℕ
  /-- The shortest representation of the float that a numeral denotes. -/
  floatRepr : String → String

/-- An aware datetime, in microseconds. -/
abbrev Time := ℤ

/-- `timedelta(seconds=n)`. -/
def seconds (n : ℕ) : Time := n * 1000000

/-- An ASCII letter, digit or underscore. -/
def asciiWord (c : Char) : Bool := c.isAlphanum || c == '_'

/-! ### Restricted strings -/

section Strings

variable [Platform]

/-- A character of the pattern `[\w.-]`. -/
def identifierChar (c : Char) : Bool :=
  if c.val < 128 then asciiWord c || c == '.' || c == '-' else Platform.patternWord c

/-- `StringConstraints(min_length=1, max_length=128, pattern=r"^[\w.-]+$")`. -/
def identifierOk (s : String) : Bool :=
  1 ≤ s.toList.length && s.toList.length ≤ 128 && s.toList.all identifierChar

/-- A string that passes for an identifier. -/
abbrev Identifier := { s : String // identifierOk s = true }

instance : LawfulBEq Identifier := inferInstance

/-- Validation of a string as an identifier. -/
def Identifier.validate (s : String) : Option Identifier :=
  if h : identifierOk s = true then some ⟨s, h⟩ else none

@[simp] theorem Identifier.validate_val (i : Identifier) : Identifier.validate i.val = some i := by
  simp [Identifier.validate, i.property]

theorem Identifier.validate_eq_some {s : String} {i : Identifier} :
    Identifier.validate s = some i ↔ i.val = s := by
  constructor
  · intro h
    unfold Identifier.validate at h
    split at h
    · exact congrArg Subtype.val (Option.some.inj h).symm
    · cases h
  · rintro rfl
    exact Identifier.validate_val i

end Strings

/-- A character of the pattern `[a-f0-9]`. -/
def hexChar (c : Char) : Bool := c.isDigit || ('a' ≤ c && c ≤ 'f')

/-- `StringConstraints(pattern=r"^[a-f0-9]{64}$")`. -/
def digestOk (s : String) : Bool := s.toList.length == 64 && s.toList.all hexChar

/-- A string that passes for a digest. -/
abbrev Digest := { s : String // digestOk s = true }

/-- Validation of a string as a digest. -/
def Digest.validate (s : String) : Option Digest :=
  if h : digestOk s = true then some ⟨s, h⟩ else none

@[simp] theorem Digest.validate_val (d : Digest) : Digest.validate d.val = some d := by
  simp [Digest.validate, d.property]

theorem Digest.validate_eq_some {s : String} {d : Digest} :
    Digest.validate s = some d ↔ d.val = s := by
  constructor
  · intro h
    unfold Digest.validate at h
    split at h
    · exact congrArg Subtype.val (Option.some.inj h).symm
    · cases h
  · rintro rfl
    exact Digest.validate_val d

/-- The white space that `strip_whitespace` strips: the Unicode property `White_Space`. -/
def whiteSpace (c : Char) : Bool :=
  c.val ∈ ([0x9, 0xA, 0xB, 0xC, 0xD, 0x20, 0x85, 0xA0, 0x1680, 0x2028, 0x2029, 0x202F, 0x205F,
    0x3000] : List UInt32) || (0x2000 ≤ c.val && c.val ≤ 0x200A)

/-- `str.trim` of pydantic's core. -/
def strip (s : List Char) : List Char :=
  ((s.dropWhile whiteSpace).reverse.dropWhile whiteSpace).reverse

/-- `StringConstraints(strip_whitespace=True, min_length=1, max_length=n)`, of a stripped string. -/
def strippedOk (n : ℕ) (s : String) : Bool :=
  strip s.toList == s.toList && 1 ≤ s.toList.length && s.toList.length ≤ n

/-- A stripped string of at most 4000 characters. -/
abbrev Summary := { s : String // strippedOk 4000 s = true }

/-- Validation of a string as a summary: it is stripped first. -/
def Summary.validate (s : String) : Option Summary :=
  if h : strippedOk 4000 (String.ofList (strip s.toList)) = true then some ⟨_, h⟩ else none

end PayOps
