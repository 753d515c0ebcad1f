import Mathlib

/-!
# Texts and their bytes

The UTF-8 encoding of a text, as lists of characters and of bytes.

## What is proved

* `decodeUtf8_eq_some` — bytes decode to a text just if they are its encoding.
* `length_encodeUtf8` — how long the encoding is.
-/

namespace PayOps.Text

/-- `text.encode("utf-8")`. -/
def encodeUtf8 (cs : List Char) : List UInt8 := (String.ofList cs).toUTF8.toList

/-- `raw.decode("utf-8", errors="strict")`. -/
def decodeUtf8 (raw : List UInt8) : Option (List Char) := (String.fromUTF8? raw.toByteArray).map String.toList

/-- The length of the UTF-8 encoding of a text. -/
def utf8Length (cs : List Char) : ℕ := (cs.map Char.utf8Size).sum

@[simp] theorem utf8Length_nil : utf8Length [] = 0 := rfl

@[simp] theorem utf8Length_cons (c : Char) (cs : List Char) : utf8Length (c :: cs) = c.utf8Size + utf8Length cs := by
  simp [utf8Length]

@[simp] theorem utf8Length_append (cs ds : List Char) : utf8Length (cs ++ ds) = utf8Length cs + utf8Length ds := by
  simp [utf8Length]

/-- A character has four bytes at most. -/
theorem utf8Length_le (cs : List Char) : utf8Length cs ≤ 4 * cs.length := by
  induction cs with
  | nil => simp
  | cons c cs ih =>
    have hc := c.utf8Size_le_four
    simp only [utf8Length_cons, List.length_cons]
    omega

/-- The loop of `ByteArray.toList` goes on with the bytes from `i`. -/
theorem toList_loop (bytes : ByteArray) (i : ℕ) (read : List UInt8) :
    ByteArray.toList.loop bytes i read = read.reverse ++ bytes.data.toList.drop i := by
  induction i, read using ByteArray.toList.loop.induct bytes with
  | case1 i read hlt ih =>
    have hi : i < bytes.data.toList.length := by simpa using hlt
    have hbyte : bytes.get! i = bytes.data.toList[i] := by
      rw [Array.getElem_toList]
      exact getElem!_pos bytes.data i (by simpa using hlt)
    rw [ByteArray.toList.loop, if_pos hlt, ih, List.drop_eq_getElem_cons hi, hbyte]
    simp
  | case2 i read hge =>
    have hend : bytes.data.toList.length ≤ i := by simpa using hge
    rw [ByteArray.toList.loop, if_neg hge, List.drop_eq_nil_of_le hend, List.append_nil]

theorem toList_bytes (bytes : ByteArray) : bytes.toList = bytes.data.toList := by
  rw [ByteArray.toList, toList_loop]
  simp

/-- A list of bytes, from an array and back. -/
@[simp] theorem toByteArray_toList (bytes : ByteArray) : bytes.toList.toByteArray = bytes := by
  rw [toList_bytes]
  ext1
  rw [List.data_toByteArray]

@[simp] theorem toList_toByteArray (raw : List UInt8) : raw.toByteArray.toList = raw := by
  rw [toList_bytes, List.data_toByteArray]

/-- The encoding of a text, character by character. -/
theorem encodeUtf8_eq (cs : List Char) : encodeUtf8 cs = cs.flatMap String.utf8EncodeChar := by
  rw [encodeUtf8, String.toUTF8_eq_toByteArray, String.toByteArray_ofList, List.utf8Encode, toList_toByteArray]

/-- **Bytes decode to a text** just if they are its encoding. -/
theorem decodeUtf8_eq_some {raw : List UInt8} {cs : List Char} : decodeUtf8 raw = some cs ↔ raw = encodeUtf8 cs := by
  unfold decodeUtf8 String.fromUTF8? encodeUtf8
  constructor
  · intro h
    split_ifs at h with hvalid
    · obtain rfl : (String.fromUTF8 raw.toByteArray hvalid).toList = cs := by simpa using h
      rw [String.ofList_toList, String.toUTF8_eq_toByteArray]
      exact (toList_toByteArray raw).symm
    · cases h
  · rintro rfl
    rw [toByteArray_toList, String.toUTF8_eq_toByteArray, dif_pos (String.ofList cs).isValidUTF8]
    show some (String.ofList cs).toList = some cs
    rw [String.toList_ofList]

theorem decodeUtf8_encodeUtf8 (cs : List Char) : decodeUtf8 (encodeUtf8 cs) = some cs := decodeUtf8_eq_some.mpr rfl

theorem length_encodeUtf8 (cs : List Char) : (encodeUtf8 cs).length = utf8Length cs := by
  rw [encodeUtf8_eq]
  induction cs with
  | nil => rfl
  | cons c cs ih => rw [List.flatMap_cons, List.length_append, ih, String.length_utf8EncodeChar, utf8Length_cons]

end PayOps.Text
