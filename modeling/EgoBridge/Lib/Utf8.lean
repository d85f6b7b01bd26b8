import Mathlib.Algebra.Order.Ring.Int
import Mathlib.Data.String.Basic

/-!
# Lib.Utf8

Strings as bytes. A string is sent as its UTF-8 encoding; `utf8` is that encoding as a list of
bytes and `ofUtf8?` its inverse, undefined on byte strings that encode nothing. `decodeChars` reads
any byte string, as far as it is one.
-/

namespace EgoBridge

abbrev Bytes := List UInt8

/-- `str::as_bytes`. -/
def utf8 (s : String) : Bytes := s.toByteArray.data.toList

/-- `String::from_utf8`. -/
def ofUtf8? (bytes : Bytes) : Option String := String.fromUTF8? ⟨bytes.toArray⟩

@[simp] theorem ofUtf8?_utf8 (s : String) : ofUtf8? (utf8 s) = some s := by
  have hb : (⟨(utf8 s).toArray⟩ : ByteArray) = s.toByteArray := by simp [utf8]
  rw [ofUtf8?, hb, String.fromUTF8?, dif_pos s.isValidUTF8]
  rfl

theorem utf8_injective {s t : String} (h : utf8 s = utf8 t) : s = t := by
  have hs := ofUtf8?_utf8 s
  rw [h, ofUtf8?_utf8] at hs
  exact (Option.some.inj hs).symm

@[simp] theorem utf8_length (s : String) : (utf8 s).length = s.utf8ByteSize := by
  simp only [utf8, Array.length_toList]
  rfl

@[simp] theorem utf8_append (s t : String) : utf8 (s ++ t) = utf8 s ++ utf8 t := by
  simp [utf8]

theorem utf8_ofList_cons (c : Char) (cs : List Char) :
    utf8 (String.ofList (c :: cs)) = String.utf8EncodeChar c ++ utf8 (String.ofList cs) := by
  simp only [utf8, String.toByteArray_ofList]
  rw [List.utf8Encode_cons]
  simp [List.utf8Encode]

/-- The bytes a list of characters takes. -/
def utf8Len (cs : List Char) : Nat := (cs.map Char.utf8Size).sum

@[simp] theorem utf8Len_nil : utf8Len [] = 0 := rfl

@[simp] theorem utf8Len_cons (c : Char) (cs : List Char) :
    utf8Len (c :: cs) = c.utf8Size + utf8Len cs := by
  simp [utf8Len]

@[simp] theorem utf8Len_append (cs ds : List Char) :
    utf8Len (cs ++ ds) = utf8Len cs + utf8Len ds := by
  simp [utf8Len]

theorem utf8_ofList_length (cs : List Char) : (utf8 (String.ofList cs)).length = utf8Len cs := by
  induction cs with
  | nil => rfl
  | cons c cs ih => rw [utf8_ofList_cons, List.length_append, ih]; simp

theorem utf8ByteSize_eq (s : String) : s.utf8ByteSize = utf8Len s.toList := by
  rw [← utf8_length, ← utf8_ofList_length, String.ofList_toList]

/-! ## Byte strings that are text up to a place -/

/-- The character at the head of a byte string. -/
def decodeChar? (bytes : Bytes) : Option Char := ByteArray.utf8DecodeChar? ⟨bytes.toArray⟩ 0

/-- The characters at the head of a byte string, and what follows the last of them. -/
def decodeChars : Nat → Bytes → List Char × Bytes
  | 0, bytes => ([], bytes)
  | n + 1, bytes =>
    match decodeChar? bytes with
    | none => ([], bytes)
    | some c =>
      let rest := decodeChars n (bytes.drop c.utf8Size)
      (c :: rest.1, rest.2)

theorem decodeChar?_encode (c : Char) (bytes : Bytes) :
    decodeChar? (String.utf8EncodeChar c ++ bytes) = some c := by
  have h := @ByteArray.utf8DecodeChar?_utf8EncodeChar_append ⟨bytes.toArray⟩ c
  have he : (String.utf8EncodeChar c).toByteArray ++ ⟨bytes.toArray⟩ =
      (⟨(String.utf8EncodeChar c ++ bytes).toArray⟩ : ByteArray) := by
    ext1
    simp
  rwa [he] at h

theorem decodeChar?_some {bytes : Bytes} {c : Char} (h : decodeChar? bytes = some c) :
    bytes = String.utf8EncodeChar c ++ bytes.drop c.utf8Size := by
  obtain ⟨l, hl⟩ := ByteArray.exists_of_utf8DecodeChar?_eq_some h
  have hb : bytes = String.utf8EncodeChar c ++ l.data.toList := by
    have := congrArg (fun b : ByteArray => b.data.toList) hl
    simpa using this
  rw [hb, List.drop_left' (String.length_utf8EncodeChar c)]

theorem decodeChars_fuel {m n : Nat} {bytes : Bytes} (hm : bytes.length ≤ m)
    (hn : bytes.length ≤ n) : decodeChars m bytes = decodeChars n bytes := by
  have hnil : decodeChar? [] = none := rfl
  induction m generalizing n bytes with
  | zero =>
    rw [List.length_eq_zero_iff.mp (Nat.le_zero.mp hm)]
    cases n with
    | zero => rfl
    | succ n => simp only [decodeChars, hnil]
  | succ m ih =>
    cases n with
    | zero =>
      rw [List.length_eq_zero_iff.mp (Nat.le_zero.mp hn)]
      simp only [decodeChars, hnil]
    | succ n =>
      rw [decodeChars, decodeChars]
      cases h : decodeChar? bytes with
      | none => rfl
      | some c =>
        have hpos := c.utf8Size_pos
        have hlen := congrArg List.length (decodeChar?_some h)
        rw [List.length_append, String.length_utf8EncodeChar] at hlen
        dsimp only
        rw [ih (n := n) (by omega) (by omega)]

theorem decodeChars_eq (n : Nat) (bytes : Bytes) :
    bytes = utf8 (String.ofList (decodeChars n bytes).1) ++ (decodeChars n bytes).2 := by
  induction n generalizing bytes with
  | zero => rfl
  | succ n ih =>
    rw [decodeChars]
    cases h : decodeChar? bytes with
    | none => rfl
    | some c =>
      dsimp only
      rw [utf8_ofList_cons, List.append_assoc, ← ih]
      exact decodeChar?_some h

theorem decodeChars_append (cs : List Char) (bytes : Bytes) :
    decodeChars (utf8 (String.ofList cs) ++ bytes).length (utf8 (String.ofList cs) ++ bytes) =
      (cs ++ (decodeChars bytes.length bytes).1, (decodeChars bytes.length bytes).2) := by
  induction cs with
  | nil => rfl
  | cons c cs ih =>
    rw [utf8_ofList_cons, List.append_assoc]
    have hpos := c.utf8Size_pos
    have hlen := String.length_utf8EncodeChar c
    rw [decodeChars_fuel (Nat.le_refl _) (n := (utf8 (String.ofList cs) ++ bytes).length + c.utf8Size)
      (by rw [List.length_append, hlen, Nat.add_comm])]
    obtain ⟨k, hk⟩ : ∃ k, c.utf8Size = k + 1 := ⟨c.utf8Size - 1, by omega⟩
    rw [hk, ← Nat.add_assoc, decodeChars, decodeChar?_encode]
    dsimp only
    rw [List.drop_left' hlen, decodeChars_fuel (n := (utf8 (String.ofList cs) ++ bytes).length)
      (by omega) (Nat.le_refl _), ih]
    rfl

/-- The characters of a byte string, with a NUL for the bytes that are none. -/
def readText (bytes : Bytes) : List Char :=
  let decoded := decodeChars bytes.length bytes
  if decoded.2 = [] then decoded.1 else decoded.1 ++ ['\x00']

theorem readText_append (cs : List Char) (bytes : Bytes) :
    readText (utf8 (String.ofList cs) ++ bytes) = cs ++ readText bytes := by
  rw [readText, readText, decodeChars_append]
  dsimp only
  split
  · rfl
  · rw [List.append_assoc]

@[simp] theorem readText_utf8 (s : String) : readText (utf8 s) = s.toList := by
  have h := readText_append s.toList []
  rw [String.ofList_toList, List.append_nil] at h
  rw [h]
  exact List.append_nil _

end EgoBridge
