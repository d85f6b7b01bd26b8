import EgoBridge.Json.Decode

/-!
# Json.Size

How many bytes the compact text of a value takes.

* `canonicalJson_length` — sorting changes no size, so a canonical text has its value's.
* `escapedSize_bounds`   — escaping makes a text at most six times as long.
-/

namespace EgoBridge
namespace Json

/-- The bytes of one character of a string literal. -/
def escapedCharSize (c : Char) : Nat :=
  if c = '"' ∨ c = '\\' ∨ c = '\x08' ∨ c = '\x0c' ∨ c = '\n' ∨ c = '\r' ∨ c = '\t' then 2
  else if c.toNat < 32 then 6
  else c.utf8Size

/-- The bytes of a string literal without its quotes. -/
def escapedSize (s : String) : Nat := (s.toList.map escapedCharSize).sum

/-- The bytes of a natural number. -/
def decimalSize (n : Nat) : Nat := (Nat.toDigits 10 n).length

/-- The bytes of an integer. -/
def integerSize : Int → Nat
  | .ofNat n => decimalSize n
  | .negSucc n => 1 + decimalSize (n + 1)

/-- The bytes of a value. -/
def size (v : Json) : Nat := utf8Len (render v)

/-! ## Texts and numbers -/

theorem hexDigit_size : ∀ n, n < 16 → (hexDigit n).utf8Size = 1 := by
  decide

theorem escChar_size (c : Char) : utf8Len (escChar c) = escapedCharSize c := by
  unfold escChar escapedCharSize
  split_ifs with h1 h2 h3 h4 h5 h6 h7 h8 h9 h10
  all_goals first
    | rfl
    | (exfalso; tauto)
    | simp
  all_goals
    rw [hexDigit_size _ (by omega), hexDigit_size _ (by omega)]
    rfl

theorem escString_size (cs : List Char) :
    utf8Len (escString cs) = (cs.map escapedCharSize).sum := by
  induction cs with
  | nil => rfl
  | cons c cs ih =>
    rw [escString, List.flatMap_cons, utf8Len_append, escChar_size, List.map_cons, List.sum_cons]
    rw [escString] at ih
    rw [ih]

theorem renderString_size (s : String) : utf8Len (renderString s) = 2 + escapedSize s := by
  rw [renderString, utf8Len_cons, utf8Len_append, escString_size]
  simp only [utf8Len_cons, utf8Len_nil, show '"'.utf8Size = 1 from rfl, escapedSize]
  omega

@[simp] theorem size_str (s : String) : size (.str s) = 2 + escapedSize s := renderString_size s

@[simp] theorem size_null : size .null = 4 := rfl

theorem digits_size {cs : List Char} (h : ∀ c ∈ cs, c.isDigit = true) : utf8Len cs = cs.length := by
  induction cs with
  | nil => rfl
  | cons c cs ih =>
    have hc : c.utf8Size = 1 := by
      have := h c List.mem_cons_self
      simp only [Char.isDigit, Bool.and_eq_true, decide_eq_true_eq] at this
      have hle : c.val ≤ 127 := UInt32.le_trans this.2 (by decide)
      exact Char.utf8Size_eq_one_iff.mpr hle
    rw [utf8Len_cons, hc, ih fun d hd => h d (List.mem_cons_of_mem _ hd), List.length_cons]
    omega

@[simp] theorem size_ofNat (n : Nat) : size (ofNat n) = decimalSize n := by
  have h : utf8Len (Digits.ofNat n).chars = decimalSize n := digits_size (Digits.ofNat n).all_digit
  simpa [size, ofNat, render, Number.render, Number.ofNat] using h

@[simp] theorem size_ofU64 (n : UInt64) : size (ofU64 n) = decimalSize n.toNat := size_ofNat _

@[simp] theorem size_ofU32 (n : UInt32) : size (ofU32 n) = decimalSize n.toNat := size_ofNat _

@[simp] theorem size_ofI32 (n : Int32) : size (ofI32 n) = integerSize n.toInt := by
  unfold ofI32
  cases n.toInt with
  | ofNat m => exact size_ofNat m
  | negSucc m =>
    have h := digits_size (Digits.ofNat (m + 1)).all_digit
    simp only [size, render, Number.render, Number.ofInt, ↓reduceIte, List.append_nil,
      utf8Len_append, h]
    rfl

/-! ## Arrays and objects -/

def elemsSize (vs : List Json) : Nat := (vs.map fun v => 1 + size v).sum

def membersSize (ms : List (String × Json)) : Nat :=
  (ms.map fun m => 4 + escapedSize m.1 + size m.2).sum

theorem renderElems_size (vs : List Json) : utf8Len (renderElems vs) = 1 + elemsSize vs := by
  induction vs with
  | nil => rfl
  | cons v vs ih =>
    rw [renderElems, utf8Len_cons, utf8Len_append, ih, show ','.utf8Size = 1 from rfl]
    simp only [elemsSize, List.map_cons, List.sum_cons, size]
    omega

theorem renderMembers_size (ms : List (String × Json)) :
    utf8Len (renderMembers ms) = 1 + membersSize ms := by
  induction ms with
  | nil => rfl
  | cons m ms ih =>
    obtain ⟨k, v⟩ := m
    rw [renderMembers, utf8Len_cons, utf8Len_append, renderString_size, utf8Len_cons,
      utf8Len_append, ih, show ','.utf8Size = 1 from rfl, show ':'.utf8Size = 1 from rfl]
    simp only [membersSize, List.map_cons, List.sum_cons, size]
    omega

theorem size_arr (vs : List Json) : size (.arr vs) = max 2 (1 + elemsSize vs) := by
  cases vs with
  | nil => rfl
  | cons v vs =>
    rw [size, render, utf8Len_cons, utf8Len_append, renderElems_size,
      show '['.utf8Size = 1 from rfl]
    simp only [elemsSize, List.map_cons, List.sum_cons, size]
    omega

theorem size_obj (ms : List (String × Json)) : size (.obj ms) = max 2 (1 + membersSize ms) := by
  cases ms with
  | nil => rfl
  | cons m ms =>
    obtain ⟨k, v⟩ := m
    rw [size, render, utf8Len_cons, utf8Len_append, renderString_size, utf8Len_cons,
      utf8Len_append, renderMembers_size, show '\x7b'.utf8Size = 1 from rfl,
      show ':'.utf8Size = 1 from rfl]
    simp only [membersSize, List.map_cons, List.sum_cons, size]
    omega

/-! ## Canonical text -/

mutual
theorem size_canonicalValue (v : Json) : size (canonicalValue v) = size v := by
  cases v with
  | arr vs => rw [canonicalValue, size_arr, size_arr, elemsSize_canonical vs]
  | obj ms =>
    have hp : membersSize ((canonicalMembers ms).insertionSort keyLe) =
        membersSize (canonicalMembers ms) :=
      ((List.perm_insertionSort keyLe (canonicalMembers ms)).map _).sum_nat
    rw [canonicalValue, size_obj, size_obj, hp, membersSize_canonical ms]
  | null => rfl
  | bool b => rfl
  | num n => rfl
  | str s => rfl

theorem elemsSize_canonical (vs : List Json) : elemsSize (canonicalElems vs) = elemsSize vs := by
  cases vs with
  | nil => rfl
  | cons v vs =>
    have h1 := size_canonicalValue v
    have h2 := elemsSize_canonical vs
    simp only [elemsSize, canonicalElems, List.map_cons, List.sum_cons] at h2 ⊢
    rw [h1, h2]

theorem membersSize_canonical (ms : List (String × Json)) :
    membersSize (canonicalMembers ms) = membersSize ms := by
  cases ms with
  | nil => rfl
  | cons m ms =>
    obtain ⟨k, v⟩ := m
    have h1 := size_canonicalValue v
    have h2 := membersSize_canonical ms
    simp only [membersSize, canonicalMembers, List.map_cons, List.sum_cons] at h2 ⊢
    rw [h1, h2]
end

/-- A canonical text has the size of its value. -/
theorem canonicalJson_length (v : Json) : (canonicalJson v).length = size v := by
  rw [canonicalJson, utf8_ofList_length]
  exact size_canonicalValue v

/-! ## Bounds -/

theorem escapedCharSize_bounds (c : Char) :
    c.utf8Size ≤ escapedCharSize c ∧ escapedCharSize c ≤ 6 * c.utf8Size := by
  have hpos := c.utf8Size_pos
  unfold escapedCharSize
  split_ifs with h1 h2
  · have h : c.utf8Size = 1 := by
      rcases h1 with rfl | rfl | rfl | rfl | rfl | rfl | rfl <;> rfl
    omega
  · have h : c.utf8Size = 1 := by
      refine Char.utf8Size_eq_one_iff.mpr ?_
      have := UInt32.le_iff_toNat_le (a := c.val) (b := 127)
      rw [this]
      exact Nat.le_trans (Nat.le_of_lt h2) (by decide)
    omega
  · omega

/-- Escaping keeps a text's bytes and makes it at most six times as long. -/
theorem escapedSize_bounds (s : String) :
    (utf8 s).length ≤ escapedSize s ∧ escapedSize s ≤ 6 * (utf8 s).length := by
  rw [utf8_length, utf8ByteSize_eq, escapedSize, utf8Len]
  induction s.toList with
  | nil => simp
  | cons c cs ih =>
    have hc := escapedCharSize_bounds c
    simp only [List.map_cons, List.sum_cons]
    omega

end Json
end EgoBridge
