import EgoBridge.Lib.Utf8

/-!
# Lib.Lossy

Byte strings read as text with every malformed sequence replaced by U+FFFD.

* `utf8_fromUtf8Lossy_length` — how many bytes the text has.
-/

namespace EgoBridge

/-- `char::REPLACEMENT_CHARACTER`. -/
def REPLACEMENT_CHARACTER : Char := Char.ofNat 0xfffd

def isContinuation (b : UInt8) : Bool := b &&& 0xc0 = 0x80

/-- The second bytes of characters of three and four bytes. -/
def secondOf (lead b : UInt8) : Bool :=
  (lead = 0xe0 && 0xa0 ≤ b && b ≤ 0xbf) || (0xe1 ≤ lead && lead ≤ 0xec && 0x80 ≤ b && b ≤ 0xbf) ||
    (lead = 0xed && 0x80 ≤ b && b ≤ 0x9f) || (0xee ≤ lead && lead ≤ 0xef && 0x80 ≤ b && b ≤ 0xbf) ||
    (lead = 0xf0 && 0x90 ≤ b && b ≤ 0xbf) || (0xf1 ≤ lead && lead ≤ 0xf3 && 0x80 ≤ b && b ≤ 0xbf) ||
    (lead = 0xf4 && 0x80 ≤ b && b ≤ 0x8f)

/-- The length of the malformed sequence at the front of bytes that start with no character: as
much of a character as is there, and one byte at least. -/
def malformedLength : Bytes → Nat
  | lead :: second :: third :: _ =>
    if secondOf lead second then if 0xf0 ≤ lead && isContinuation third then 3 else 2 else 1
  | [lead, second] => if secondOf lead second then 2 else 1
  | _ => 1

inductive Utf8Piece where
  | valid (c : Char)
  | malformed (length : Nat)
  deriving DecidableEq

theorem malformedLength_pos (bytes : Bytes) : 0 < malformedLength bytes := by
  unfold malformedLength
  split
  · split
    · split <;> decide
    · decide
  · split <;> decide
  · decide

theorem malformedLength_le (bytes : Bytes) : malformedLength bytes ≤ 3 := by
  unfold malformedLength
  split
  · split
    · split <;> decide
    · decide
  · split <;> decide
  · decide

theorem malformedLength_le_length {bytes : Bytes} (h : bytes ≠ []) :
    malformedLength bytes ≤ bytes.length := by
  unfold malformedLength
  split
  · simp only [List.length_cons]
    split
    · split <;> omega
    · omega
  · simp only [List.length_cons, List.length_nil]
    split <;> omega
  · exact List.length_pos_of_ne_nil h

/-- `Utf8Chunks`, a character or a malformed sequence at a time. -/
def utf8Pieces (bytes : Bytes) : List Utf8Piece :=
  if _h : bytes = [] then []
  else
    match decodeChar? bytes with
    | some c => .valid c :: utf8Pieces (bytes.drop c.utf8Size)
    | none => .malformed (malformedLength bytes) :: utf8Pieces (bytes.drop (malformedLength bytes))
termination_by bytes.length
decreasing_by
  all_goals
    have := List.length_pos_of_ne_nil _h
    rw [List.length_drop]
  · have := c.utf8Size_pos
    omega
  · have := malformedLength_pos bytes
    omega

namespace Utf8Piece

def char : Utf8Piece → Char
  | .valid c => c
  | .malformed _ => REPLACEMENT_CHARACTER

/-- The bytes by which a piece is longer in the text. -/
def growth : Utf8Piece → Nat
  | .valid _ => 0
  | .malformed length => 3 - length

end Utf8Piece

/-- `String::from_utf8_lossy`. -/
def fromUtf8Lossy (bytes : Bytes) : String := String.ofList ((utf8Pieces bytes).map Utf8Piece.char)

/-- How much longer than the bytes the text is: two for each malformed byte by itself, one for each
two malformed bytes that begin a character. -/
def lossyGrowth (bytes : Bytes) : Nat := ((utf8Pieces bytes).map Utf8Piece.growth).sum

theorem utf8Pieces_nil : utf8Pieces [] = [] := by simp [utf8Pieces]

theorem utf8Pieces_valid {bytes : Bytes} {c : Char} (h : decodeChar? bytes = some c) :
    utf8Pieces bytes = .valid c :: utf8Pieces (bytes.drop c.utf8Size) := by
  have hne : bytes ≠ [] := by
    rintro rfl
    cases h
  rw [utf8Pieces, dif_neg hne, h]

theorem utf8Pieces_malformed {bytes : Bytes} (hne : bytes ≠ []) (h : decodeChar? bytes = none) :
    utf8Pieces bytes = .malformed (malformedLength bytes) ::
      utf8Pieces (bytes.drop (malformedLength bytes)) := by
  rw [utf8Pieces, dif_neg hne, h]

theorem utf8_fromUtf8Lossy_length (bytes : Bytes) :
    (utf8 (fromUtf8Lossy bytes)).length = bytes.length + lossyGrowth bytes := by
  rw [fromUtf8Lossy, utf8_ofList_length, lossyGrowth]
  induction h : bytes.length using Nat.strong_induction_on generalizing bytes with
  | _ n ih =>
    by_cases hne : bytes = []
    · subst hne
      subst h
      simp [utf8Pieces_nil]
    have hpos := List.length_pos_of_ne_nil hne
    cases hd : decodeChar? bytes with
    | some c =>
      have hc := c.utf8Size_pos
      have hlen := congrArg List.length (decodeChar?_some hd)
      rw [List.length_append, String.length_utf8EncodeChar] at hlen
      have hrest := ih (bytes.drop c.utf8Size).length (by rw [List.length_drop]; omega) _ rfl
      rw [utf8Pieces_valid hd, List.map_cons, List.map_cons, utf8Len_cons, hrest, List.sum_cons]
      simp only [Utf8Piece.char, Utf8Piece.growth]
      omega
    | none =>
      have h1 := malformedLength_pos bytes
      have h3 := malformedLength_le bytes
      have hl := malformedLength_le_length hne
      have hrest := ih (bytes.drop (malformedLength bytes)).length
        (by rw [List.length_drop]; omega) _ rfl
      have hsize : REPLACEMENT_CHARACTER.utf8Size = 3 := by decide
      rw [utf8Pieces_malformed hne hd, List.map_cons, List.map_cons, utf8Len_cons, hrest,
        List.sum_cons]
      simp only [Utf8Piece.char, Utf8Piece.growth, hsize, List.length_drop]
      omega

theorem malformedLength_cons {b : UInt8} (hs : ∀ c, secondOf b c = false) (bytes : Bytes) :
    malformedLength (b :: bytes) = 1 := by
  cases bytes with
  | nil => rfl
  | cons c bytes =>
    cases bytes with
    | nil => rw [malformedLength, if_neg (by simp [hs])]
    | cons d bytes => rw [malformedLength, if_neg (by simp [hs])]

/-- A byte that begins no character, written again and again. -/
theorem utf8Pieces_replicate {b : UInt8} (hd : ∀ bytes, decodeChar? (b :: bytes) = none)
    (hs : ∀ c, secondOf b c = false) (n : Nat) :
    utf8Pieces (List.replicate n b) = List.replicate n (.malformed 1) := by
  induction n with
  | zero => exact utf8Pieces_nil
  | succ n ih =>
    rw [List.replicate_succ, utf8Pieces_malformed (by simp) (hd _), malformedLength_cons hs,
      List.drop_succ_cons, List.drop_zero, ih, List.replicate_succ]

theorem decodeChar?_ff (bytes : Bytes) : decodeChar? (0xff :: bytes) = none := by
  have hi : ∀ h, ByteArray.utf8DecodeChar?.parseFirstByte
      (getElem (⟨(0xff :: bytes).toArray⟩ : ByteArray) 0 h) = .invalid := by
    intro h
    change ByteArray.utf8DecodeChar?.parseFirstByte 0xff = .invalid
    rw [ByteArray.utf8DecodeChar?.parseFirstByte, if_neg (by decide), if_neg (by decide),
      if_neg (by decide), if_neg (by decide)]
  unfold decodeChar? ByteArray.utf8DecodeChar?
  split
  · split
    · rfl
    all_goals
      rename_i h
      cases (hi _).symm.trans h
  · rfl

theorem lossyGrowth_ff (n : Nat) : lossyGrowth (List.replicate n 0xff) = 2 * n := by
  have hs : ∀ c, secondOf 0xff c = false := by
    intro c
    simp [secondOf]
  rw [lossyGrowth, utf8Pieces_replicate decodeChar?_ff hs, List.map_replicate]
  induction n with
  | zero => rfl
  | succ n ih =>
    rw [List.replicate_succ, List.sum_cons, ih]
    simp only [Utf8Piece.growth]
    omega

end EgoBridge
