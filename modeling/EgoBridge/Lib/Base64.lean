import EgoBridge.Lib.Utf8

/-!
# Lib.Base64

The URL-safe base64 alphabet without padding. The decoder refuses a padding character, a lone
last symbol and bits left over after the last byte.

* `decode_encode` — the decoder inverts the encoder.
* `encode_length` — three bytes take four symbols.
-/

namespace EgoBridge
namespace Base64

/-- The symbol of a six-bit value. -/
def sym (n : Nat) : Char :=
  if n < 26 then Char.ofNat (65 + n)
  else if n < 52 then Char.ofNat (71 + n)
  else if n < 62 then Char.ofNat (n - 4)
  else if n = 62 then '-'
  else '_'

def val (c : Char) : Option Nat :=
  if 'A' ≤ c ∧ c ≤ 'Z' then some (c.toNat - 65)
  else if 'a' ≤ c ∧ c ≤ 'z' then some (c.toNat - 71)
  else if '0' ≤ c ∧ c ≤ '9' then some (c.toNat + 4)
  else if c = '-' then some 62
  else if c = '_' then some 63
  else none

def encode : Bytes → List Char
  | [] => []
  | [a] => [sym (a.toNat / 4), sym (a.toNat % 4 * 16)]
  | [a, b] =>
    [sym (a.toNat / 4), sym (a.toNat % 4 * 16 + b.toNat / 16), sym (b.toNat % 16 * 4)]
  | a :: b :: c :: r =>
    sym (a.toNat / 4) :: sym (a.toNat % 4 * 16 + b.toNat / 16) ::
      sym (b.toNat % 16 * 4 + c.toNat / 64) :: sym (c.toNat % 64) :: encode r

def decode : List Char → Option Bytes
  | [] => some []
  | [_] => none
  | [w, x] => do
    let w ← val w
    let x ← val x
    if x % 16 = 0 then some [UInt8.ofNat (w * 4 + x / 16)] else none
  | [w, x, y] => do
    let w ← val w
    let x ← val x
    let y ← val y
    if y % 4 = 0 then some [UInt8.ofNat (w * 4 + x / 16), UInt8.ofNat (x % 16 * 16 + y / 4)]
    else none
  | w :: x :: y :: z :: r => do
    let w ← val w
    let x ← val x
    let y ← val y
    let z ← val z
    let r ← decode r
    some (UInt8.ofNat (w * 4 + x / 16) :: UInt8.ofNat (x % 16 * 16 + y / 4) ::
      UInt8.ofNat (y % 4 * 64 + z) :: r)

/-! ## Symbols -/

theorem val_sym : ∀ n, n < 64 → val (sym n) = some n := by
  decide

/-! ## Round trips -/

theorem byte_ext {a : UInt8} {n : Nat} (h : n = a.toNat) : UInt8.ofNat n = a := by
  subst h
  exact UInt8.ofNat_toNat

@[simp] theorem decode_encode (bytes : Bytes) : decode (encode bytes) = some bytes := by
  induction bytes using encode.induct with
  | case1 => rfl
  | case2 a =>
    have ha := a.toNat_lt
    simp only [encode, decode, val_sym (a.toNat / 4) (by omega),
      val_sym (a.toNat % 4 * 16) (by omega), Option.bind_eq_bind, Option.bind_some]
    rw [if_pos (by omega), byte_ext (a := a) (by omega)]
  | case3 a b =>
    have ha := a.toNat_lt
    have hb := b.toNat_lt
    simp only [encode, decode, val_sym (a.toNat / 4) (by omega),
      val_sym (a.toNat % 4 * 16 + b.toNat / 16) (by omega),
      val_sym (b.toNat % 16 * 4) (by omega), Option.bind_eq_bind, Option.bind_some]
    rw [if_pos (by omega), byte_ext (a := a) (by omega), byte_ext (a := b) (by omega)]
  | case4 a b c r ih =>
    have ha := a.toNat_lt
    have hb := b.toNat_lt
    have hc := c.toNat_lt
    simp only [encode, decode, val_sym (a.toNat / 4) (by omega),
      val_sym (a.toNat % 4 * 16 + b.toNat / 16) (by omega),
      val_sym (b.toNat % 16 * 4 + c.toNat / 64) (by omega),
      val_sym (c.toNat % 64) (by omega), ih, Option.bind_eq_bind, Option.bind_some]
    rw [byte_ext (a := a) (by omega), byte_ext (a := b) (by omega), byte_ext (a := c) (by omega)]

theorem encode_length (bytes : Bytes) : (encode bytes).length = (4 * bytes.length + 2) / 3 := by
  induction bytes using encode.induct with
  | case1 => rfl
  | case2 a => simp [encode]
  | case3 a b => simp [encode]
  | case4 a b c r ih => simp only [encode, List.length_cons, ih]; omega

theorem mem_encode {bytes : Bytes} {c : Char} (h : c ∈ encode bytes) : ∃ n, n < 64 ∧ c = sym n := by
  induction bytes using encode.induct with
  | case1 => cases h
  | case2 a =>
    have ha := a.toNat_lt
    simp only [encode, List.mem_cons, List.not_mem_nil, or_false] at h
    rcases h with rfl | rfl
    · exact ⟨_, by omega, rfl⟩
    · exact ⟨_, by omega, rfl⟩
  | case3 a b =>
    have ha := a.toNat_lt
    have hb := b.toNat_lt
    simp only [encode, List.mem_cons, List.not_mem_nil, or_false] at h
    rcases h with rfl | rfl | rfl
    · exact ⟨_, by omega, rfl⟩
    · exact ⟨_, by omega, rfl⟩
    · exact ⟨_, by omega, rfl⟩
  | case4 a b c r ih =>
    have ha := a.toNat_lt
    have hb := b.toNat_lt
    have hc := c.toNat_lt
    simp only [encode, List.mem_cons] at h
    rcases h with rfl | rfl | rfl | rfl | h
    · exact ⟨_, by omega, rfl⟩
    · exact ⟨_, by omega, rfl⟩
    · exact ⟨_, by omega, rfl⟩
    · exact ⟨_, by omega, rfl⟩
    · exact ih h

end Base64
end EgoBridge
