import EgoBridge.Lib.Utf8

/-!
# Json.Value

JSON values and their compact text.

* `Number` — a number as it is written: sign, integer digits, fraction, exponent. Its integer
  readings are `toNat?` and `toInt?`; fractions and exponents are carried as text.
* `Json`   — the values. An object is the list of its members in the order they are written.
* `render` — compact text: no whitespace, the short escapes, `\u00xx` for other control
  characters, everything else as it is.
-/

namespace EgoBridge
namespace Json

/-- A nonempty run of decimal digits. -/
structure Digits where
  chars : List Char
  ne_nil : chars ≠ []
  all_digit : ∀ c ∈ chars, c.isDigit = true
  deriving DecidableEq

/-- The `e` of an exponent, with the sign written after it. -/
structure ExpMark where
  upper : Bool
  plus : Option Bool
  deriving DecidableEq

def ExpMark.chars (m : ExpMark) : List Char :=
  (if m.upper then 'E' else 'e') ::
    (match m.plus with
      | none => []
      | some true => ['+']
      | some false => ['-'])

structure Number where
  negative : Bool
  int : Digits
  frac : Option Digits
  exp : Option (ExpMark × Digits)
  no_leading_zero : int.chars = ['0'] ∨ int.chars.head? ≠ some '0'
  deriving DecidableEq

def Digits.ofNat (n : Nat) : Digits where
  chars := Nat.toDigits 10 n
  ne_nil := Nat.toDigits_ne_nil
  all_digit := fun _ h => Nat.isDigit_of_mem_toDigits (by decide) (by decide) h

def Digits.toNat (d : Digits) : Nat := Nat.ofDigitChars 10 d.chars 0

@[simp] theorem Digits.toNat_ofNat (n : Nat) : (Digits.ofNat n).toNat = n :=
  Nat.ofDigitChars_ten_toDigits

theorem digitChar_ne_zero : ∀ d, d < 10 → 0 < d → Nat.digitChar d ≠ '0' := by
  decide

theorem toDigits_head (n : Nat) (hn : 0 < n) : (Nat.toDigits 10 n).head? ≠ some '0' := by
  induction n using Nat.strongRecOn with
  | ind n ih =>
    rw [Nat.toDigits_eq_if (by decide)]
    split
    · rename_i h
      have hd := digitChar_ne_zero n h hn
      simpa using hd
    · rename_i h
      have hlt := ih (n / 10) (by omega) (by omega)
      have hne : Nat.toDigits 10 (n / 10) ≠ [] := Nat.toDigits_ne_nil
      rwa [List.head?_append_of_ne_nil _ hne]

theorem Digits.ofNat_no_leading_zero (n : Nat) :
    (Digits.ofNat n).chars = ['0'] ∨ (Digits.ofNat n).chars.head? ≠ some '0' := by
  rcases Nat.eq_zero_or_pos n with rfl | hn
  · exact .inl (Nat.toDigits_zero 10)
  · exact .inr (toDigits_head n hn)

namespace Number

def ofNat (n : Nat) : Number := ⟨false, .ofNat n, none, none, Digits.ofNat_no_leading_zero n⟩

def ofInt : Int → Number
  | .ofNat n => ofNat n
  | .negSucc n => ⟨true, .ofNat (n + 1), none, none, Digits.ofNat_no_leading_zero (n + 1)⟩

/-- The value of an unsigned integer literal. A fraction or an exponent makes it a float. -/
def toNat? (n : Number) : Option Nat :=
  if n.negative ∨ n.frac.isSome ∨ n.exp.isSome then none else some n.int.toNat

/-- The value of an integer literal; `-0` is a float. -/
def toInt? (n : Number) : Option Int :=
  if n.frac.isSome ∨ n.exp.isSome then none
  else if n.negative then
    if n.int.toNat = 0 then none else some (-(n.int.toNat : Int))
  else some n.int.toNat

@[simp] theorem toNat?_ofNat (n : Nat) : (ofNat n).toNat? = some n := by
  simp [ofNat, toNat?]

@[simp] theorem toInt?_ofInt (i : Int) : (ofInt i).toInt? = some i := by
  cases i with
  | ofNat n => simp [ofInt, ofNat, toInt?]
  | negSucc n => simp [ofInt, toInt?]; omega

def render (n : Number) : List Char :=
  (if n.negative then ['-'] else []) ++ n.int.chars ++
    (match n.frac with
      | none => []
      | some d => '.' :: d.chars) ++
    (match n.exp with
      | none => []
      | some (m, d) => m.chars ++ d.chars)

end Number
end Json

inductive Json where
  | null
  | bool (b : Bool)
  | num (n : Json.Number)
  | str (s : String)
  | arr (vs : List Json)
  | obj (ms : List (String × Json))

namespace Json

/-! ## Text -/

def hexDigit (n : Nat) : Char :=
  if n < 10 then Char.ofNat (48 + n) else Char.ofNat (87 + n)

/-- One character of a string literal. -/
def escChar (c : Char) : List Char :=
  if c = '"' then ['\\', '"']
  else if c = '\\' then ['\\', '\\']
  else if c = '\x08' then ['\\', 'b']
  else if c = '\x0c' then ['\\', 'f']
  else if c = '\n' then ['\\', 'n']
  else if c = '\r' then ['\\', 'r']
  else if c = '\t' then ['\\', 't']
  else if c.toNat < 32 then
    ['\\', 'u', '0', '0', hexDigit (c.toNat / 16), hexDigit (c.toNat % 16)]
  else [c]

def escString (cs : List Char) : List Char := cs.flatMap escChar

def renderString (s : String) : List Char := '"' :: (escString s.toList ++ ['"'])

mutual
def render : Json → List Char
  | .null => ['n', 'u', 'l', 'l']
  | .bool true => ['t', 'r', 'u', 'e']
  | .bool false => ['f', 'a', 'l', 's', 'e']
  | .num n => n.render
  | .str s => renderString s
  | .arr [] => ['[', ']']
  | .arr (v :: vs) => '[' :: (render v ++ renderElems vs)
  | .obj [] => ['{', '}']
  | .obj ((k, v) :: ms) => '{' :: (renderString k ++ ':' :: (render v ++ renderMembers ms))

/-- What follows an array's first element. -/
def renderElems : List Json → List Char
  | [] => [']']
  | v :: vs => ',' :: (render v ++ renderElems vs)

/-- What follows an object's first member. -/
def renderMembers : List (String × Json) → List Char
  | [] => ['}']
  | (k, v) :: ms => ',' :: (renderString k ++ ':' :: (render v ++ renderMembers ms))
end

/-! ## Equality -/

mutual
/-- Whether two values are written alike. -/
def beq : Json → Json → Bool
  | .null, .null => true
  | .bool a, .bool b => a = b
  | .num m, .num n => m = n
  | .str s, .str t => s = t
  | .arr vs, .arr ws => beqElems vs ws
  | .obj ms, .obj ns => beqMembers ms ns
  | _, _ => false

def beqElems : List Json → List Json → Bool
  | [], [] => true
  | v :: vs, w :: ws => beq v w && beqElems vs ws
  | _, _ => false

def beqMembers : List (String × Json) → List (String × Json) → Bool
  | [], [] => true
  | (k, v) :: ms, (l, w) :: ns => k = l && beq v w && beqMembers ms ns
  | _, _ => false
end

mutual
theorem beq_iff (v w : Json) : beq v w = true ↔ v = w := by
  cases v with
  | arr vs => cases w <;> simp [beq, beqElems_iff vs]
  | obj ms => cases w <;> simp [beq, beqMembers_iff ms]
  | _ => cases w <;> simp [beq]

theorem beqElems_iff (vs ws : List Json) : beqElems vs ws = true ↔ vs = ws := by
  cases vs with
  | nil => cases ws <;> simp [beqElems]
  | cons v vs => cases ws <;> simp [beqElems, beq_iff v, beqElems_iff vs]

theorem beqMembers_iff (ms ns : List (String × Json)) : beqMembers ms ns = true ↔ ms = ns := by
  cases ms with
  | nil => cases ns <;> simp [beqMembers]
  | cons m ms =>
    obtain ⟨k, v⟩ := m
    cases ns with
    | nil => simp [beqMembers]
    | cons n ns => simp [beqMembers, beq_iff v, beqMembers_iff ms, Prod.ext_iff, and_assoc]
end

instance : DecidableEq Json := fun v w => decidable_of_iff _ (beq_iff v w)

end Json
end EgoBridge
