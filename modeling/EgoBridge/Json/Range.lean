import EgoBridge.Json.Value

/-!
# Json.Range

Which numbers the parser holds. An integer below `2 ^ 64` is kept. Any other number is read as a
double: the digits that fit into 64 bits, times a power of ten. One that is too large for a double
is refused; one that is too small becomes zero.

* `Number.inRange` — the parser's computation, the sign apart.
* `inRange_ofNat`  — an unsigned integer of 64 bits is in range.
* `InRange`        — a value all of whose numbers are.
-/

namespace EgoBridge
namespace Json

/-! ## Numbers -/

/-- The digits that go into a significand of 64 bits, and those that are left. -/
def takeSignificand (acc : Nat) : List Char → Nat × List Char
  | [] => (acc, [])
  | c :: cs =>
    if 10 * acc + (c.toNat - '0'.toNat) < 2 ^ 64 then
      takeSignificand (10 * acc + (c.toNat - '0'.toNat)) cs
    else (acc, c :: cs)

/-- The double nearest to a natural number, a tie going to the even significand. -/
def nearestDouble (n : Nat) : Nat :=
  let unit := 2 ^ (n.log2 - 52)
  let m := n / unit
  let rest := n % unit
  if 2 * rest < unit ∨ 2 * rest = unit ∧ m % 2 = 0 then m * unit else (m + 1) * unit

/-- `f64_from_parts`: a product that rounds to infinity is refused, a quotient never is. -/
def finiteParts (significand : Nat) (exponent : Int) : Bool :=
  significand = 0 || exponent < 0 ||
    exponent ≤ 308 &&
      nearestDouble significand * nearestDouble (10 ^ exponent.toNat) < 2 ^ 1024 - 2 ^ 970

/-- The significand and its power of ten, before the exponent that is written. -/
def Number.parts (n : Number) : Nat × Int :=
  let int := takeSignificand 0 n.int.chars
  match n.frac with
  | none => (int.1, int.2.length)
  | some d =>
    let frac := takeSignificand int.1 d.chars
    (frac.1, (int.2.length + frac.2.length : Int) - d.chars.length)

def Number.inRange (n : Number) : Bool :=
  match n.exp with
  | none =>
    n.frac.isNone && (takeSignificand 0 n.int.chars).2.isEmpty || finiteParts n.parts.1 n.parts.2
  | some (mark, d) =>
    if mark.plus = some false then 2 ^ 31 ≤ d.toNat || finiteParts n.parts.1 (n.parts.2 - d.toNat)
    -- an exponent that no `i32` holds
    else if 2 ^ 31 ≤ d.toNat then n.parts.1 = 0
    else finiteParts n.parts.1 (n.parts.2 + d.toNat)

theorem le_ofDigitChars (cs : List Char) (acc : Nat) : acc ≤ Nat.ofDigitChars 10 cs acc := by
  induction cs generalizing acc with
  | nil => simp
  | cons c cs ih =>
    have h := ih (10 * acc + (c.toNat - '0'.toNat))
    rw [Nat.ofDigitChars_cons]
    omega

theorem takeSignificand_of_lt {cs : List Char} {acc : Nat}
    (h : Nat.ofDigitChars 10 cs acc < 2 ^ 64) :
    takeSignificand acc cs = (Nat.ofDigitChars 10 cs acc, []) := by
  induction cs generalizing acc with
  | nil => simp [takeSignificand]
  | cons c cs ih =>
    rw [Nat.ofDigitChars_cons] at h ⊢
    have hle := le_ofDigitChars cs (10 * acc + (c.toNat - '0'.toNat))
    rw [takeSignificand, if_pos (by omega), ih h]

theorem Number.inRange_of_lt {n : Number} (hf : n.frac = none) (he : n.exp = none)
    (h : n.int.toNat < 2 ^ 64) : n.inRange = true := by
  simp [inRange, he, hf, takeSignificand_of_lt h]

theorem inRange_ofNat {n : Nat} (h : n < 2 ^ 64) : (Number.ofNat n).inRange = true :=
  Number.inRange_of_lt rfl rfl (by simpa [Number.ofNat] using h)

theorem inRange_ofInt {i : Int} (h : i.natAbs < 2 ^ 64) : (Number.ofInt i).inRange = true := by
  cases i with
  | ofNat n => exact inRange_ofNat h
  | negSucc n => exact Number.inRange_of_lt rfl rfl (by simpa [Number.ofInt] using h)

/-! ## Values -/

mutual
/-- Every number is one that the parser holds. -/
def InRange : Json → Prop
  | .num n => n.inRange = true
  | .arr vs => InRangeElems vs
  | .obj ms => InRangeMembers ms
  | _ => True

def InRangeElems : List Json → Prop
  | [] => True
  | v :: vs => InRange v ∧ InRangeElems vs

def InRangeMembers : List (String × Json) → Prop
  | [] => True
  | (_, v) :: ms => InRange v ∧ InRangeMembers ms
end

theorem inRangeElems_iff {vs : List Json} : InRangeElems vs ↔ ∀ v ∈ vs, InRange v := by
  induction vs with
  | nil => simp [InRangeElems]
  | cons v vs ih => simp [InRangeElems, ih]

theorem inRangeMembers_iff {ms : List (String × Json)} :
    InRangeMembers ms ↔ ∀ m ∈ ms, InRange m.2 := by
  induction ms with
  | nil => simp [InRangeMembers]
  | cons m ms ih => simp [InRangeMembers, ih]

end Json
end EgoBridge
