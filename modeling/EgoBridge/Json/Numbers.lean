import EgoBridge.Json.Decode
import Mathlib.Data.List.Induction

/-!
# Json.Numbers

An unsigned integer has one text: a number that reads as `n` is the one that is written for it.

* `toDigits_ofDigitChars` — digits without a leading zero are those of their value.
* `asU64_eq_some`         — so two values that read as the same integer are the same.
-/

namespace EgoBridge
namespace Json

theorem digitChar_of_isDigit {c : Char} (h : c.isDigit = true) :
    c.toNat - '0'.toNat < 10 ∧ Nat.digitChar (c.toNat - '0'.toNat) = c := by
  have hn : 48 ≤ c.toNat ∧ c.toNat ≤ 57 := by
    simp only [Char.isDigit, Bool.and_eq_true, decide_eq_true_eq] at h
    exact h
  have hall : ∀ n < 58, 48 ≤ n → n - '0'.toNat < 10 ∧ Nat.digitChar (n - '0'.toNat) = Char.ofNat n := by
    decide
  have hc := hall c.toNat (by omega) hn.1
  rwa [Char.ofNat_toNat] at hc

/-- Digits without a leading zero are those of their value. -/
theorem toDigits_ofDigitChars {cs : List Char} (hd : ∀ c ∈ cs, c.isDigit = true) (hne : cs ≠ [])
    (hz : cs = ['0'] ∨ cs.head? ≠ some '0') : Nat.toDigits 10 (Nat.ofDigitChars 10 cs 0) = cs := by
  induction cs using List.reverseRecOn with
  | nil => exact absurd rfl hne
  | append_singleton cs c ih =>
    obtain ⟨hlt, hc⟩ := digitChar_of_isDigit (hd c (by simp))
    have hv : Nat.ofDigitChars 10 (cs ++ [c]) 0 =
        10 * Nat.ofDigitChars 10 cs 0 + (c.toNat - '0'.toNat) := by
      rw [Nat.ofDigitChars_append, Nat.ofDigitChars_cons, Nat.ofDigitChars_nil]
    generalize c.toNat - '0'.toNat = k at hlt hc hv
    rw [hv]
    by_cases hcs : cs = []
    · subst hcs
      rw [Nat.ofDigitChars_nil, Nat.toDigits_eq_if (by decide), if_pos (by omega)]
      simpa using hc
    · have hhead : cs.head? ≠ some '0' := by
        rcases hz with hz | hz
        · cases cs with
          | nil => exact absurd rfl hcs
          | cons d ds => simp at hz
        · rwa [List.head?_append_of_ne_nil _ hcs] at hz
      have hrest := ih (fun d hd' => hd d (by simp [hd'])) hcs (.inr hhead)
      have hpos : 0 < Nat.ofDigitChars 10 cs 0 := by
        rcases Nat.eq_zero_or_pos (Nat.ofDigitChars 10 cs 0) with h0 | hpos
        · rw [h0, Nat.toDigits_zero] at hrest
          exact absurd (by rw [← hrest]; rfl) hhead
        · exact hpos
      rw [Nat.toDigits_eq_if (by decide), if_neg (by omega)]
      have hdiv : (10 * Nat.ofDigitChars 10 cs 0 + k) / 10 = Nat.ofDigitChars 10 cs 0 := by omega
      have hmod : (10 * Nat.ofDigitChars 10 cs 0 + k) % 10 = k := by omega
      rw [hdiv, hmod, hrest, hc]

theorem Digits.ofNat_toNat {d : Digits} (h : d.chars = ['0'] ∨ d.chars.head? ≠ some '0') :
    Digits.ofNat d.toNat = d := by
  have hc := toDigits_ofDigitChars d.all_digit d.ne_nil h
  cases d
  simp only [Digits.ofNat, Digits.toNat, Digits.mk.injEq] at hc ⊢
  exact hc

/-- An unsigned integer is written in one way. -/
theorem Number.ofNat_of_toNat? {n : Number} {k : Nat} (h : n.toNat? = some k) : n = .ofNat k := by
  unfold Number.toNat? at h
  split at h
  · cases h
  · rename_i hn
    simp only [not_or, Bool.not_eq_true, Option.isSome_eq_false_iff, Option.isNone_iff_eq_none] at hn
    obtain ⟨hneg, hfrac, hexp⟩ := hn
    obtain ⟨negative, int, frac, exp, hz⟩ := n
    simp only at hneg hfrac hexp h
    cases h
    subst hneg hfrac hexp
    simp only [Number.ofNat, Digits.ofNat_toNat hz]

theorem asU64_eq_some {v : Json} {n : UInt64} (h : asU64 v = some n) : v = ofU64 n := by
  obtain ⟨k, hk, hn⟩ := Option.map_eq_some_iff.mp h
  cases v with
  | num m =>
    rw [asNat] at hk
    obtain ⟨hm, hlt⟩ := Option.filter_eq_some_iff.mp hk
    have hlt' : k < 2 ^ 64 := of_decide_eq_true hlt
    rw [Number.ofNat_of_toNat? hm, ofU64, ofNat, ← hn, UInt64.toNat_ofNat_of_lt' hlt']
  | _ => cases hk

end Json
end EgoBridge
