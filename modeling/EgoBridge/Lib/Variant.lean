import EgoBridge.Lib.Run

/-!
# Lib.Variant

Runs of a system in which some steps count, and how many of them there can be.

* `Counted`       — a run, with the number of its steps that count.
* `Counted.bound` — a variant that no step raises, and that each step that counts lowers, bounds
  their number. The invariant it may rest on is carried along.
-/

namespace EgoBridge
namespace Run

variable {α σ : Type}

inductive Counted (S : System α σ) (counts : α → Bool) (s : σ) : Nat → σ → Prop where
  | refl : Counted S counts s 0 s
  | tail {n : Nat} {s' s'' : σ} {a : α} : Counted S counts s n s' → S.step s' a s'' →
      Counted S counts s (n + (counts a).toNat) s''

namespace Counted

variable {S : System α σ} {counts : α → Bool} {s s' : σ} {n : Nat}

theorem bound {I : σ → Prop} {v : σ → Nat} (hI : ∀ s a s', I s → S.step s a s' → I s')
    (hv : ∀ s a s', I s → S.step s a s' → v s' + (counts a).toNat ≤ v s) (h0 : I s)
    (h : Counted S counts s n s') : I s' ∧ n + v s' ≤ v s := by
  induction h with
  | refl => exact ⟨h0, by simp⟩
  | tail _ hst ih =>
    obtain ⟨hi, hle⟩ := ih
    have hlt := hv _ _ _ hi hst
    exact ⟨hI _ _ _ hi hst, by omega⟩

theorem snoc {s'' : σ} (h : Counted S counts s n s') (a : α) (hst : S.step s' a s'')
    (hc : counts a = true) : Counted S counts s (n + 1) s'' := by
  have hn := h.tail hst
  rwa [hc] at hn

/-- What a run from a reachable state comes to is reachable. -/
theorem reachable {T : System α σ} (hT : ∀ s a s', S.step s a s' → T.step s a s')
    (h0 : T.Reachable s) (h : Counted S counts s n s') : T.Reachable s' := by
  induction h with
  | refl => exact h0
  | tail _ hst ih => exact ih.next _ (hT _ _ _ hst)

end Counted

end Run
end EgoBridge
