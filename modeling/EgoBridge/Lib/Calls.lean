import EgoBridge.Lib.Run

/-!
# Lib.Calls

Any number of calls on shared state, interleaved section by section.

An `Object` says which calls may begin and what one atomic section of a call does: it changes the
shared state, and the call goes on with the rest (`some`) or returns (`none`). A `Config` is the
shared state with the calls in progress. `Object.system` runs all interleavings.

* `mem_of_advance`     — a call that did not move is still in progress.
* `mem_before_advance` — a call in progress after a step is the rest of the one that moved, or it
  was in progress before.
* `countP_advance`     — how a count of the calls changes as one of them moves.
-/

namespace EgoBridge
namespace Run

/-- `α` are the inputs a section reads, `σ` the shared state, `κ` the calls. -/
structure Object (α σ κ : Type) where
  init : σ → Prop
  start : κ → Prop
  sec : σ → κ → α → σ → Option κ → Prop

structure Config (σ κ : Type) where
  shared : σ
  calls : List κ

inductive Act (α κ : Type) where
  | spawn (k : κ)
  | advance (k : κ) (a : α)

variable {α σ κ : Type}

namespace Object

inductive Step (O : Object α σ κ) : Config σ κ → Act α κ → Config σ κ → Prop where
  | spawn {s : σ} {ks : List κ} {k : κ} : O.start k → Step O ⟨s, ks⟩ (.spawn k) ⟨s, k :: ks⟩
  | advance {s s' : σ} {l r : List κ} {k : κ} {a : α} {k' : Option κ} : O.sec s k a s' k' →
      Step O ⟨s, l ++ k :: r⟩ (.advance k a) ⟨s', l ++ k'.toList ++ r⟩

def system (O : Object α σ κ) : System (Act α κ) (Config σ κ) where
  init := fun c => O.init c.shared ∧ c.calls = []
  step := O.Step

theorem spawned {O : Object α σ κ} {s : σ} {ks : List κ} (h : O.system.Reachable ⟨s, ks⟩) {k : κ}
    (hk : O.start k) : O.system.Reachable ⟨s, k :: ks⟩ :=
  h.next (.spawn k) (.spawn hk)

/-- The call begun last runs its next section. -/
theorem advanced {O : Object α σ κ} {s s' : σ} {k : κ} {r : List κ} {k' : Option κ}
    (h : O.system.Reachable ⟨s, k :: r⟩) (a : α) (hs : O.sec s k a s' k') :
    O.system.Reachable ⟨s', k'.toList ++ r⟩ :=
  h.next (.advance k a) (.advance (l := []) hs)

theorem spawned_ok {O : Object α σ κ} {ok : Config σ κ → Act α κ → Prop} {s : σ} {ks : List κ}
    (h : (O.system.restrict ok).Reachable ⟨s, ks⟩) {k : κ} (hk : O.start k)
    (hok : ok ⟨s, ks⟩ (.spawn k)) : (O.system.restrict ok).Reachable ⟨s, k :: ks⟩ :=
  h.next (.spawn k) ⟨.spawn hk, hok⟩

theorem advanced_ok {O : Object α σ κ} {ok : Config σ κ → Act α κ → Prop} {s s' : σ} {k : κ}
    {r : List κ} {k' : Option κ} (h : (O.system.restrict ok).Reachable ⟨s, k :: r⟩) (a : α)
    (hs : O.sec s k a s' k') (hok : ok ⟨s, k :: r⟩ (.advance k a)) :
    (O.system.restrict ok).Reachable ⟨s', k'.toList ++ r⟩ :=
  h.next (.advance k a) ⟨.advance (l := []) hs, hok⟩

end Object

theorem mem_of_advance {l r : List κ} {k x : κ} (k' : Option κ) (h : x ∈ l ++ k :: r) :
    x = k ∨ x ∈ l ++ k'.toList ++ r := by
  simp only [List.mem_append, List.mem_cons] at h ⊢
  grind

theorem mem_advanced {l r : List κ} {k' x : κ} : x = k' → x ∈ l ++ (some k').toList ++ r := by
  intro h
  simp [h]

theorem mem_before_advance {l r : List κ} (k : κ) {k' : Option κ} {x : κ}
    (h : x ∈ l ++ k'.toList ++ r) : k' = some x ∨ x ∈ l ++ k :: r := by
  simp only [List.mem_append, List.mem_cons, Option.mem_toList] at h ⊢
  grind

theorem countP_advance (p : κ → Bool) (l r : List κ) (k : κ) (k' : Option κ) :
    (l ++ k'.toList ++ r).countP p + (p k).toNat = (l ++ k :: r).countP p + (k'.any p).toNat := by
  have hk : (l ++ k :: r).countP p = l.countP p + r.countP p + (p k).toNat := by
    rw [List.countP_append, List.countP_cons]
    cases p k with
    | false => simp
    | true =>
      simp
      omega
  have hk' : (l ++ k'.toList ++ r).countP p = l.countP p + r.countP p + (k'.any p).toNat := by
    rw [List.countP_append, List.countP_append]
    cases k' with
    | none => simp
    | some x =>
      cases h : p x with
      | false => simp [h]
      | true =>
        simp [h]
        omega
  omega

end Run
end EgoBridge
