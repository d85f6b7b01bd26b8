import Mathlib.Data.List.Nodup
import Mathlib.Data.List.Flatten
import EgoBridge.Lib.Files

/-!
# Lib.Tree

A file tree that does not change, and walking it with a worklist of directories.

* `Tree.at?`, `nodes` — what is at a path, and everything below a directory with its path.
* `Distinct`         — no directory has a name twice; then `nodes` and `Tree.at?` agree.
* `walk`             — take a directory, visit its entries, put its subdirectories on the list.
* `walk_eq`          — the walk visits what is below, in an order that does not depend on the visitor:
  it ends on every tree, and a visitor is verified on a list.
-/

namespace EgoBridge
namespace Files

structure Meta where
  links : Nat
  owned : Bool
  writable : Bool
  deriving DecidableEq

inductive Tree where
  | file (m : Meta) (bytes : Bytes)
  | directory (m : Meta) (entries : List (Name × Tree))
  | symlink
  | special

namespace Tree

def isDirectory : Tree → Bool
  | .directory _ _ => true
  | _ => false

def isSymlink : Tree → Bool
  | .symlink => true
  | _ => false

def entries : Tree → List (Name × Tree)
  | .directory _ es => es
  | _ => []

/-- What is at a path below `t`. -/
def at? (t : Tree) : List Name → Option Tree
  | [] => some t
  | n :: rest => (t.entries.lookup n).bind fun s => s.at? rest

/-- Everything below a directory whose own path is `p`. -/
def nodes (p : List Name) : Tree → List (List Name × Tree)
  | .directory _ es => nodesAll p es
  | _ => []
where
  nodesAll (p : List Name) : List (Name × Tree) → List (List Name × Tree)
    | [] => []
    | (n, t) :: es => (p ++ [n], t) :: (nodes (p ++ [n]) t ++ nodesAll p es)

/-- No directory has a name twice. -/
def Distinct : Tree → Prop
  | .directory _ es => (es.map Prod.fst).Nodup ∧ all es
  | _ => True
where
  all : List (Name × Tree) → Prop
    | [] => True
    | (_, t) :: es => Distinct t ∧ all es

def size : Tree → Nat
  | .directory _ es => sizeAll es + 1
  | _ => 1
where
  sizeAll : List (Name × Tree) → Nat
    | [] => 0
    | (_, t) :: es => size t + sizeAll es

/-- Every name is one a directory can hold. -/
def Named (t : Tree) : Prop := ∀ p s, t.at? p = some s → ∀ n ∈ p, n.Proper

/-- The tree with every write bit taken away. -/
def readOnly : Tree → Tree
  | .file m bytes => .file { m with writable := false } bytes
  | .directory m es => .directory { m with writable := false } (all es)
  | .symlink => .symlink
  | .special => .special
where
  all : List (Name × Tree) → List (Name × Tree)
    | [] => []
    | (n, t) :: es => (n, readOnly t) :: all es

theorem readOnly_all (es : List (Name × Tree)) :
    readOnly.all es = es.map fun e => (e.1, e.2.readOnly) := by
  induction es with
  | nil => rfl
  | cons e es ih => rw [readOnly.all, ih, List.map_cons]

theorem entries_readOnly (t : Tree) :
    t.readOnly.entries = t.entries.map fun e => (e.1, e.2.readOnly) := by
  cases t with
  | directory m es => exact readOnly_all es
  | _ => rfl

theorem lookup_map_snd (es : List (Name × Tree)) (f : Tree → Tree) (n : Name) :
    (es.map fun e => (e.1, f e.2)).lookup n = (es.lookup n).map f := by
  induction es with
  | nil => rfl
  | cons e es ih =>
    rw [List.map_cons, List.lookup_cons, List.lookup_cons, ih]
    cases n == e.1 with
    | true => rfl
    | false => rfl

theorem readOnly_at (t : Tree) (p : List Name) : t.readOnly.at? p = (t.at? p).map readOnly := by
  induction p generalizing t with
  | nil => rfl
  | cons n p ih =>
    rw [at?, at?, entries_readOnly, lookup_map_snd]
    cases t.entries.lookup n with
    | none => rfl
    | some s => exact ih s

mutual
theorem distinct_readOnly {t : Tree} (h : t.Distinct) : t.readOnly.Distinct := by
  cases t with
  | directory m es =>
    refine ⟨?_, distinct_readOnly_all h.2⟩
    rw [readOnly_all, List.map_map]
    exact h.1
  | _ => trivial

theorem distinct_readOnly_all {es : List (Name × Tree)} (h : Distinct.all es) :
    Distinct.all (readOnly.all es) := by
  cases es with
  | nil => trivial
  | cons e es =>
    obtain ⟨n, t⟩ := e
    exact ⟨distinct_readOnly h.1, distinct_readOnly_all h.2⟩
end

/-! ## What is below -/

theorem distinct_all {es : List (Name × Tree)} (h : Distinct.all es) : ∀ e ∈ es, e.2.Distinct := by
  induction es with
  | nil => exact nofun
  | cons e es ih =>
    intro f hf
    rcases List.mem_cons.mp hf with rfl | hf
    · exact h.1
    · exact ih h.2 f hf

theorem nodesAll_perm (p : List Name) (es : List (Name × Tree)) :
    (nodes.nodesAll p es).Perm
      (es.map (fun e => (p ++ [e.1], e.2)) ++ es.flatMap fun e => nodes (p ++ [e.1]) e.2) := by
  induction es with
  | nil => exact .refl _
  | cons e es ih =>
    rw [nodes.nodesAll, List.map_cons, List.cons_append, List.flatMap_cons]
    refine .cons _ ?_
    refine (ih.append_left _).trans ?_
    rw [← List.append_assoc, ← List.append_assoc]
    exact List.perm_append_comm.append_right _

theorem lookup_of_nodup {es : List (Name × Tree)} (h : (es.map Prod.fst).Nodup) {n : Name} {t : Tree} :
    es.lookup n = some t ↔ (n, t) ∈ es := by
  induction es with
  | nil => simp
  | cons e es ih =>
    obtain ⟨m, s⟩ := e
    rw [List.map_cons, List.nodup_cons] at h
    rw [List.lookup_cons]
    by_cases he : n = m
    · subst he
      have hnot : (n, t) ∉ es := fun hm => h.1 (List.mem_map.mpr ⟨_, hm, rfl⟩)
      simp [hnot, eq_comm]
    · simp [he, beq_false_of_ne he, ih h.2]

theorem at_append (t : Tree) (p q : List Name) : t.at? (p ++ q) = (t.at? p).bind fun s => s.at? q := by
  induction p generalizing t with
  | nil => rfl
  | cons n p ih =>
    simp only [List.cons_append, at?]
    cases t.entries.lookup n with
    | none => rfl
    | some s => simpa using ih s

theorem distinct_at {t : Tree} (h : t.Distinct) {p : List Name} {s : Tree} (hs : t.at? p = some s) :
    s.Distinct := by
  induction p generalizing t with
  | nil =>
    cases hs
    exact h
  | cons n p ih =>
    rw [at?, Option.bind_eq_some_iff] at hs
    obtain ⟨u, hu, hs⟩ := hs
    cases t with
    | directory m es =>
      obtain ⟨l₁, l₂, rfl, -⟩ := List.lookup_eq_some_iff.mp hu
      exact ih (distinct_all h.2 (n, u) (by simp)) hs
    | _ => cases hu

mutual
/-- What is below a directory is what there is at the longer paths. -/
theorem mem_nodes {t : Tree} (h : t.Distinct) {p q : List Name} {s : Tree} :
    (q, s) ∈ t.nodes p ↔ ∃ r, r ≠ [] ∧ q = p ++ r ∧ t.at? r = some s := by
  cases t with
  | directory m es =>
    rw [nodes, mem_nodesAll_at h.2]
    constructor
    · rintro ⟨e, he, r, rfl, hr⟩
      refine ⟨e.1 :: r, List.cons_ne_nil _ _, rfl, ?_⟩
      rw [at?, entries, (lookup_of_nodup h.1).mpr he]
      exact hr
    · rintro ⟨r, hne, rfl, hr⟩
      cases r with
      | nil => exact absurd rfl hne
      | cons n r =>
        rw [at?, entries, Option.bind_eq_some_iff] at hr
        obtain ⟨u, hu, hr⟩ := hr
        exact ⟨(n, u), (lookup_of_nodup h.1).mp hu, r, rfl, hr⟩
  | _ =>
    refine ⟨nofun, ?_⟩
    rintro ⟨r, hne, -, hr⟩
    cases r with
    | nil => exact absurd rfl hne
    | cons n r => simp [at?, entries] at hr

theorem mem_nodesAll_at {es : List (Name × Tree)} (h : Distinct.all es) {p q : List Name}
    {s : Tree} :
    (q, s) ∈ nodes.nodesAll p es ↔ ∃ e ∈ es, ∃ r, q = p ++ e.1 :: r ∧ e.2.at? r = some s := by
  cases es with
  | nil => simp [nodes.nodesAll]
  | cons e es =>
    obtain ⟨n, t⟩ := e
    rw [nodes.nodesAll, List.mem_cons, List.mem_append, mem_nodes h.1, mem_nodesAll_at h.2]
    simp only [List.mem_cons, exists_eq_or_imp]
    rw [← or_assoc]
    refine or_congr ?_ Iff.rfl
    constructor
    · rintro (he | ⟨r, -, rfl, hr⟩)
      · cases he
        exact ⟨[], rfl, rfl⟩
      · exact ⟨r, by simp, hr⟩
    · rintro ⟨r, rfl, hr⟩
      cases r with
      | nil =>
        cases hr
        exact .inl rfl
      | cons m r => exact .inr ⟨m :: r, List.cons_ne_nil _ _, by simp, hr⟩
end

mutual
/-- Every node has a path of its own. -/
theorem nodup_nodes {t : Tree} (h : t.Distinct) (p : List Name) : ((t.nodes p).map Prod.fst).Nodup := by
  cases t with
  | directory m es => exact nodup_nodesAll h.1 h.2 p
  | _ => exact List.nodup_nil

theorem nodup_nodesAll {es : List (Name × Tree)} (hn : (es.map Prod.fst).Nodup)
    (h : Distinct.all es) (p : List Name) : ((nodes.nodesAll p es).map Prod.fst).Nodup := by
  cases es with
  | nil => exact List.nodup_nil
  | cons e es =>
    obtain ⟨n, t⟩ := e
    rw [List.map_cons, List.nodup_cons] at hn
    have hother : ∀ x ∈ nodes.nodesAll p es, ∀ r, x.1 ≠ p ++ n :: r := by
      rintro ⟨q, s⟩ hx r rfl
      obtain ⟨e, he, r', hq, -⟩ := (mem_nodesAll_at h.2).mp hx
      have := List.append_cancel_left hq
      simp only [List.cons.injEq] at this
      exact hn.1 (List.mem_map.mpr ⟨e, he, this.1.symm⟩)
    rw [nodes.nodesAll, List.map_cons, List.map_append, List.nodup_cons, List.nodup_append]
    refine ⟨?_, nodup_nodes h.1 _, nodup_nodesAll hn.2 h.2 p, ?_⟩
    · intro hm
      rcases List.mem_append.mp hm with hm | hm
      · obtain ⟨⟨q, s⟩, hx, rfl⟩ := List.mem_map.mp hm
        obtain ⟨r, hne, hq, -⟩ := (mem_nodes h.1).mp hx
        exact hne (List.self_eq_append_right.mp hq)
      · obtain ⟨x, hx, he⟩ := List.mem_map.mp hm
        exact hother x hx [] he
    · intro a ha b hb hab
      obtain ⟨⟨q, s⟩, hx, rfl⟩ := List.mem_map.mp ha
      obtain ⟨y, hy, rfl⟩ := List.mem_map.mp hb
      obtain ⟨r, -, hq, -⟩ := (mem_nodes h.1).mp hx
      exact hother y hy r (by rw [← hab]; simpa using hq)
end

/-! ## Walking -/

/-- The subdirectories of a directory go on the list, the last one first. -/
def push (p : List Name) (es : List (Name × Tree)) (stack : List (List Name × List (Name × Tree))) :
    List (List Name × List (Name × Tree)) :=
  match es with
  | [] => stack
  | (n, .directory _ sub) :: es => push p es ((p ++ [n], sub) :: stack)
  | _ :: es => push p es stack

def stackSize (stack : List (List Name × List (Name × Tree))) : Nat :=
  (stack.map fun d => size.sizeAll d.2 + 1).sum

theorem stackSize_push (p : List Name) (es : List (Name × Tree))
    (stack : List (List Name × List (Name × Tree))) :
    stackSize (push p es stack) ≤ size.sizeAll es + stackSize stack := by
  induction es generalizing stack with
  | nil => simp [push, size.sizeAll]
  | cons e es ih =>
    obtain ⟨n, t⟩ := e
    cases t with
    | directory m sub =>
      rw [push]
      refine (ih _).trans ?_
      simp only [stackSize, List.map_cons, List.sum_cons, size.sizeAll, size]
      omega
    | _ =>
      rw [push]
      · refine (ih _).trans ?_
        simp only [size.sizeAll]
        omega
      · exact nofun

theorem sizeAll_perm {es es' : List (Name × Tree)} (h : es.Perm es') :
    size.sizeAll es = size.sizeAll es' := by
  induction h with
  | nil => rfl
  | cons x _ ih => simp only [size.sizeAll, ih]
  | swap x y l =>
    simp only [size.sizeAll]
    omega
  | trans _ _ ih1 ih2 => exact ih1.trans ih2

/-- How a directory's entries are ordered before they are visited. -/
structure Arrangement where
  arrange : List (Name × Tree) → List (Name × Tree)
  perm : ∀ es, (arrange es).Perm es

/-- The order of the file system. -/
def Arrangement.asRead : Arrangement := ⟨id, fun _ => .refl _⟩

section Walk

variable {ε σ : Type} (a : Arrangement)

/-- The worklist loop: `visit` sees every entry of every directory taken from the list. -/
def walk (visit : σ → List Name × Tree → Except ε σ) :
    List (List Name × List (Name × Tree)) → σ → Except ε σ
  | [], s => .ok s
  | (p, es) :: stack, s => do
    let s ← ((a.arrange es).map fun e => (p ++ [e.1], e.2)).foldlM visit s
    walk visit (push p (a.arrange es) stack) s
termination_by stack _ => stackSize stack
decreasing_by
  have h1 := stackSize_push p (a.arrange es) stack
  rw [sizeAll_perm (a.perm es)] at h1
  simp only [stackSize, List.map_cons, List.sum_cons] at h1 ⊢
  omega

/-- The order in which the walk visits. -/
def order : List (List Name × List (Name × Tree)) → List (List Name × Tree)
  | [] => []
  | (p, es) :: stack =>
    (a.arrange es).map (fun e => (p ++ [e.1], e.2)) ++ order (push p (a.arrange es) stack)
termination_by stack => stackSize stack
decreasing_by
  have h1 := stackSize_push p (a.arrange es) stack
  rw [sizeAll_perm (a.perm es)] at h1
  simp only [stackSize, List.map_cons, List.sum_cons] at h1 ⊢
  omega

/-- The walk is a fold over one fixed order. -/
theorem walk_eq (visit : σ → List Name × Tree → Except ε σ)
    (stack : List (List Name × List (Name × Tree))) (s : σ) :
    walk a visit stack s = (order a stack).foldlM visit s := by
  induction stack using order.induct a generalizing s with
  | case1 =>
    rw [walk, order, List.foldlM_nil]
    rfl
  | case2 p es stack ih =>
    rw [walk, order, List.foldlM_append]
    refine bind_congr ?_
    intro s'
    exact ih s'

theorem push_perm (p : List Name) (es : List (Name × Tree))
    (stack : List (List Name × List (Name × Tree))) :
    ((push p es stack).flatMap fun d => nodes.nodesAll d.1 d.2).Perm
      ((es.flatMap fun e => nodes (p ++ [e.1]) e.2) ++
        stack.flatMap fun d => nodes.nodesAll d.1 d.2) := by
  induction es generalizing stack with
  | nil => exact .refl _
  | cons e es ih =>
    obtain ⟨n, t⟩ := e
    cases t with
    | directory m sub =>
      rw [push]
      refine (ih _).trans ?_
      rw [List.flatMap_cons, List.flatMap_cons, nodes, ← List.append_assoc]
      exact List.perm_append_comm.append_right _
    | _ =>
      rw [push]
      · refine (ih _).trans ?_
        simp [nodes]
      · exact nofun

/-- The walk visits everything below, once. -/
theorem order_perm (stack : List (List Name × List (Name × Tree))) :
    (order a stack).Perm (stack.flatMap fun d => nodes.nodesAll d.1 d.2) := by
  induction stack using order.induct a with
  | case1 => simp [order]
  | case2 p es stack ih =>
    rw [order, List.flatMap_cons]
    have h1 := (a.perm es).map fun e : Name × Tree => (p ++ [e.1], e.2)
    have h2 := (a.perm es).flatMap_right fun e : Name × Tree => nodes (p ++ [e.1]) e.2
    have h3 := (push_perm p (a.arrange es) stack).trans (h2.append_right _)
    refine (h1.append (ih.trans h3)).trans ?_
    rw [← List.append_assoc]
    exact (nodesAll_perm p es).symm.append_right _

end Walk
end Tree
end Files
end EgoBridge
