import EgoBridge.Json.Canonical

/-!
# Json.Order

Values up to the order in which the members of their objects are written.

* `Same`                  — the same scalars, elements and members, member by member in any order.
* `canonicalValue_eq_iff` — sorting picks one value of each class.
* `canonicalJson_eq_iff`  — so the canonical text of a value is that of its class, and of no other.
* `canonical_form`        — what is read back from a canonical text is in the class, and prints
  alike.
-/

namespace EgoBridge
namespace Json

mutual
/-- Equal up to the order of members, at every depth. -/
def Same : Json → Json → Prop
  | .null, .null => True
  | .bool a, .bool b => a = b
  | .num m, .num n => m = n
  | .str s, .str t => s = t
  | .arr vs, .arr ws => SameElems vs ws
  | .obj ms, .obj ns => ∃ ns', ns'.Perm ns ∧ SameMembers ms ns'
  | _, _ => False

def SameElems : List Json → List Json → Prop
  | [], [] => True
  | v :: vs, w :: ws => Same v w ∧ SameElems vs ws
  | _, _ => False

/-- Equal names and values in one order. -/
def SameMembers : List (String × Json) → List (String × Json) → Prop
  | [], [] => True
  | (k, v) :: ms, (l, w) :: ns => k = l ∧ Same v w ∧ SameMembers ms ns
  | _, _ => False
end

/-! ## Sorting -/

instance : Std.Total keyLe := ⟨fun a b => le_total a.1 b.1⟩

instance : IsTrans (String × Json) keyLe := ⟨fun _ _ _ h h' => le_trans h h'⟩

/-- Members with different names have one sorted order. -/
theorem insertionSort_eq_of_perm {ms ns : List (String × Json)} (hp : ms.Perm ns)
    (hn : (ms.map Prod.fst).Nodup) : ms.insertionSort keyLe = ns.insertionSort keyLe := by
  have hperm : (ms.insertionSort keyLe).Perm (ns.insertionSort keyLe) :=
    ((List.perm_insertionSort _ ms).trans hp).trans (List.perm_insertionSort _ ns).symm
  refine hperm.eq_of_pairwise ?_ (List.pairwise_insertionSort _ ms)
    (List.pairwise_insertionSort _ ns)
  intro a b ha hb hab hba
  have ha' := (List.perm_insertionSort keyLe ms).mem_iff.mp ha
  have hb' := hp.mem_iff.mpr ((List.perm_insertionSort keyLe ns).mem_iff.mp hb)
  have hkey : a.1 = b.1 := le_antisymm hab hba
  have hval := lookup_of_mem hn (show (a.1, a.2) ∈ ms from ha')
  rw [hkey, lookup_of_mem hn (show (b.1, b.2) ∈ ms from hb')] at hval
  exact Prod.ext hkey (Option.some.inj hval).symm

/-- An order of the images is one of the elements. -/
theorem exists_perm_of_map {α β : Type} {f : α → β} {l : List β} {as : List α}
    (h : l.Perm (as.map f)) : ∃ as' : List α, as'.Perm as ∧ as'.map f = l := by
  induction as generalizing l with
  | nil =>
    cases h.eq_nil
    exact ⟨[], .nil, rfl⟩
  | cons a as ih =>
    obtain ⟨l1, l2, rfl⟩ := List.append_of_mem (h.mem_iff.mpr List.mem_cons_self)
    have hrest : (l1 ++ l2).Perm (as.map f) :=
      (List.perm_middle.symm.trans h).cons_inv
    obtain ⟨as', hperm, hmap⟩ := ih hrest
    obtain ⟨a1, a2, rfl, rfl, rfl⟩ := List.map_eq_append_iff.mp hmap
    refine ⟨a1 ++ a :: a2, List.perm_middle.trans (hperm.cons a), ?_⟩
    rw [List.map_append, List.map_cons]

/-! ## Sorted values and classes -/

mutual
theorem same_of_canonicalValue (v w : Json) (h : canonicalValue v = canonicalValue w) :
    Same v w := by
  cases v with
  | arr vs =>
    cases w with
    | arr ws => exact sameElems_of_canonicalElems vs ws (Json.arr.inj h)
    | _ => cases h
  | obj ms =>
    cases w with
    | obj ns =>
      have hsort := Json.obj.inj h
      have hperm : (canonicalMembers ms).Perm (ns.map fun m => (m.1, canonicalValue m.2)) :=
        (List.perm_insertionSort keyLe _).symm.trans (hsort ▸ canonical_perm ns)
      obtain ⟨ns', hp, hmap⟩ := exists_perm_of_map hperm
      rw [← canonicalMembers_eq] at hmap
      exact ⟨ns', hp, sameMembers_of_canonicalMembers ms ns' hmap.symm⟩
    | _ => cases h
  | _ => cases w <;> simp_all [canonicalValue, Same]

theorem sameElems_of_canonicalElems (vs ws : List Json)
    (h : canonicalElems vs = canonicalElems ws) : SameElems vs ws := by
  cases vs with
  | nil =>
    cases ws with
    | nil => trivial
    | cons w ws => cases h
  | cons v vs =>
    cases ws with
    | nil => cases h
    | cons w ws =>
      obtain ⟨hv, hvs⟩ := List.cons.inj h
      exact ⟨same_of_canonicalValue v w hv, sameElems_of_canonicalElems vs ws hvs⟩

theorem sameMembers_of_canonicalMembers (ms ns : List (String × Json))
    (h : canonicalMembers ms = canonicalMembers ns) : SameMembers ms ns := by
  cases ms with
  | nil =>
    cases ns with
    | nil => trivial
    | cons n ns => cases h
  | cons m ms =>
    obtain ⟨k, v⟩ := m
    cases ns with
    | nil => cases h
    | cons n ns =>
      obtain ⟨l, w⟩ := n
      obtain ⟨hm, hms⟩ := List.cons.inj h
      obtain ⟨hk, hv⟩ := Prod.mk.inj hm
      exact ⟨hk, same_of_canonicalValue v w hv, sameMembers_of_canonicalMembers ms ns hms⟩
end

mutual
theorem canonicalValue_of_same (v w : Json) (hw : Strict w) (h : Same v w) :
    canonicalValue v = canonicalValue w := by
  cases v with
  | arr vs =>
    cases w with
    | arr ws => exact congrArg Json.arr (canonicalElems_of_same vs ws hw h)
    | _ => cases h
  | obj ms =>
    cases w with
    | obj ns =>
      obtain ⟨ns', hp, hms⟩ := h
      obtain ⟨hn, hs⟩ := hw
      have hs' : StrictMembers ns' :=
        strictMembers_iff.mpr fun m hm => strictMembers_iff.mp hs m (hp.mem_iff.mp hm)
      have hn' : ((canonicalMembers ns').map Prod.fst).Nodup := by
        rw [canonicalMembers_eq, List.map_map]
        exact (hp.map Prod.fst).nodup_iff.mpr hn
      have hperm : (canonicalMembers ns').Perm (canonicalMembers ns) := by
        rw [canonicalMembers_eq, canonicalMembers_eq]
        exact hp.map _
      rw [canonicalValue, canonicalValue, canonicalMembers_of_same ms ns' hs' hms,
        insertionSort_eq_of_perm hperm hn']
    | _ => cases h
  | _ => cases w <;> simp_all [canonicalValue, Same]

theorem canonicalElems_of_same (vs ws : List Json) (hw : StrictElems ws) (h : SameElems vs ws) :
    canonicalElems vs = canonicalElems ws := by
  cases vs with
  | nil =>
    cases ws with
    | nil => rfl
    | cons w ws => cases h
  | cons v vs =>
    cases ws with
    | nil => cases h
    | cons w ws =>
      rw [canonicalElems, canonicalElems, canonicalValue_of_same v w hw.1 h.1,
        canonicalElems_of_same vs ws hw.2 h.2]

theorem canonicalMembers_of_same (ms ns : List (String × Json)) (hn : StrictMembers ns)
    (h : SameMembers ms ns) : canonicalMembers ms = canonicalMembers ns := by
  cases ms with
  | nil =>
    cases ns with
    | nil => rfl
    | cons n ns => cases h
  | cons m ms =>
    obtain ⟨k, v⟩ := m
    cases ns with
    | nil => cases h
    | cons n ns =>
      obtain ⟨l, w⟩ := n
      obtain ⟨rfl, hv, hms⟩ := h
      rw [canonicalMembers, canonicalMembers, canonicalValue_of_same v w hn.1 hv,
        canonicalMembers_of_same ms ns hn.2 hms]
end

/-- Sorting picks one value of each class. -/
theorem canonicalValue_eq_iff {v w : Json} (hw : Strict w) :
    canonicalValue v = canonicalValue w ↔ Same v w :=
  ⟨same_of_canonicalValue v w, canonicalValue_of_same v w hw⟩

mutual
theorem canonicalValue_idem (v : Json) : canonicalValue (canonicalValue v) = canonicalValue v := by
  cases v with
  | arr vs => exact congrArg Json.arr (canonicalElems_idem vs)
  | obj ms =>
    have hfix : canonicalMembers ((canonicalMembers ms).insertionSort keyLe) =
        (canonicalMembers ms).insertionSort keyLe := by
      rw [canonicalMembers_eq]
      refine (List.map_congr_left fun m hm => ?_).trans (List.map_id _)
      have hm' := (List.perm_insertionSort keyLe _).mem_iff.mp hm
      exact Prod.ext rfl (canonicalMembers_idem ms m hm')
    rw [canonicalValue, canonicalValue, hfix,
      (List.pairwise_insertionSort keyLe (canonicalMembers ms)).insertionSort_eq]
  | _ => rfl

theorem canonicalElems_idem (vs : List Json) :
    canonicalElems (canonicalElems vs) = canonicalElems vs := by
  cases vs with
  | nil => rfl
  | cons v vs =>
    rw [canonicalElems, canonicalElems, canonicalValue_idem v, canonicalElems_idem vs]

theorem canonicalMembers_idem (ms : List (String × Json)) :
    ∀ m ∈ canonicalMembers ms, canonicalValue m.2 = m.2 := by
  cases ms with
  | nil => exact nofun
  | cons m ms =>
    obtain ⟨k, v⟩ := m
    intro m hm
    cases List.mem_cons.mp hm with
    | inl he =>
      rw [he]
      exact canonicalValue_idem v
    | inr hm => exact canonicalMembers_idem ms m hm
end

/-! ## Canonical texts -/

/-- The texts of two values agree where the values differ in the order of members only. -/
theorem canonicalJson_eq_iff {v w : Json} (hw : Strict w) :
    canonicalJson v = canonicalJson w ↔ Same v w := by
  rw [← canonicalValue_eq_iff hw]
  constructor
  · exact canonicalJson_injective
  · intro h
    rw [canonicalJson, canonicalJson, h]

theorem canonicalJson_canonicalValue (v : Json) :
    canonicalJson (canonicalValue v) = canonicalJson v := by
  rw [canonicalJson, canonicalValue_idem, canonicalJson]

/-- A canonical text is one of a value's class alone, and parses into the class where the parser
holds the value's numbers. -/
theorem canonical_form {v w : Json} (hv : Strict v) (hw : Strict w) :
    (canonicalJson v = canonicalJson w ↔ Same v w) ∧
      (InRange v → nesting v < depthLimit →
        ∃ u, parseStrictJson some (canonicalJson v) = .ok u ∧ Same v u ∧
          canonicalJson u = canonicalJson v) := by
  refine ⟨canonicalJson_eq_iff hw, fun hn hd => ?_⟩
  have hs := (canonicalValue_ok v hv).1
  refine ⟨canonicalValue v, parseStrictJson_canonical hv hn hd rfl, ?_, ?_⟩
  · exact (canonicalValue_eq_iff hs).mp (canonicalValue_idem v).symm
  · exact canonicalJson_canonicalValue v

/-- Two orders of one object. -/
theorem canonical_form_sample :
    canonicalJson
        (.obj [("z", .num (.ofNat 7)), ("a", .obj [("d", .bool true), ("c", .arr [])])]) =
          canonicalJson
            (.obj [("a", .obj [("c", .arr []), ("d", .bool true)]), ("z", .num (.ofNat 7))]) ∧
      ∃ u, parseStrictJson some (canonicalJson
        (.obj [("z", .num (.ofNat 7)), ("a", .obj [("d", .bool true), ("c", .arr [])])])) = .ok u ∧
          canonicalJson u = canonicalJson
            (.obj [("z", .num (.ofNat 7)), ("a", .obj [("d", .bool true), ("c", .arr [])])]) := by
  have h := canonical_form
    (v := .obj [("z", .num (.ofNat 7)), ("a", .obj [("d", .bool true), ("c", .arr [])])])
    (w := .obj [("a", .obj [("c", .arr []), ("d", .bool true)]), ("z", .num (.ofNat 7))])
    (by simp [Strict, StrictMembers, StrictElems]) (by simp [Strict, StrictMembers, StrictElems])
  obtain ⟨u, hp, -, hu⟩ := h.2
    (by simp [InRange, InRangeMembers, InRangeElems, inRange_ofNat])
    (by simp [nesting, nestingMembers, nestingElems, depthLimit])
  refine ⟨h.1.mpr ⟨_, List.Perm.swap _ _ _, ?_⟩, u, hp, hu⟩
  exact ⟨rfl, rfl, rfl, ⟨_, List.Perm.swap _ _ _, rfl, rfl, rfl, trivial, trivial⟩, trivial⟩

end Json
end EgoBridge
