import Mathlib.Data.List.Sort
import EgoBridge.Json.RoundTrip

/-!
# Json.Canonical

Canonical text and strict parsing, on bytes.

* `canonicalJson`         — compact text with the names of every object in order.
* `parseStrictJson`       — UTF-8, strict JSON, then a typed decoder.
* `parseStrictJson_canonical` — the decoder of a canonical text gets the sorted value.
* `lookup_canonical`      — sorting an object changes no lookup.
* `canonicalJson_injective` — a canonical text determines its sorted value.
-/

namespace EgoBridge
namespace Json

def keyLe (a b : String × Json) : Prop := a.1 ≤ b.1

instance : DecidableRel keyLe := fun a b => inferInstanceAs (Decidable (a.1 ≤ b.1))

mutual
/-- Recursively sorted object keys. -/
def canonicalValue : Json → Json
  | .null => .null
  | .bool b => .bool b
  | .num n => .num n
  | .str s => .str s
  | .arr vs => .arr (canonicalElems vs)
  | .obj ms => .obj ((canonicalMembers ms).insertionSort keyLe)

def canonicalElems : List Json → List Json
  | [] => []
  | v :: vs => canonicalValue v :: canonicalElems vs

def canonicalMembers : List (String × Json) → List (String × Json)
  | [] => []
  | (k, v) :: ms => (k, canonicalValue v) :: canonicalMembers ms
end

/-- Serialize a value using recursively sorted object keys. -/
def canonicalJson (v : Json) : Bytes := utf8 (String.ofList (render (canonicalValue v)))

/-- What stands before the first `mark`. -/
def cutBefore (mark : List Char) : List Char → List Char
  | [] => []
  | c :: cs => if mark.isPrefixOf (c :: cs) then [] else c :: cutBefore mark cs

/-- The key as it is cut out of the parser's message, which goes on with a source location. -/
def shownKey (key : String) : String :=
  String.ofList (cutBefore " at line ".toList (key ++ " at line ").toList)

def ParseError.reported : ParseError → ParseError
  | .duplicateKey key => .duplicateKey (shownKey key)
  | .invalid => .invalid
  | .trailingData => .trailingData

/-- Parse JSON while rejecting duplicate keys and trailing data. -/
def parseStrictJson {α : Type} (decode : Json → Option α) (bytes : Bytes) :
    Except ParseError α :=
  match parse (readText bytes) with
  | .error e => .error e.reported
  | .ok v =>
    match decode v with
    | none => .error .invalid
    | some a => .ok a

/-! ## Sorting -/

theorem canonicalElems_eq (vs : List Json) : canonicalElems vs = vs.map canonicalValue := by
  induction vs with
  | nil => rfl
  | cons v vs ih => rw [canonicalElems, ih, List.map_cons]

theorem canonicalMembers_eq (ms : List (String × Json)) :
    canonicalMembers ms = ms.map fun m => (m.1, canonicalValue m.2) := by
  induction ms with
  | nil => rfl
  | cons m ms ih => rw [canonicalMembers, ih, List.map_cons]

theorem canonical_perm (ms : List (String × Json)) :
    ((canonicalMembers ms).insertionSort keyLe).Perm
      (ms.map fun m => (m.1, canonicalValue m.2)) := by
  rw [canonicalMembers_eq]
  exact List.perm_insertionSort _ _

theorem canonical_keys (ms : List (String × Json)) :
    (((canonicalMembers ms).insertionSort keyLe).map Prod.fst).Perm (ms.map Prod.fst) := by
  have h := (canonical_perm ms).map Prod.fst
  simpa [Function.comp_def] using h

theorem mem_canonical {ms : List (String × Json)} {m : String × Json}
    (h : m ∈ (canonicalMembers ms).insertionSort keyLe) :
    ∃ m' ∈ ms, m = (m'.1, canonicalValue m'.2) := by
  have hm := (canonical_perm ms).mem_iff.mp h
  obtain ⟨m', hm', he⟩ := List.mem_map.mp hm
  exact ⟨m', hm', he.symm⟩

/-! ## Lookups -/

theorem lookup_of_mem {β : Type} {l : List (String × β)} {k : String} {v : β}
    (hn : (l.map Prod.fst).Nodup) (h : (k, v) ∈ l) : l.lookup k = some v := by
  induction l with
  | nil => cases h
  | cons m l ih =>
    obtain ⟨k', v'⟩ := m
    simp only [List.map_cons, List.nodup_cons] at hn
    cases List.mem_cons.mp h with
    | inl he => cases he; simp
    | inr hm =>
      have hne : k ≠ k' := by
        rintro rfl
        exact hn.1 (List.mem_map.mpr ⟨_, hm, rfl⟩)
      rw [List.lookup_cons, beq_false_of_ne hne]
      exact ih hn.2 hm

theorem mem_of_lookup {β : Type} {l : List (String × β)} {k : String} {v : β}
    (h : l.lookup k = some v) : (k, v) ∈ l := by
  induction l with
  | nil => cases h
  | cons m l ih =>
    obtain ⟨k', v'⟩ := m
    rw [List.lookup_cons] at h
    split at h
    · rename_i he
      cases h
      cases eq_of_beq he
      exact List.mem_cons_self
    · exact List.mem_cons_of_mem _ (ih h)

theorem lookup_perm {β : Type} {l l' : List (String × β)} (hp : l.Perm l')
    (hn : (l.map Prod.fst).Nodup) (k : String) : l.lookup k = l'.lookup k := by
  have hn' : (l'.map Prod.fst).Nodup := (hp.map Prod.fst).nodup_iff.mp hn
  cases h : l.lookup k with
  | some v => exact (lookup_of_mem hn' (hp.mem_iff.mp (mem_of_lookup h))).symm
  | none =>
    cases h' : l'.lookup k with
    | none => rfl
    | some v =>
      have := lookup_of_mem hn (hp.mem_iff.mpr (mem_of_lookup h'))
      rw [h] at this
      cases this

theorem lookup_map {β γ : Type} (f : β → γ) (l : List (String × β)) (k : String) :
    (l.map fun m => (m.1, f m.2)).lookup k = (l.lookup k).map f := by
  induction l with
  | nil => rfl
  | cons m l ih =>
    rw [List.map_cons, List.lookup_cons, List.lookup_cons]
    split
    · rfl
    · exact ih

theorem lookup_canonical {ms : List (String × Json)} (hn : (ms.map Prod.fst).Nodup) (k : String) :
    ((canonicalMembers ms).insertionSort keyLe).lookup k = (ms.lookup k).map canonicalValue := by
  rw [lookup_perm (canonical_perm ms) ((canonical_keys ms).nodup_iff.mpr hn), lookup_map]

/-! ## The canonical value is as strict and as shallow as the value -/

theorem strictElems_iff {vs : List Json} : StrictElems vs ↔ ∀ v ∈ vs, Strict v := by
  induction vs with
  | nil => simp [StrictElems]
  | cons v vs ih => simp [StrictElems, ih]

theorem strictMembers_iff {ms : List (String × Json)} :
    StrictMembers ms ↔ ∀ m ∈ ms, Strict m.2 := by
  induction ms with
  | nil => simp [StrictMembers]
  | cons m ms ih => simp [StrictMembers, ih]

theorem nestingElems_le_iff {vs : List Json} {d : Nat} :
    nestingElems vs ≤ d ↔ ∀ v ∈ vs, nesting v ≤ d := by
  induction vs with
  | nil => simp [nestingElems]
  | cons v vs ih => simp [nestingElems, ih]

theorem nestingMembers_le_iff {ms : List (String × Json)} {d : Nat} :
    nestingMembers ms ≤ d ↔ ∀ m ∈ ms, nesting m.2 ≤ d := by
  induction ms with
  | nil => simp [nestingMembers]
  | cons m ms ih => simp [nestingMembers, ih]

mutual
theorem canonicalValue_ok (v : Json) (hs : Strict v) :
    Strict (canonicalValue v) ∧ nesting (canonicalValue v) ≤ nesting v := by
  cases v with
  | arr vs =>
    have h := canonicalElems_ok vs (strictElems_iff.mp hs)
    refine ⟨strictElems_iff.mpr ?_, Nat.succ_le_succ (nestingElems_le_iff.mpr ?_)⟩
    · exact fun v hv => (h v hv).1
    · exact fun v hv => (h v hv).2
  | obj ms =>
    obtain ⟨hn, hs⟩ := hs
    have h := canonicalMembers_ok ms (strictMembers_iff.mp hs)
    refine ⟨⟨(canonical_keys ms).nodup_iff.mpr hn, strictMembers_iff.mpr ?_⟩,
      Nat.succ_le_succ (nestingMembers_le_iff.mpr ?_)⟩
    · exact fun m hm => (h m ((List.perm_insertionSort _ _).mem_iff.mp hm)).1
    · exact fun m hm => (h m ((List.perm_insertionSort _ _).mem_iff.mp hm)).2
  | null => exact ⟨trivial, Nat.le_refl _⟩
  | bool b => exact ⟨trivial, Nat.le_refl _⟩
  | num n => exact ⟨trivial, Nat.le_refl _⟩
  | str s => exact ⟨trivial, Nat.le_refl _⟩

theorem canonicalElems_ok (vs : List Json) (hs : ∀ v ∈ vs, Strict v) :
    ∀ v ∈ canonicalElems vs, Strict v ∧ nesting v ≤ nestingElems vs := by
  cases vs with
  | nil => exact fun v hv => by cases hv
  | cons x vs =>
    intro v hv
    simp only [nestingElems]
    cases List.mem_cons.mp hv with
    | inl he =>
      obtain ⟨h1, h2⟩ := canonicalValue_ok x (hs x List.mem_cons_self)
      rw [he]
      exact ⟨h1, by omega⟩
    | inr hv =>
      obtain ⟨h1, h2⟩ :=
        canonicalElems_ok vs (fun y hy => hs y (List.mem_cons_of_mem _ hy)) v hv
      exact ⟨h1, by omega⟩

theorem canonicalMembers_ok (ms : List (String × Json)) (hs : ∀ m ∈ ms, Strict m.2) :
    ∀ m ∈ canonicalMembers ms, Strict m.2 ∧ nesting m.2 ≤ nestingMembers ms := by
  cases ms with
  | nil => exact fun m hm => by cases hm
  | cons x ms =>
    obtain ⟨k, v⟩ := x
    intro m hm
    simp only [nestingMembers]
    cases List.mem_cons.mp hm with
    | inl he =>
      obtain ⟨h1, h2⟩ := canonicalValue_ok v (hs (k, v) List.mem_cons_self)
      rw [he]
      exact ⟨h1, by simp only; omega⟩
    | inr hm =>
      obtain ⟨h1, h2⟩ :=
        canonicalMembers_ok ms (fun y hy => hs y (List.mem_cons_of_mem _ hy)) m hm
      exact ⟨h1, by omega⟩
end

mutual
theorem canonicalValue_inRange (v : Json) (hn : InRange v) : InRange (canonicalValue v) := by
  cases v with
  | arr vs =>
    exact inRangeElems_iff.mpr (canonicalElems_inRange vs (inRangeElems_iff.mp hn))
  | obj ms =>
    have h := canonicalMembers_inRange ms (inRangeMembers_iff.mp hn)
    exact inRangeMembers_iff.mpr fun m hm =>
      h m ((List.perm_insertionSort _ _).mem_iff.mp hm)
  | null => trivial
  | bool b => trivial
  | num n => exact hn
  | str s => trivial

theorem canonicalElems_inRange (vs : List Json) (hn : ∀ v ∈ vs, InRange v) :
    ∀ v ∈ canonicalElems vs, InRange v := by
  cases vs with
  | nil => exact fun v hv => by cases hv
  | cons x vs =>
    intro v hv
    cases List.mem_cons.mp hv with
    | inl he =>
      rw [he]
      exact canonicalValue_inRange x (hn x List.mem_cons_self)
    | inr hv => exact canonicalElems_inRange vs (fun y hy => hn y (List.mem_cons_of_mem _ hy)) v hv

theorem canonicalMembers_inRange (ms : List (String × Json)) (hn : ∀ m ∈ ms, InRange m.2) :
    ∀ m ∈ canonicalMembers ms, InRange m.2 := by
  cases ms with
  | nil => exact fun m hm => by cases hm
  | cons x ms =>
    obtain ⟨k, v⟩ := x
    intro m hm
    cases List.mem_cons.mp hm with
    | inl he =>
      rw [he]
      exact canonicalValue_inRange v (hn (k, v) List.mem_cons_self)
    | inr hm =>
      exact canonicalMembers_inRange ms (fun y hy => hn y (List.mem_cons_of_mem _ hy)) m hm
end

/-- The decoder of a compact text gets its value. -/
theorem parseStrictJson_render {α : Type} {decode : Json → Option α} {v : Json} {a : α}
    (hs : Strict v) (hn : InRange v) (hd : nesting v < depthLimit) (h : decode v = some a) :
    parseStrictJson decode (utf8 (String.ofList (render v))) = .ok a := by
  simp only [parseStrictJson, readText_utf8, String.toList_ofList, parse_render hs hn hd, h]

/-- The decoder of a canonical text gets the sorted value. -/
theorem parseStrictJson_canonical {α : Type} {decode : Json → Option α} {v : Json} {a : α}
    (hs : Strict v) (hn : InRange v) (hd : nesting v < depthLimit)
    (h : decode (canonicalValue v) = some a) :
    parseStrictJson decode (canonicalJson v) = .ok a := by
  obtain ⟨hs', hd'⟩ := canonicalValue_ok v hs
  exact parseStrictJson_render hs' (canonicalValue_inRange v hn) (Nat.lt_of_le_of_lt hd' hd) h

/-- A canonical text determines its sorted value. -/
theorem canonicalJson_injective {v w : Json} (h : canonicalJson v = canonicalJson w) :
    canonicalValue v = canonicalValue w :=
  render_injective (String.ofList_injective (utf8_injective h))

theorem lookup_zip_inj {β : Type} {names : List String} (hn : names.Nodup) {vs ws : List β}
    (hv : vs.length = names.length) (hw : ws.length = names.length)
    (h : ∀ k, (names.zip vs).lookup k = (names.zip ws).lookup k) : vs = ws := by
  induction names generalizing vs ws with
  | nil => rw [List.length_eq_zero_iff.mp hv, List.length_eq_zero_iff.mp hw]
  | cons n names ih =>
    cases vs with
    | nil => cases hv
    | cons v vs =>
      cases ws with
      | nil => cases hw
      | cons w ws =>
        obtain ⟨hmem, hn⟩ := List.nodup_cons.mp hn
        have hvw := h n
        simp only [List.zip_cons_cons, List.lookup_cons, beq_self_eq_true,
          Option.some.injEq] at hvw
        rw [hvw, ih hn (Nat.succ.inj hv) (Nat.succ.inj hw) fun k => ?_]
        by_cases hk : k = n
        · subst hk
          -- the name is met once only, so neither rest has it
          have none_of : ∀ us : List β, (names.zip us).lookup k = none := by
            intro us
            refine List.lookup_eq_none_iff.mpr fun p hp => ?_
            have hne : k ≠ p.1 := fun he => hmem (he ▸ (List.of_mem_zip hp).1)
            simpa using hne
          rw [none_of vs, none_of ws]
        · have hrest := h k
          simpa only [List.zip_cons_cons, List.lookup_cons, beq_false_of_ne hk] using hrest

/-- Two objects with the same names and one canonical text have the same values. -/
theorem values_of_canonicalJson {names : List String} {vs ws : List Json}
    (hv : vs.length = names.length) (hw : ws.length = names.length)
    (hvs : Strict (.obj (names.zip vs))) (hws : Strict (.obj (names.zip ws)))
    (h : canonicalJson (.obj (names.zip vs)) = canonicalJson (.obj (names.zip ws))) :
    vs.map canonicalValue = ws.map canonicalValue := by
  have h1 := canonicalJson_injective h
  simp only [canonicalValue, obj.injEq] at h1
  have hn := hvs.1
  rw [List.map_fst_zip (Nat.le_of_eq hv.symm)] at hn
  refine lookup_zip_inj hn (by simp [hv]) (by simp [hw]) fun k => ?_
  have hl := lookup_canonical hvs.1 k
  rw [h1, lookup_canonical hws.1 k, ← lookup_map, ← lookup_map] at hl
  rw [List.zip_map_right, List.zip_map_right]
  exact hl.symm

end Json
end EgoBridge
