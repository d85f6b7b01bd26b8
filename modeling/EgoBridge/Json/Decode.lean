import EgoBridge.Json.Canonical

/-!
# Json.Decode

Typed readings of a JSON value, as derived deserializers make them.

A record is read from an object whose names are all known, or from an array that gives its fields
in the order they are declared; a missing name is an error unless the field is optional. A variant
without data is read from its name, or from an object with its name and `null`.

* `Codec`     — a writer with the reader that gets its value back through canonical text.
* `fields_canonical` — what a record's reader sees of a canonical object.
-/

namespace EgoBridge
namespace Json

/-! ## Readers -/

def asString : Json → Option String
  | .str s => some s
  | _ => none

def asBoolean : Json → Option Bool
  | .bool b => some b
  | _ => none

/-- An unsigned integer below `2 ^ bits`. -/
def asNat (bits : Nat) : Json → Option Nat
  | .num n => n.toNat?.filter (fun k => k < 2 ^ bits)
  | _ => none

def asU64 (v : Json) : Option UInt64 := (asNat 64 v).map UInt64.ofNat

def asU32 (v : Json) : Option UInt32 := (asNat 32 v).map UInt32.ofNat

/-- `usize`. -/
def asUsize (v : Json) : Option Nat := asNat 64 v

def asI32 : Json → Option Int32
  | .num n => (n.toInt?.filter (fun k => -2 ^ 31 ≤ k ∧ k < 2 ^ 31)).map Int32.ofInt
  | _ => none

def asOption {α : Type} (read : Json → Option α) : Json → Option (Option α)
  | .null => some none
  | v => (read v).map some

def asVariant {α : Type} (table : List (String × α)) : Json → Option α
  | .str s => table.lookup s
  | .obj [(s, .null)] => table.lookup s
  | _ => none

def asList {α : Type} (read : Json → Option α) : Json → Option (List α)
  | .arr vs => vs.mapM read
  | _ => none

/-- The members a record's reader sees, for the names it declares. -/
def fields (names : List String) : Json → Option (List (String × Json))
  | .obj ms => if ms.all (fun m => m.1 ∈ names) then some ms else none
  | .arr vs => if vs.length = names.length then some (names.zip vs) else none
  | _ => none

def required {α : Type} (ms : List (String × Json)) (name : String) (read : Json → Option α) :
    Option α :=
  (ms.lookup name).bind read

def optional {α : Type} (ms : List (String × Json)) (name : String) (read : Json → Option α) :
    Option (Option α) :=
  match ms.lookup name with
  | none => some none
  | some v => asOption read v

/-- A member that may be left out, with a value of its own. -/
def byDefault {α : Type} (ms : List (String × Json)) (name : String) (read : Json → Option α)
    (a : α) : Option α :=
  match ms.lookup name with
  | none => some a
  | some v => read v

/-! ## Writers -/

def ofNat (n : Nat) : Json := .num (.ofNat n)

def ofU64 (n : UInt64) : Json := ofNat n.toNat

def ofU32 (n : UInt32) : Json := ofNat n.toNat

def ofI32 (n : Int32) : Json := .num (.ofInt n.toInt)

def ofOption {α : Type} (write : α → Json) : Option α → Json
  | none => .null
  | some a => write a

/-- A value without parts. -/
def Scalar (v : Json) : Prop := Strict v ∧ nesting v = 0 ∧ canonicalValue v = v

theorem scalar_str (s : String) : Scalar (.str s) := by
  simp [Scalar, Strict, nesting, canonicalValue]

theorem scalar_num (n : Number) : Scalar (.num n) := by
  simp [Scalar, Strict, nesting, canonicalValue]

theorem scalar_ofOption {α : Type} {write : α → Json} (h : ∀ a, Scalar (write a))
    (o : Option α) : Scalar (ofOption write o) := by
  cases o with
  | none => simp [ofOption, Scalar, Strict, nesting, canonicalValue]
  | some a => exact h a

@[simp] theorem strict_ofU64 (n : UInt64) : Strict (ofU64 n) := (scalar_num _).1

@[simp] theorem strict_ofU32 (n : UInt32) : Strict (ofU32 n) := (scalar_num _).1

@[simp] theorem strict_ofNat (n : Nat) : Strict (ofNat n) := (scalar_num _).1

@[simp] theorem strict_ofOption_str (o : Option String) : Strict (ofOption .str o) :=
  (scalar_ofOption scalar_str o).1

@[simp] theorem strict_ofOption_i32 (o : Option Int32) : Strict (ofOption ofI32 o) :=
  (scalar_ofOption (fun _ => scalar_num _) o).1

@[simp] theorem inRange_str (s : String) : InRange (.str s) := trivial

theorem inRange_usize {n : Nat} (h : n < 2 ^ 64) : InRange (ofNat n) := inRange_ofNat h

@[simp] theorem inRange_ofU64 (n : UInt64) : InRange (ofU64 n) := inRange_ofNat n.toNat_lt

@[simp] theorem inRange_ofU32 (n : UInt32) : InRange (ofU32 n) :=
  inRange_ofNat (Nat.lt_trans n.toNat_lt (by decide))

@[simp] theorem inRange_ofI32 (n : Int32) : InRange (ofI32 n) := by
  have h1 := n.toInt_lt
  have h2 := n.le_toInt
  exact inRange_ofInt (by omega)

theorem inRange_ofOption {α : Type} {write : α → Json} (h : ∀ a, InRange (write a))
    (o : Option α) : InRange (ofOption write o) := by
  cases o with
  | none => trivial
  | some a => exact h a

@[simp] theorem inRange_ofOption_str (o : Option String) : InRange (ofOption .str o) :=
  inRange_ofOption inRange_str o

@[simp] theorem inRange_ofOption_i32 (o : Option Int32) : InRange (ofOption ofI32 o) :=
  inRange_ofOption inRange_ofI32 o

@[simp] theorem nesting_ofU64 (n : UInt64) : nesting (ofU64 n) = 0 := (scalar_num _).2.1

@[simp] theorem nesting_ofU32 (n : UInt32) : nesting (ofU32 n) = 0 := (scalar_num _).2.1

@[simp] theorem nesting_ofNat (n : Nat) : nesting (ofNat n) = 0 := (scalar_num _).2.1

@[simp] theorem nesting_ofOption_str (o : Option String) : nesting (ofOption .str o) = 0 :=
  (scalar_ofOption scalar_str o).2.1

@[simp] theorem nesting_ofOption_i32 (o : Option Int32) : nesting (ofOption ofI32 o) = 0 :=
  (scalar_ofOption (fun _ => scalar_num _) o).2.1

/-! ## Round trips -/

/-- A written value is one the parser holds, flat enough, and its canonical form is read back. -/
structure Codec {α : Type} (write : α → Json) (read : Json → Option α) (depth : Nat) (a : α) :
    Prop where
  strict : Strict (write a)
  inRange : InRange (write a)
  nesting : nesting (write a) ≤ depth
  read : read (canonicalValue (write a)) = some a

theorem Codec.parse {α : Type} {write : α → Json} {read : Json → Option α} {depth : Nat} {a : α}
    (h : Codec write read depth a) (hd : depth < depthLimit) :
    parseStrictJson read (canonicalJson (write a)) = .ok a :=
  parseStrictJson_canonical h.strict h.inRange (Nat.lt_of_le_of_lt h.nesting hd) h.read

/-- The text of a value is refused where its canonical form is. -/
theorem Codec.not_parsed {α β : Type} {write : α → Json} {read : Json → Option α} {depth : Nat}
    {a : α} (h : Codec write read depth a) (hd : depth < depthLimit) {read' : Json → Option β}
    (hr : read' (canonicalValue (write a)) = none) {b : β} :
    parseStrictJson read' (canonicalJson (write a)) ≠ .ok b := by
  have hv : parseStrictJson some (canonicalJson (write a)) = .ok (canonicalValue (write a)) :=
    parseStrictJson_canonical h.strict h.inRange (Nat.lt_of_le_of_lt h.nesting hd) rfl
  intro hp
  unfold parseStrictJson at hv hp
  split at hv
  · cases hv
  · rename_i v' hv'
    cases hv
    rw [hv'] at hp
    simp only [hr] at hp
    cases hp

theorem asNat_ofNat {bits n : Nat} (h : n < 2 ^ bits) : asNat bits (ofNat n) = some n := by
  simp [asNat, ofNat, h]

@[simp] theorem canonicalValue_ofNat (n : Nat) : canonicalValue (ofNat n) = ofNat n :=
  (scalar_num _).2.2

@[simp] theorem canonicalValue_ofU64 (n : UInt64) : canonicalValue (ofU64 n) = ofU64 n :=
  (scalar_num _).2.2

@[simp] theorem canonicalValue_ofU32 (n : UInt32) : canonicalValue (ofU32 n) = ofU32 n :=
  (scalar_num _).2.2

@[simp] theorem canonicalValue_str (s : String) : canonicalValue (.str s) = .str s :=
  (scalar_str s).2.2

@[simp] theorem canonicalValue_ofOption_str (s : Option String) :
    canonicalValue (ofOption .str s) = ofOption .str s :=
  (scalar_ofOption scalar_str s).2.2

@[simp] theorem canonicalValue_ofOption_i32 (n : Option Int32) :
    canonicalValue (ofOption ofI32 n) = ofOption ofI32 n :=
  (scalar_ofOption (fun _ => scalar_num _) n).2.2

@[simp] theorem asString_str (s : String) : asString (.str s) = some s := rfl

@[simp] theorem asU64_ofU64 (n : UInt64) : asU64 (ofU64 n) = some n := by
  rw [asU64, ofU64, asNat_ofNat n.toNat_lt]
  simp

@[simp] theorem asU32_ofU32 (n : UInt32) : asU32 (ofU32 n) = some n := by
  rw [asU32, ofU32, asNat_ofNat n.toNat_lt]
  simp

theorem asUsize_ofNat {n : Nat} (h : n < 2 ^ 64) : asUsize (ofNat n) = some n := asNat_ofNat h

@[simp] theorem asI32_ofI32 (n : Int32) : asI32 (ofI32 n) = some n := by
  have h1 := n.toInt_lt
  have h2 := n.le_toInt
  simp [asI32, ofI32]
  omega

@[simp] theorem asOption_str (s : Option String) :
    asOption asString (ofOption .str s) = some s := by
  cases s <;> rfl

@[simp] theorem asOption_u64 (n : Option UInt64) : asOption asU64 (ofOption ofU64 n) = some n := by
  cases n with
  | none => rfl
  | some n =>
    have h := asU64_ofU64 n
    simp only [ofU64, ofNat] at h
    simp [ofOption, ofU64, ofNat, asOption, h]

@[simp] theorem asOption_i32 (n : Option Int32) : asOption asI32 (ofOption ofI32 n) = some n := by
  cases n with
  | none => rfl
  | some n =>
    have h := asI32_ofI32 n
    simp only [ofI32] at h
    simp [ofOption, ofI32, asOption, h]

/-- A record's reader sees the members of a canonical object, each in its canonical form. -/
theorem fields_canonical (names : List String) (ms : List (String × Json))
    (hn : (ms.map Prod.fst).Nodup) (hk : ∀ k ∈ ms.map Prod.fst, k ∈ names) :
    ∃ ms', fields names (canonicalValue (.obj ms)) = some ms' ∧
      ∀ k, ms'.lookup k = (ms.lookup k).map canonicalValue := by
  refine ⟨_, if_pos ?_, lookup_canonical hn⟩
  rw [List.all_eq_true]
  intro m hm
  obtain ⟨m', hm', rfl⟩ := mem_canonical hm
  simpa using hk m'.1 (List.mem_map.mpr ⟨m', hm', rfl⟩)

/-- A record's reader refuses an object with a name it does not declare. -/
theorem fields_unknown {names : List String} {ms : List (String × Json)} {k : String}
    (hk : k ∈ ms.map Prod.fst) (hn : k ∉ names) : fields names (canonicalValue (.obj ms)) = none := by
  obtain ⟨m, hm, rfl⟩ := List.mem_map.mp hk
  have hmem := (canonical_perm ms).mem_iff.mpr (List.mem_map.mpr ⟨m, hm, rfl⟩)
  rw [canonicalValue, fields, if_neg]
  intro h
  exact hn (by simpa using List.all_eq_true.mp h _ hmem)

/-- One step of a record's reader. -/
theorem reads {α β : Type} {x : Option α} {a : α} {f : α → Option β} {b : β} (hx : x = some a)
    (hf : f a = some b) : (x >>= f) = some b := by
  rw [hx]
  exact hf

section Members

variable {ms ms' : List (String × Json)} (hl : ∀ k, ms'.lookup k = (ms.lookup k).map canonicalValue)

include hl

theorem required_canonical {α : Type} {k : String} {v : Json} {a : α} {read : Json → Option α}
    (hk : ms.lookup k = some v) (hr : read (canonicalValue v) = some a) :
    required ms' k read = some a := by
  simp [required, hl, hk, hr]

theorem optional_canonical {α : Type} {k : String} {v : Json} {a : Option α}
    {read : Json → Option α} (hk : ms.lookup k = some v)
    (hr : asOption read (canonicalValue v) = some a) : optional ms' k read = some a := by
  simp [optional, hl, hk, hr]

theorem required_str {k s : String} (hk : ms.lookup k = some (.str s)) :
    required ms' k asString = some s :=
  required_canonical hl hk (by simp)

theorem required_u64 {k : String} {n : UInt64} (hk : ms.lookup k = some (ofU64 n)) :
    required ms' k asU64 = some n :=
  required_canonical hl hk (by simp)

theorem required_u32 {k : String} {n : UInt32} (hk : ms.lookup k = some (ofU32 n)) :
    required ms' k asU32 = some n :=
  required_canonical hl hk (by simp)

theorem required_usize {k : String} {n : Nat} (hk : ms.lookup k = some (ofNat n))
    (h : n < 2 ^ 64) : required ms' k asUsize = some n :=
  required_canonical hl hk (by rw [canonicalValue_ofNat, asUsize_ofNat h])

theorem required_variant {α : Type} {k s : String} {table : List (String × α)} {a : α}
    (hk : ms.lookup k = some (.str s)) (ha : asVariant table (.str s) = some a) :
    required ms' k (asVariant table) = some a :=
  required_canonical hl hk (by rw [canonicalValue_str, ha])

theorem optional_str {k : String} {s : Option String}
    (hk : ms.lookup k = some (ofOption .str s)) : optional ms' k asString = some s :=
  optional_canonical hl hk (by simp)

theorem optional_i32 {k : String} {n : Option Int32}
    (hk : ms.lookup k = some (ofOption ofI32 n)) : optional ms' k asI32 = some n :=
  optional_canonical hl hk (by simp)

end Members

theorem mapM_map {α β γ : Type} {f : α → β} {g : β → Option γ} {h : α → γ} {l : List α}
    (hg : ∀ a ∈ l, g (f a) = some (h a)) : (l.map f).mapM g = some (l.map h) := by
  induction l with
  | nil => rfl
  | cons a l ih =>
    have h1 := hg a List.mem_cons_self
    have h2 := ih fun b hb => hg b (List.mem_cons_of_mem _ hb)
    simp [List.mapM_cons, h1, h2]

/-- An array of records, each of which is read back. -/
theorem asList_canonical {α : Type} {write : α → Json} {read : Json → Option α} {as : List α}
    (h : ∀ a ∈ as, read (canonicalValue (write a)) = some a) :
    asList read (canonicalValue (.arr (as.map write))) = some as := by
  rw [canonicalValue, canonicalElems_eq, asList, List.map_map]
  rw [mapM_map (h := id) (f := canonicalValue ∘ write)]
  · simp
  · simpa using h

end Json
end EgoBridge
