import Mathlib.Algebra.Order.Ring.Int
import Mathlib.Data.List.Basic

/-!
# Native.Codec

The values of the private RPC channel between the isolated worker and the native browser host.

* `Value`         — a JavaScript value: plain data, or an object of another kind with its own
  enumerable data members.
* `Worker.encode` — a script's arguments: functions, regular expressions and remote handles become
  tagged objects.
* `Host.decode`   — what the host makes of a tagged or plain object.
* `Host.encode`   — a result: an object with methods or accessors becomes a tagged handle.
* `Worker.decode` — what the worker makes of it.
* `request_iff`, `reply_iff` — the plain values each direction carries.

Numbers and strings are never looked into, apart from the tags themselves.
-/

namespace EgoBridge
namespace Native

/-- UTF-16 code units. -/
abbrev JsString := List UInt16

def js (s : String) : JsString := s.toList.map fun c => UInt16.ofNat c.toNat

inductive Value (β : Type) where
  | null
  | bool (b : Bool)
  | num (bits : UInt64)
  | str (s : JsString)
  | arr (vs : List (Value β))
  | obj (ms : List (JsString × Value β))
  | special (b : β) (fields : List (JsString × Value β))

/-- JSON data: no object of another kind anywhere. -/
abbrev Plain := Value Empty

abbrev Members (β : Type) := List (JsString × Value β)

/-- A plain value as a value of either realm. -/
def Value.lift {β : Type} : Plain → Value β
  | .null => .null
  | .bool b => .bool b
  | .num n => .num n
  | .str s => .str s
  | .arr vs => .arr (elems vs)
  | .obj ms => .obj (members ms)
  | .special b _ => b.elim
where
  elems : List Plain → List (Value β)
    | [] => []
    | v :: vs => lift v :: elems vs
  members : Members Empty → Members β
    | [] => []
    | (k, v) :: ms => (k, lift v) :: members ms

/-- An own property of an object. -/
def member {β : Type} (ms : Members β) (k : String) : Option (Value β) := ms.lookup (js k)

def Value.text {β : Type} : Value β → Option JsString
  | .str s => some s
  | _ => none

/-- `value.kind`, where it is a string. -/
def kind {β : Type} (ms : Members β) : Option JsString := (member ms "kind").bind Value.text

/-- Posted to the other side. Only data gets there: a function is not cloned. -/
def wire {β : Type} : Value β → Option Plain
  | .null => some .null
  | .bool b => some (.bool b)
  | .num n => some (.num n)
  | .str s => some (.str s)
  | .arr vs => (elems vs).map .arr
  | .obj ms => (members ms).map .obj
  | .special _ _ => none
where
  elems : List (Value β) → Option (List Plain)
    | [] => some []
    | v :: vs => (wire v).bind fun p => (elems vs).map fun ps => p :: ps
  members : Members β → Option (Members Empty)
    | [] => some []
    | (k, v) :: ms => (wire v).bind fun p => (members ms).map fun ps => (k, p) :: ps

/-! ## Requests -/

/-- The objects a script can pass that are not plain data. -/
inductive Script where
  | function (source : JsString)
  | regexp (source flags : JsString)
  /-- Carries its id in a property that is not enumerable. -/
  | handle (id : UInt64)

namespace Worker

def encode : Value Script → Value Script
  | .null => .null
  | .bool b => .bool b
  | .num n => .num n
  | .str s => .str s
  | .special (.function source) _ =>
    .obj [(js "kind", .str (js "function")), (js "source", .str source)]
  | .special (.regexp source flags) _ =>
    .obj [(js "kind", .str (js "regexp")), (js "source", .str source), (js "flags", .str flags)]
  | .special (.handle id) _ => .obj [(js "kind", .str (js "reference")), (js "id", .num id)]
  | .arr vs => .arr (elems vs)
  | .obj ms =>
    match member ms "__remoteHandle" with
    | some id => .obj [(js "kind", .str (js "reference")), (js "id", id)]
    | none => .obj (members ms)
where
  elems : List (Value Script) → List (Value Script)
    | [] => []
    | v :: vs => encode v :: elems vs
  members : Members Script → Members Script
    | [] => []
    | (k, v) :: ms => (k, encode v) :: members ms

end Worker

/-- What the host reads a tagged object as, with the members it uses (`none` is `undefined`). -/
inductive Received where
  | reference (id : Option Plain)
  | function (source : Option Plain)
  | regexp (source flags : Option Plain)

namespace Host

def decode : Plain → Value Received
  | .null => .null
  | .bool b => .bool b
  | .num n => .num n
  | .str s => .str s
  | .special b _ => b.elim
  | .arr vs => .arr (elems vs)
  | .obj ms =>
    if kind ms = some (js "reference") then .special (.reference (member ms "id")) []
    else if kind ms = some (js "function") then .special (.function (member ms "source")) []
    else if kind ms = some (js "regexp") then
      .special (.regexp (member ms "source") (member ms "flags")) []
    else .obj (members ms)
where
  elems : List Plain → List (Value Received)
    | [] => []
    | v :: vs => decode v :: elems vs
  members : Members Empty → Members Received
    | [] => []
    | (k, v) :: ms => (k, decode v) :: members ms

end Host

/-! ## Replies -/

/-- An SDK object: its identity, its methods with their way of calling (`true` waits), its accessors
with their enumerability. -/
structure SdkObject where
  identity : Nat
  methods : List (JsString × Bool)
  properties : List (JsString × Bool)
  not_plain : methods ≠ [] ∨ properties ≠ []

/-- The ids handed out so far. -/
structure HostTable where
  nextId : UInt64
  ids : List (Nat × UInt64)

namespace Host

/-- `id = ids.get(value)`, or the next one. -/
def idOf (identity : Nat) (t : HostTable) : UInt64 × HostTable :=
  match t.ids.lookup identity with
  | some id => (id, t)
  | none =>
    let id := t.nextId + 1
    (id, { nextId := id, ids := (identity, id) :: t.ids })

def flags {β : Type} (xs : List (JsString × Bool)) : Value β :=
  .obj (xs.map fun x => (x.1, .bool x.2))

def encode : Value SdkObject → HostTable → Plain × HostTable
  | .null, t => (.null, t)
  | .bool b, t => (.bool b, t)
  | .num n, t => (.num n, t)
  | .str s, t => (.str s, t)
  | .arr vs, t =>
    let (ps, t) := elems vs t
    (.arr ps, t)
  | .obj ms, t =>
    let (fields, t) := members ms t
    (.obj fields, t)
  | .special o ms, t =>
    let (fields, t) := members ms t
    let (id, t) := idOf o.identity t
    (.obj [(js "kind", .str (js "handle")), (js "id", .num id), (js "fields", .obj fields),
      (js "methods", flags o.methods), (js "properties", flags o.properties)], t)
where
  elems : List (Value SdkObject) → HostTable → List Plain × HostTable
    | [], t => ([], t)
    | v :: vs, t =>
      let (p, t) := encode v t
      let (ps, t) := elems vs t
      (p :: ps, t)
  members : Members SdkObject → HostTable → Members Empty × HostTable
    | [], t => ([], t)
    | (k, v) :: ms, t =>
      let (p, t) := encode v t
      let (ps, t) := members ms t
      -- `fields[name] = …` on a fresh object: this name sets its prototype
      if k = js "__proto__" then (ps, t) else ((k, p) :: ps, t)

end Host

/-- What the worker adds to the object it keeps for a handle. -/
structure Remote where
  id : Option Plain
  methods : Members Empty
  properties : Members Empty

inductive TypeError where
  | notIterable

/-- `Object.entries(value)`. -/
def entries : Option Plain → Except TypeError (Members Empty)
  | none | some .null => .error .notIterable
  | some (.bool _) | some (.num _) => .ok []
  | some (.str s) => .ok (s.zipIdx.map fun x => (js (toString x.2), .str [x.1]))
  | some (.arr vs) => .ok (vs.zipIdx.map fun x => (js (toString x.2), x.1))
  | some (.obj ms) => .ok ms
  | some (.special b _) => b.elim

/-- `value || {}`. -/
def orEmpty : Option Plain → Option Plain
  | none | some .null | some (.bool false) | some (.str []) => some (.obj [])
  | some (.num n) => if n = 0 ∨ n = 0x8000000000000000 then some (.obj []) else some (.num n)
  | some v => some v

namespace Worker

def decode : Plain → Except TypeError (Value Remote)
  | .null => .ok .null
  | .bool b => .ok (.bool b)
  | .num n => .ok (.num n)
  | .str s => .ok (.str s)
  | .special b _ => b.elim
  | .arr vs => (elems vs).map .arr
  | .obj ms =>
    if kind ms = some (js "handle") then do
      let fields ← fieldsOf ms
      let properties ← entries (orEmpty (member ms "properties"))
      let methods ← entries (member ms "methods")
      .ok (.special { id := member ms "id", methods, properties } fields)
    else (members ms).map .obj
where
  elems : List Plain → Except TypeError (List (Value Remote))
    | [] => .ok []
    | v :: vs => do
      let w ← decode v
      let ws ← elems vs
      .ok (w :: ws)
  members : Members Empty → Except TypeError (Members Remote)
    | [] => .ok []
    | (k, v) :: ms => do
      let w ← decode v
      let ws ← members ms
      .ok ((k, w) :: ws)
  /-- `Object.entries(value.fields)`, each value decoded. -/
  fieldsOf : Members Empty → Except TypeError (Members Remote)
    | [] => .error .notIterable
    | (k, v) :: ms => if k = js "fields" then fieldEntries v else fieldsOf ms
  fieldEntries : Plain → Except TypeError (Members Remote)
    | .null => .error .notIterable
    | .bool _ | .num _ => .ok []
    | .str s => .ok (s.zipIdx.map fun x => (js (toString x.2), .str [x.1]))
    | .arr vs => (elems vs).map fun ws => ws.zipIdx.map fun x => (js (toString x.2), x.1)
    | .obj ms => members ms
    | .special b _ => b.elim

end Worker
/-! ## What goes through -/

namespace Value

/-- The members of every object in a value, at any depth. -/
def objects : Plain → List (Members Empty)
  | .arr vs => elems vs
  | .obj ms => ms :: members ms
  | _ => []
where
  elems : List Plain → List (Members Empty)
    | [] => []
    | v :: vs => objects v ++ elems vs
  members : Members Empty → List (Members Empty)
    | [] => []
    | (_, v) :: ms => objects v ++ members ms

end Value

/-- No object of another kind anywhere. -/
def Value.IsPlain {β : Type} : Value β → Prop
  | .arr vs => elems vs
  | .obj ms => members ms
  | .special _ _ => False
  | _ => True
where
  elems : List (Value β) → Prop
    | [] => True
    | v :: vs => IsPlain v ∧ elems vs
  members : Members β → Prop
    | [] => True
    | (_, v) :: ms => IsPlain v ∧ members ms

/-- An object the worker's `encode` or the host's `decode` takes for one of another kind. -/
def RequestTag (ms : Members Empty) : Prop :=
  (member ms "__remoteHandle").isSome ∨ kind ms = some (js "reference") ∨
    kind ms = some (js "function") ∨ kind ms = some (js "regexp")

/-- An object the worker's `decode` takes for a handle, or that the host's `encode` builds with one
member missing. -/
def ReplyTag (ms : Members Empty) : Prop :=
  kind ms = some (js "handle") ∨ js "__proto__" ∈ ms.map Prod.fst

instance (ms : Members Empty) : Decidable (RequestTag ms) := by
  unfold RequestTag; infer_instance

instance (ms : Members Empty) : Decidable (ReplyTag ms) := by
  unfold ReplyTag; infer_instance

/-- A script's plain argument as the host has it. -/
def request (v : Plain) : Option (Value Received) :=
  (wire (Worker.encode v.lift)).map Host.decode

/-- A plain result as the worker has it. -/
def reply (v : Plain) (t : HostTable) : Except TypeError (Value Remote) :=
  Worker.decode (Host.encode v.lift t).1

/-! ### Requests -/

@[simp] theorem kind_nil {β : Type} : kind ([] : Members β) = none := rfl

theorem kind_cons {β : Type} (k : JsString) (v : Value β) (ms : Members β) :
    kind ((k, v) :: ms) = if js "kind" = k then v.text else kind ms := by
  unfold kind member
  rw [List.lookup_cons]
  by_cases h : js "kind" = k
  · simp [h]
  · simp [h, beq_false_of_ne h]

theorem member_lift {β : Type} (ms : Members Empty) (k : String) :
    member (Value.lift.members ms : Members β) k = (member ms k).map Value.lift := by
  unfold member
  induction ms with
  | nil => rfl
  | cons m ms ih =>
    obtain ⟨l, v⟩ := m
    rw [Value.lift.members, List.lookup_cons, List.lookup_cons]
    split
    · rfl
    · exact ih

mutual
theorem wire_lift {β : Type} (v : Plain) : wire (v.lift : Value β) = some v := by
  cases v with
  | arr vs => simp [Value.lift, wire, wire_elems_lift vs]
  | obj ms => simp [Value.lift, wire, wire_members_lift ms]
  | special b _ => exact b.elim
  | _ => rfl

theorem wire_elems_lift {β : Type} (vs : List Plain) :
    wire.elems (Value.lift.elems vs : List (Value β)) = some vs := by
  cases vs with
  | nil => rfl
  | cons v vs => simp [Value.lift.elems, wire.elems, wire_lift v, wire_elems_lift vs]

theorem wire_members_lift {β : Type} (ms : Members Empty) :
    wire.members (Value.lift.members ms : Members β) = some ms := by
  cases ms with
  | nil => rfl
  | cons m ms =>
    obtain ⟨k, v⟩ := m
    simp [Value.lift.members, wire.members, wire_lift v, wire_members_lift ms]
end

mutual
theorem isPlain_lift {β : Type} (v : Plain) : (v.lift : Value β).IsPlain := by
  cases v with
  | arr vs => exact isPlain_elems_lift vs
  | obj ms => exact isPlain_members_lift ms
  | special b _ => exact b.elim
  | _ => trivial

theorem isPlain_elems_lift {β : Type} (vs : List Plain) :
    Value.IsPlain.elems (Value.lift.elems vs : List (Value β)) := by
  cases vs with
  | nil => trivial
  | cons v vs => exact ⟨isPlain_lift v, isPlain_elems_lift vs⟩

theorem isPlain_members_lift {β : Type} (ms : Members Empty) :
    Value.IsPlain.members (Value.lift.members ms : Members β) := by
  cases ms with
  | nil => trivial
  | cons m ms => exact ⟨isPlain_lift m.2, isPlain_members_lift ms⟩
end

/-- A tagged object is never read as plain data. -/
theorem Host.isPlain_decode_obj (ps : Members Empty) (h : (Host.decode (.obj ps)).IsPlain) :
    (kind ps ≠ some (js "reference") ∧ kind ps ≠ some (js "function") ∧
      kind ps ≠ some (js "regexp")) ∧ Value.IsPlain.members (Host.decode.members ps) := by
  rw [Host.decode] at h
  split at h
  · exact h.elim
  split at h
  · exact h.elim
  split at h
  · exact h.elim
  · rename_i hr hf hx
    exact ⟨⟨hr, hf, hx⟩, h⟩

mutual
theorem request_value (v : Plain) :
    ∃ p, wire (Worker.encode v.lift) = some p ∧ p.text = v.text ∧
      ((Host.decode p).IsPlain → ∀ o ∈ v.objects, ¬ RequestTag o) ∧
      ((∀ o ∈ v.objects, ¬ RequestTag o) → Host.decode p = v.lift) := by
  cases v with
  | null => exact ⟨.null, rfl, rfl, by simp [Value.objects], fun _ => rfl⟩
  | bool b => exact ⟨.bool b, rfl, rfl, by simp [Value.objects], fun _ => rfl⟩
  | num n => exact ⟨.num n, rfl, rfl, by simp [Value.objects], fun _ => rfl⟩
  | str s => exact ⟨.str s, rfl, rfl, by simp [Value.objects], fun _ => rfl⟩
  | special b _ => exact b.elim
  | arr vs =>
    obtain ⟨ps, hw, hp, hd⟩ := request_elems vs
    refine ⟨.arr ps, ?_, rfl, hp, ?_⟩
    · simp [Value.lift, Worker.encode, wire, hw]
    · intro h
      rw [Host.decode, hd h]
      rfl
  | obj ms =>
    have hm : member (Value.lift.members ms : Members Script) "__remoteHandle" =
        (member ms "__remoteHandle").map Value.lift := member_lift ms _
    cases hr : member ms "__remoteHandle" with
    | some id =>
      -- read as a reference, whatever is in it
      have ht : RequestTag ms := .inl (by simp [hr])
      refine ⟨.obj [(js "kind", .str (js "reference")), (js "id", id)], ?_, rfl, ?_, ?_⟩
      · rw [hr] at hm
        simp [Value.lift, Worker.encode, hm, wire, wire.members, wire_lift]
      · have hk : kind [(js "kind", .str (js "reference")), (js "id", id)] =
            some (js "reference") := rfl
        intro h
        exact absurd hk (Host.isPlain_decode_obj _ h).1.1
      · intro h
        exact absurd ht (h ms (by simp [Value.objects]))
    | none =>
      obtain ⟨ps, hw, hk, hp, hd⟩ := request_members ms
      rw [hr] at hm
      refine ⟨.obj ps, ?_, rfl, ?_, ?_⟩
      · simp [Value.lift, Worker.encode, hm, wire, hw]
      · intro h
        obtain ⟨⟨h1, h2, h3⟩, h4⟩ := Host.isPlain_decode_obj _ h
        rw [hk] at h1 h2 h3
        intro o ho
        rcases List.mem_cons.mp ho with rfl | ho
        · simp [RequestTag, hr, h1, h2, h3]
        · exact hp h4 o ho
      · intro h
        have ht : ¬ RequestTag ms := h ms (by simp [Value.objects])
        have hms : Host.decode.members ps = Value.lift.members ms :=
          hd fun o ho => h o (by simp [Value.objects, ho])
        simp only [RequestTag, hr, not_or] at ht
        rw [Host.decode, hk, if_neg ht.2.1, if_neg ht.2.2.1, if_neg ht.2.2.2, hms]
        rfl

theorem request_elems (vs : List Plain) :
    ∃ ps, wire.elems (Worker.encode.elems (Value.lift.elems vs)) = some ps ∧
      (Value.IsPlain.elems (Host.decode.elems ps) →
        ∀ o ∈ Value.objects.elems vs, ¬ RequestTag o) ∧
      ((∀ o ∈ Value.objects.elems vs, ¬ RequestTag o) →
        Host.decode.elems ps = Value.lift.elems vs) := by
  cases vs with
  | nil => exact ⟨[], rfl, by simp [Value.objects.elems], fun _ => rfl⟩
  | cons v vs =>
    obtain ⟨p, hw, -, hp, hd⟩ := request_value v
    obtain ⟨ps, hws, hps, hds⟩ := request_elems vs
    simp only [Value.objects.elems, List.forall_mem_append]
    refine ⟨p :: ps, ?_, ?_, ?_⟩
    · simp [Value.lift.elems, Worker.encode.elems, wire.elems, hw, hws]
    · rintro ⟨h, hs⟩
      exact ⟨hp h, hps hs⟩
    · rintro ⟨h, hs⟩
      rw [Host.decode.elems, hd h, hds hs]
      rfl

theorem request_members (ms : Members Empty) :
    ∃ ps, wire.members (Worker.encode.members (Value.lift.members ms)) = some ps ∧
      kind ps = kind ms ∧
      (Value.IsPlain.members (Host.decode.members ps) →
        ∀ o ∈ Value.objects.members ms, ¬ RequestTag o) ∧
      ((∀ o ∈ Value.objects.members ms, ¬ RequestTag o) →
        Host.decode.members ps = Value.lift.members ms) := by
  cases ms with
  | nil => exact ⟨[], rfl, rfl, by simp [Value.objects.members], fun _ => rfl⟩
  | cons m ms =>
    obtain ⟨k, v⟩ := m
    obtain ⟨p, hw, ht, hp, hd⟩ := request_value v
    obtain ⟨ps, hws, hk, hps, hds⟩ := request_members ms
    simp only [Value.objects.members, List.forall_mem_append]
    refine ⟨(k, p) :: ps, ?_, ?_, ?_, ?_⟩
    · simp [Value.lift.members, Worker.encode.members, wire.members, hw, hws]
    · rw [kind_cons, kind_cons, ht, hk]
    · rintro ⟨h, hs⟩
      exact ⟨hp h, hps hs⟩
    · rintro ⟨h, hs⟩
      rw [Host.decode.members, hd h, hds hs]
      rfl
end

/-- A plain argument always gets to the host, and is plain data there exactly where no object in it
has a tag or a handle's property; then it is what it was. -/
theorem request_iff (v : Plain) :
    ∃ w, request v = some w ∧
      (w.IsPlain ↔ ∀ o ∈ v.objects, ¬ RequestTag o) ∧ (w.IsPlain → w = v.lift) := by
  obtain ⟨p, hw, -, hp, hd⟩ := request_value v
  refine ⟨Host.decode p, ?_, ⟨hp, ?_⟩, fun h => hd (hp h)⟩
  · rw [request, hw, Option.map_some]
  · intro h
    rw [hd h]
    exact isPlain_lift v

/-! ### Replies -/

theorem Host.keys_encode_members (ms : Members Empty) (t : HostTable) :
    ((Host.encode.members (Value.lift.members ms) t).1).map Prod.fst =
      (ms.map Prod.fst).filter (· ≠ js "__proto__") := by
  induction ms generalizing t with
  | nil => rfl
  | cons m ms ih =>
    obtain ⟨k, v⟩ := m
    simp only [Value.lift.members, Host.encode.members, List.map_cons]
    split
    · rename_i h
      rw [ih, List.filter_cons_of_neg (by simp [h])]
    · rename_i h
      rw [List.map_cons, ih, List.filter_cons_of_pos (by simp [h])]

theorem Worker.keys_decode_members (ps : Members Empty) (ws : Members Remote)
    (h : Worker.decode.members ps = .ok ws) : ws.map Prod.fst = ps.map Prod.fst := by
  induction ps generalizing ws with
  | nil => cases h; rfl
  | cons p ps ih =>
    obtain ⟨k, v⟩ := p
    rw [Worker.decode.members] at h
    cases hv : Worker.decode v with
    | error e => rw [hv] at h; cases h
    | ok w =>
      cases hs : Worker.decode.members ps with
      | error e => rw [hv, hs] at h; cases h
      | ok us =>
        rw [hv, hs] at h
        cases h
        rw [List.map_cons, List.map_cons, ih us hs]

theorem keys_lift {β : Type} (ms : Members Empty) :
    (Value.lift.members ms : Members β).map Prod.fst = ms.map Prod.fst := by
  induction ms with
  | nil => rfl
  | cons m ms ih => rw [Value.lift.members, List.map_cons, List.map_cons, ih]

theorem Worker.decode_obj (ps : Members Empty) (ms : Members Remote)
    (h : Worker.decode (.obj ps) = .ok (.obj ms)) :
    kind ps ≠ some (js "handle") ∧ Worker.decode.members ps = .ok ms := by
  rw [Worker.decode] at h
  split at h
  · cases hf : Worker.decode.fieldsOf ps with
    | error e => rw [hf] at h; cases h
    | ok fs =>
      cases hp : entries (orEmpty (member ps "properties")) with
      | error e => rw [hf, hp] at h; cases h
      | ok qs =>
        cases hm : entries (member ps "methods") with
        | error e => rw [hf, hp, hm] at h; cases h
        | ok ns => rw [hf, hp, hm] at h; cases h
  · rename_i hk
    cases hm : Worker.decode.members ps with
    | error e => rw [hm] at h; cases h
    | ok ns => rw [hm] at h; cases h; exact ⟨hk, rfl⟩

mutual
theorem reply_value (v : Plain) (t : HostTable) :
    (Host.encode v.lift t).2 = t ∧ (Host.encode v.lift t).1.text = v.text ∧
      (Worker.decode (Host.encode v.lift t).1 = .ok v.lift ↔ ∀ o ∈ v.objects, ¬ ReplyTag o) := by
  cases v with
  | special b _ => exact b.elim
  | arr vs =>
    obtain ⟨ht, hd⟩ := reply_elems vs t
    refine ⟨ht, rfl, ?_⟩
    rw [Value.objects, ← hd]
    simp only [Value.lift, Host.encode, Worker.decode]
    cases Worker.decode.elems (Host.encode.elems (Value.lift.elems vs) t).1 with
    | error e => simp [Except.map]
    | ok ws => simp [Except.map]
  | obj ms =>
    obtain ⟨ht, hk, hd⟩ := reply_members ms t
    refine ⟨ht, rfl, ?_⟩
    simp only [Value.lift, Host.encode, Value.objects, List.mem_cons, forall_eq_or_imp]
    constructor
    · intro h
      obtain ⟨hh, hms⟩ := Worker.decode_obj _ _ h
      have hkeys := Worker.keys_decode_members _ _ hms
      rw [keys_lift, Host.keys_encode_members] at hkeys
      have hproto : js "__proto__" ∉ ms.map Prod.fst := by
        rw [hkeys]
        simp [List.mem_filter]
      refine ⟨?_, (hd hproto).mp hms⟩
      rintro (h | h)
      · exact hh (hk.trans h)
      · exact hproto h
    · rintro ⟨hn, hs⟩
      have hh : kind ms ≠ some (js "handle") := fun h => hn (.inl h)
      have hproto : js "__proto__" ∉ ms.map Prod.fst := fun h => hn (.inr h)
      rw [Worker.decode, if_neg (by rw [hk]; exact hh), (hd hproto).mpr hs]
      rfl
  | _ => simp [Value.lift, Host.encode, Worker.decode, Value.objects, Value.text]

theorem reply_elems (vs : List Plain) (t : HostTable) :
    (Host.encode.elems (Value.lift.elems vs) t).2 = t ∧
      (Worker.decode.elems (Host.encode.elems (Value.lift.elems vs) t).1 = .ok (Value.lift.elems vs) ↔
        ∀ o ∈ Value.objects.elems vs, ¬ ReplyTag o) := by
  cases vs with
  | nil => simp [Value.lift.elems, Host.encode.elems, Worker.decode.elems, Value.objects.elems]
  | cons v vs =>
    obtain ⟨ht, -, hd⟩ := reply_value v t
    obtain ⟨hts, hds⟩ := reply_elems vs t
    simp only [Value.lift.elems, Host.encode.elems, Worker.decode.elems, Value.objects.elems, ht,
      List.mem_append, or_imp, forall_and, ← hd, ← hds]
    refine ⟨hts, ?_⟩
    cases Worker.decode (Host.encode v.lift t).1 with
    | error e => simp [bind, Except.bind]
    | ok w =>
      cases Worker.decode.elems (Host.encode.elems (Value.lift.elems vs) t).1 with
      | error e => simp [bind, Except.bind]
      | ok ws => simp [bind, Except.bind]

theorem reply_members (ms : Members Empty) (t : HostTable) :
    (Host.encode.members (Value.lift.members ms) t).2 = t ∧
      kind (Host.encode.members (Value.lift.members ms) t).1 = kind ms ∧
      (js "__proto__" ∉ ms.map Prod.fst →
        (Worker.decode.members (Host.encode.members (Value.lift.members ms) t).1 =
            .ok (Value.lift.members ms) ↔
          ∀ o ∈ Value.objects.members ms, ¬ ReplyTag o)) := by
  cases ms with
  | nil =>
    simp [Value.lift.members, Host.encode.members, Worker.decode.members, Value.objects.members]
  | cons m ms =>
    obtain ⟨k, v⟩ := m
    obtain ⟨ht, hx, hd⟩ := reply_value v t
    obtain ⟨hts, hk, hds⟩ := reply_members ms t
    simp only [Value.lift.members, Host.encode.members, Value.objects.members, ht]
    split
    · rename_i h
      -- the member is dropped
      have hne : js "kind" ≠ k := by rw [h]; decide
      refine ⟨hts, ?_, ?_⟩
      · rw [kind_cons, if_neg hne]
        exact hk
      · intro hp
        exact absurd (by simp [h]) hp
    · refine ⟨hts, ?_, ?_⟩
      · rw [kind_cons, kind_cons, hx, hk]
      · intro hp
        have hp' : js "__proto__" ∉ ms.map Prod.fst := fun h => hp (by simp [h])
        simp only [List.mem_append, or_imp, forall_and, ← hd, ← hds hp', Worker.decode.members]
        cases Worker.decode (Host.encode v.lift t).1 with
        | error e => simp [bind, Except.bind]
        | ok w =>
          cases Worker.decode.members (Host.encode.members (Value.lift.members ms) t).1 with
          | error e => simp [bind, Except.bind]
          | ok ws => simp [bind, Except.bind]
end

/-- A plain result arrives as it was exactly where no object in it has a handle's tag or a member
the host drops. -/
theorem reply_iff (v : Plain) (t : HostTable) :
    reply v t = .ok v.lift ↔ ∀ o ∈ v.objects, ¬ ReplyTag o :=
  (reply_value v t).2.2

/-! ## Both directions -/

/-- Both sides have the value that was sent, and neither reads anything else into it. -/
def Carried (v : Plain) (t : HostTable) : Prop :=
  (request v = some v.lift ∧ reply v t = .ok v.lift) ∧
    (∀ w, request v = some w → w.IsPlain) ∧ ∀ w, reply v t = .ok w → w.IsPlain

/-- Every plain value is carried, but those in which an object at some depth looks like one of the
codec's own. -/
theorem carried_iff (v : Plain) (t : HostTable) :
    Carried v t ↔ ∀ o ∈ v.objects, ¬ RequestTag o ∧ ¬ ReplyTag o := by
  obtain ⟨w, hw, hiff, heq⟩ := request_iff v
  constructor
  · rintro ⟨⟨-, hr⟩, hp, -⟩ o ho
    exact ⟨hiff.mp (hp w hw) o ho, (reply_iff v t).mp hr o ho⟩
  · intro h
    have hplain : w.IsPlain := hiff.mpr fun o ho => (h o ho).1
    have hreply := (reply_iff v t).mpr fun o ho => (h o ho).2
    refine ⟨⟨by rw [hw, heq hplain], hreply⟩, ?_, ?_⟩
    · intro u hu
      rw [hw] at hu
      cases hu
      exact hplain
    · intro u hu
      rw [hreply] at hu
      cases hu
      exact isPlain_lift v

/-- An object a page or a script may well send: the host evaluates it. -/
def sourceObject : Plain :=
  .obj [(js "kind", .str (js "function")), (js "source", .str (js "process.exit()"))]

theorem sourceObject_evaluated :
    request sourceObject =
        some (.special (.function (some (.str (js "process.exit()")))) []) ∧
      ¬ ∀ v t, Carried v t := by
  refine ⟨rfl, ?_⟩
  intro h
  have hc := (h sourceObject ⟨0, []⟩).2.1 _ rfl
  exact hc

end Native
end EgoBridge
