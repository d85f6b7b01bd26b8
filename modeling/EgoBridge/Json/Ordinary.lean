import EgoBridge.Json.Canonical

/-!
# Json.Ordinary

The parser without the check for names that are met twice, and what the check adds to it.

`document` is the tree of a text: an object has all its members, in the order they are written. The
map that the parser makes of them keeps the last one of each name.

* `followsAt`          — the strict parser returns the same, or a name is met twice.
* `parse_ok_iff`       — a strict document is one in which no object has a name twice.
* `ordinaryJson_strict` — such a document loses nothing in its maps.
-/

namespace EgoBridge
namespace Json

namespace Ordinary

mutual
def parseValue : Nat → Nat → List Char → Option (Json × List Char)
  | 0, _, _ => none
  | fuel + 1, depth, cs =>
    match skipWs cs with
    | [] => none
    | c :: r =>
      if c = '"' then (lexString r).map fun p => (.str (String.ofList p.1), p.2)
      else if c = '[' then if depth ≤ 1 then none else parseArray fuel (depth - 1) r
      else if c = '{' then if depth ≤ 1 then none else parseObject fuel (depth - 1) r
      else if c = 'n' then (literal ['u', 'l', 'l'] .null r).toOption
      else if c = 't' then (literal ['r', 'u', 'e'] (.bool true) r).toOption
      else if c = 'f' then (literal ['a', 'l', 's', 'e'] (.bool false) r).toOption
      else
        (scanNumber (c :: r)).bind fun p => if p.1.inRange then some (.num p.1, p.2) else none

/-- After `[`. -/
def parseArray : Nat → Nat → List Char → Option (Json × List Char)
  | 0, _, _ => none
  | fuel + 1, depth, cs =>
    if (skipWs cs).head? = some ']' then some (.arr [], (skipWs cs).tail)
    else
      (parseValue fuel depth cs).bind fun p =>
        (parseElems fuel depth p.2).map fun q => (.arr (p.1 :: q.1), q.2)

/-- After an element. -/
def parseElems : Nat → Nat → List Char → Option (List Json × List Char)
  | 0, _, _ => none
  | fuel + 1, depth, cs =>
    match skipWs cs with
    | [] => none
    | c :: r =>
      if c = ']' then some ([], r)
      else if c = ',' then
        (parseValue fuel depth r).bind fun p =>
          (parseElems fuel depth p.2).map fun q => (p.1 :: q.1, q.2)
      else none

/-- After `{`. -/
def parseObject : Nat → Nat → List Char → Option (Json × List Char)
  | 0, _, _ => none
  | fuel + 1, depth, cs =>
    if (skipWs cs).head? = some '}' then some (.obj [], (skipWs cs).tail)
    else
      (parseMember fuel depth cs).bind fun p =>
        (parseMembers fuel depth p.2).map fun q => (.obj (p.1 :: q.1), q.2)

def parseMember : Nat → Nat → List Char → Option ((String × Json) × List Char)
  | 0, _, _ => none
  | fuel + 1, depth, cs =>
    match skipWs cs with
    | [] => none
    | c :: r =>
      if c = '"' then
        match lexString r with
        | none => none
        | some (k, r') =>
          match skipWs r' with
          | [] => none
          | c' :: r'' =>
            if c' = ':' then
              (parseValue fuel depth r'').map fun p => ((String.ofList k, p.1), p.2)
            else none
      else none

/-- After a member. -/
def parseMembers : Nat → Nat → List Char → Option (List (String × Json) × List Char)
  | 0, _, _ => none
  | fuel + 1, depth, cs =>
    match skipWs cs with
    | [] => none
    | c :: r =>
      if c = '}' then some ([], r)
      else if c = ',' then
        (parseMember fuel depth r).bind fun p =>
          (parseMembers fuel depth p.2).map fun q => (p.1 :: q.1, q.2)
      else none
end

def parse (cs : List Char) : Option Json :=
  match parseValue (2 * cs.length + 2) depthLimit cs with
  | none => none
  | some (v, r) => if skipWs r = [] then some v else none

end Ordinary

/-- The one document a byte string is, as it is written. -/
def document (bytes : Bytes) : Option Json := Ordinary.parse (readText bytes)

/-- The members a map keeps. -/
def lastOfName : List (String × Json) → List (String × Json)
  | [] => []
  | m :: ms => if m.1 ∈ ms.map Prod.fst then lastOfName ms else m :: lastOfName ms

mutual
/-- A member replaces an earlier one of its name. -/
def mapValue : Json → Json
  | .arr vs => .arr (mapElems vs)
  | .obj ms => .obj (lastOfName (mapMembers ms))
  | v => v

def mapElems : List Json → List Json
  | [] => []
  | v :: vs => mapValue v :: mapElems vs

def mapMembers : List (String × Json) → List (String × Json)
  | [] => []
  | (k, v) :: ms => (k, mapValue v) :: mapMembers ms
end

/-- `serde_json::from_slice`, into a JSON value. -/
def ordinaryJson (bytes : Bytes) : Option Json := (document bytes).map mapValue

/-! ## The strict parser, in parts -/

theorem parseArray_succ (fuel depth : Nat) (cs : List Char) :
    parseArray (fuel + 1) depth cs =
      if (skipWs cs).head? = some ']' then .ok (.arr [], (skipWs cs).tail)
      else (parseValue fuel depth cs).bind fun p =>
        (parseElems fuel depth p.2).map fun q => (.arr (p.1 :: q.1), q.2) := by
  rw [parseArray]
  split
  · rfl
  cases parseValue fuel depth cs with
  | error e => rfl
  | ok p =>
    dsimp only [Except.bind]
    cases parseElems fuel depth p.2 <;> rfl

theorem parseElems_succ (fuel depth : Nat) (cs : List Char) :
    parseElems (fuel + 1) depth cs =
      match skipWs cs with
      | [] => .error .invalid
      | c :: r =>
        if c = ']' then .ok ([], r)
        else if c = ',' then
          (parseValue fuel depth r).bind fun p =>
            (parseElems fuel depth p.2).map fun q => (p.1 :: q.1, q.2)
        else .error .invalid := by
  rw [parseElems]
  cases skipWs cs with
  | nil => rfl
  | cons c r =>
    dsimp only
    cases parseValue fuel depth r with
    | error e => rfl
    | ok p =>
      dsimp only [Except.bind]
      cases parseElems fuel depth p.2 <;> rfl

theorem parseObject_succ (fuel depth : Nat) (cs : List Char) :
    parseObject (fuel + 1) depth cs =
      if (skipWs cs).head? = some '}' then .ok (.obj [], (skipWs cs).tail)
      else (parseMember fuel depth [] cs).bind fun p =>
        (parseMembers fuel depth [p.1.1] p.2).map fun q => (.obj (p.1 :: q.1), q.2) := by
  rw [parseObject]
  split
  · rfl
  cases parseMember fuel depth [] cs with
  | error e => rfl
  | ok p =>
    dsimp only [Except.bind]
    cases parseMembers fuel depth [p.1.1] p.2 <;> rfl

theorem parseMember_succ (fuel depth : Nat) (seen : List String) (cs : List Char) :
    parseMember (fuel + 1) depth seen cs =
      match skipWs cs with
      | [] => .error .invalid
      | c :: r =>
        if c = '"' then
          match lexString r with
          | none => .error .invalid
          | some (k, r') =>
            if String.ofList k ∈ seen then .error (.duplicateKey (String.ofList k))
            else
              match skipWs r' with
              | [] => .error .invalid
              | c' :: r'' =>
                if c' = ':' then
                  (parseValue fuel depth r'').map fun p => ((String.ofList k, p.1), p.2)
                else .error .invalid
        else .error .invalid := by
  rw [parseMember]
  cases skipWs cs with
  | nil => rfl
  | cons c r =>
    dsimp only
    cases lexString r with
    | none => rfl
    | some p =>
      obtain ⟨k, r'⟩ := p
      dsimp only
      cases skipWs r' with
      | nil => rfl
      | cons c' r'' =>
        dsimp only
        cases parseValue fuel depth r'' <;> rfl

theorem parseMembers_succ (fuel depth : Nat) (seen : List String) (cs : List Char) :
    parseMembers (fuel + 1) depth seen cs =
      match skipWs cs with
      | [] => .error .invalid
      | c :: r =>
        if c = '}' then .ok ([], r)
        else if c = ',' then
          (parseMember fuel depth seen r).bind fun p =>
            (parseMembers fuel depth (p.1.1 :: seen) p.2).map fun q => (p.1 :: q.1, q.2)
        else .error .invalid := by
  rw [parseMembers]
  cases skipWs cs with
  | nil => rfl
  | cons c r =>
    dsimp only
    cases parseMember fuel depth seen r with
    | error e => rfl
    | ok p =>
      dsimp only [Except.bind]
      cases parseMembers fuel depth (p.1.1 :: seen) p.2 <;> rfl

/-! ## What the check adds -/

/-- The strict parser's answer beside the ordinary one: the same where the result is good, and a
name met twice where it is not. Where there is no result, either error. -/
inductive Follows {α : Type} (good : α → Prop) : Option α → Except ParseError α → Prop
  | ok {a : α} : good a → Follows good (some a) (.ok a)
  | duplicate {o : Option α} {key : String} :
      (∀ a, o = some a → ¬ good a) → Follows good o (.error (.duplicateKey key))
  | invalid : Follows good none (.error .invalid)

/-- The members an object may go on with. -/
def StrictAfter (seen : List String) (ms : List (String × Json)) : Prop :=
  (∀ k ∈ ms.map Prod.fst, k ∉ seen) ∧ (ms.map Prod.fst).Nodup ∧ StrictMembers ms

theorem strictAfter_cons {seen : List String} {m : String × Json} {ms : List (String × Json)} :
    StrictAfter seen (m :: ms) ↔ (m.1 ∉ seen ∧ Strict m.2) ∧ StrictAfter (m.1 :: seen) ms := by
  constructor
  · rintro ⟨hseen, hn, hs⟩
    obtain ⟨hm, hn⟩ := List.nodup_cons.mp hn
    refine ⟨⟨hseen _ List.mem_cons_self, hs.1⟩, fun k hk hk' => ?_, hn, hs.2⟩
    cases List.mem_cons.mp hk' with
    | inl he => exact hm (he ▸ hk)
    | inr hk' => exact hseen k (List.mem_cons_of_mem _ hk) hk'
  · rintro ⟨⟨hm, hs⟩, hseen, hn, hs'⟩
    refine ⟨fun k hk => ?_, List.nodup_cons.mpr ⟨fun hk => hseen _ hk List.mem_cons_self, hn⟩,
      hs, hs'⟩
    cases List.mem_cons.mp hk with
    | inl he => exact he ▸ hm
    | inr hk => exact fun hk' => hseen k hk (List.mem_cons_of_mem _ hk')

theorem strict_obj_cons {m : String × Json} {ms : List (String × Json)} :
    Strict (.obj (m :: ms)) ↔ (m.1 ∉ [] ∧ Strict m.2) ∧ StrictAfter [m.1] ms := by
  rw [← strictAfter_cons]
  exact ⟨fun h => ⟨fun k _ => List.not_mem_nil, h.1, h.2⟩, fun h => ⟨h.2.1, h.2.2⟩⟩

structure FollowsAt (fuel : Nat) : Prop where
  value : ∀ depth cs, Follows (fun p => Strict p.1)
    (Ordinary.parseValue fuel depth cs) (parseValue fuel depth cs)
  array : ∀ depth cs, Follows (fun p => Strict p.1)
    (Ordinary.parseArray fuel depth cs) (parseArray fuel depth cs)
  elems : ∀ depth cs, Follows (fun p => StrictElems p.1)
    (Ordinary.parseElems fuel depth cs) (parseElems fuel depth cs)
  object : ∀ depth cs, Follows (fun p => Strict p.1)
    (Ordinary.parseObject fuel depth cs) (parseObject fuel depth cs)
  member : ∀ depth seen cs, Follows (fun p => p.1.1 ∉ seen ∧ Strict p.1.2)
    (Ordinary.parseMember fuel depth cs) (parseMember fuel depth seen cs)
  members : ∀ depth seen cs, Follows (fun p => StrictAfter seen p.1)
    (Ordinary.parseMembers fuel depth cs) (parseMembers fuel depth seen cs)

theorem follows_literal {text : List Char} {v : Json} (hv : Strict v) (cs : List Char) :
    Follows (fun p => Strict p.1) (literal text v cs).toOption (literal text v cs) := by
  rw [literal]
  split
  · exact .ok hv
  · exact .invalid

/-- The first of two parts is read, and then the second. -/
theorem Follows.pair {α β γ : Type} {good : α × List Char → Prop} {o : Option (α × List Char)}
    {x : Except ParseError (α × List Char)} (h : Follows good o x)
    {good' : α → β × List Char → Prop} {p : List Char → Option (β × List Char)}
    {q : α → List Char → Except ParseError (β × List Char)}
    (hrest : ∀ a r, Follows (good' a) (p r) (q a r)) (f : α → β → γ)
    {both : γ × List Char → Prop}
    (hboth : ∀ a r b r', both (f a b, r') ↔ good (a, r) ∧ good' a (b, r')) :
    Follows both (o.bind fun s => (p s.2).map fun t => (f s.1 t.1, t.2))
      (x.bind fun s => (q s.1 s.2).map fun t => (f s.1 t.1, t.2)) := by
  cases h with
  | @ok s hg =>
    have h' := hrest s.1 s.2
    dsimp only [Option.bind_some, Except.bind]
    generalize p s.2 = o' at h' ⊢
    generalize q s.1 s.2 = x' at h' ⊢
    cases h' with
    | @ok t hg' => exact .ok ((hboth _ s.2 _ _).mpr ⟨hg, hg'⟩)
    | duplicate hbad =>
      refine .duplicate fun c hc => ?_
      obtain ⟨t, ht, rfl⟩ := Option.map_eq_some_iff.mp hc
      exact fun h => hbad t ht ((hboth _ s.2 _ _).mp h).2
    | invalid => exact .invalid
  | duplicate hbad =>
    refine .duplicate fun c hc => ?_
    obtain ⟨s, hs, hc⟩ := Option.bind_eq_some_iff.mp hc
    obtain ⟨t, _, rfl⟩ := Option.map_eq_some_iff.mp hc
    exact fun h => hbad s hs ((hboth _ s.2 _ _).mp h).1
  | invalid => exact .invalid

theorem FollowsAt.succ_value {fuel : Nat} (ih : FollowsAt fuel) (depth : Nat) (cs : List Char) :
    Follows (fun p => Strict p.1) (Ordinary.parseValue (fuel + 1) depth cs)
      (parseValue (fuel + 1) depth cs) := by
  rw [Ordinary.parseValue, parseValue]
  cases skipWs cs with
  | nil => exact .invalid
  | cons c r =>
    dsimp only
    by_cases hq : c = '"'
    · rw [if_pos hq, if_pos hq]
      cases lexString r with
      | none => exact .invalid
      | some p => exact .ok trivial
    rw [if_neg hq, if_neg hq]
    by_cases ha : c = '['
    · rw [if_pos ha, if_pos ha]
      split
      · exact .invalid
      · exact ih.array (depth - 1) r
    rw [if_neg ha, if_neg ha]
    by_cases ho : c = '{'
    · rw [if_pos ho, if_pos ho]
      split
      · exact .invalid
      · exact ih.object (depth - 1) r
    rw [if_neg ho, if_neg ho]
    by_cases hn : c = 'n'
    · rw [if_pos hn, if_pos hn]
      exact follows_literal (by trivial) r
    rw [if_neg hn, if_neg hn]
    by_cases ht : c = 't'
    · rw [if_pos ht, if_pos ht]
      exact follows_literal (by trivial) r
    rw [if_neg ht, if_neg ht]
    by_cases hf : c = 'f'
    · rw [if_pos hf, if_pos hf]
      exact follows_literal (by trivial) r
    rw [if_neg hf, if_neg hf]
    cases scanNumber (c :: r) with
    | none => exact .invalid
    | some p =>
      simp only [Option.bind_some]
      split
      · exact .ok trivial
      · exact .invalid

theorem FollowsAt.succ_array {fuel : Nat} (ih : FollowsAt fuel) (depth : Nat) (cs : List Char) :
    Follows (fun p => Strict p.1) (Ordinary.parseArray (fuel + 1) depth cs)
      (parseArray (fuel + 1) depth cs) := by
  rw [Ordinary.parseArray, parseArray_succ]
  split
  · exact .ok trivial
  · refine (ih.value depth cs).pair (fun _ r => ih.elems depth r)
      (fun v vs => Json.arr (v :: vs)) ?_
    exact fun _ _ _ _ => Iff.rfl

theorem FollowsAt.succ_elems {fuel : Nat} (ih : FollowsAt fuel) (depth : Nat) (cs : List Char) :
    Follows (fun p => StrictElems p.1) (Ordinary.parseElems (fuel + 1) depth cs)
      (parseElems (fuel + 1) depth cs) := by
  rw [Ordinary.parseElems, parseElems_succ]
  cases skipWs cs with
  | nil => exact .invalid
  | cons c r =>
    dsimp only
    split
    · exact .ok trivial
    split
    · refine (ih.value depth r).pair (fun _ r => ih.elems depth r) List.cons ?_
      exact fun _ _ _ _ => Iff.rfl
    · exact .invalid

theorem FollowsAt.succ_object {fuel : Nat} (ih : FollowsAt fuel) (depth : Nat) (cs : List Char) :
    Follows (fun p => Strict p.1) (Ordinary.parseObject (fuel + 1) depth cs)
      (parseObject (fuel + 1) depth cs) := by
  rw [Ordinary.parseObject, parseObject_succ]
  split
  · exact .ok ⟨List.nodup_nil, trivial⟩
  · refine (ih.member depth [] cs).pair (fun m r => ih.members depth [m.1] r)
      (fun m ms => Json.obj (m :: ms)) ?_
    exact fun _ _ _ _ => strict_obj_cons

theorem FollowsAt.succ_member {fuel : Nat} (ih : FollowsAt fuel) (depth : Nat)
    (seen : List String) (cs : List Char) :
    Follows (fun p => p.1.1 ∉ seen ∧ Strict p.1.2) (Ordinary.parseMember (fuel + 1) depth cs)
      (parseMember (fuel + 1) depth seen cs) := by
  rw [Ordinary.parseMember, parseMember_succ]
  cases skipWs cs with
  | nil => exact .invalid
  | cons c r =>
    dsimp only
    by_cases hq : c = '"'
    swap
    · rw [if_neg hq, if_neg hq]
      exact .invalid
    rw [if_pos hq, if_pos hq]
    cases lexString r with
    | none => exact .invalid
    | some p =>
      obtain ⟨k, r'⟩ := p
      dsimp only
      by_cases hseen : String.ofList k ∈ seen
      · rw [if_pos hseen]
        refine .duplicate fun m hm => fun h => h.1 ?_
        -- whatever follows, the member has this name
        split at hm
        · cases hm
        split at hm
        · obtain ⟨p, _, rfl⟩ := Option.map_eq_some_iff.mp hm
          exact hseen
        · cases hm
      rw [if_neg hseen]
      cases skipWs r' with
      | nil => exact .invalid
      | cons c' r'' =>
        dsimp only
        by_cases hc : c' = ':'
        swap
        · rw [if_neg hc, if_neg hc]
          exact .invalid
        rw [if_pos hc, if_pos hc]
        have hv := ih.value depth r''
        generalize Ordinary.parseValue fuel depth r'' = o at hv ⊢
        generalize parseValue fuel depth r'' = x at hv ⊢
        cases hv with
        | ok hg => exact .ok ⟨hseen, hg⟩
        | duplicate hbad =>
          refine .duplicate fun m hm => ?_
          obtain ⟨p, hp, rfl⟩ := Option.map_eq_some_iff.mp hm
          exact fun h => hbad p hp h.2
        | invalid => exact .invalid

theorem FollowsAt.succ_members {fuel : Nat} (ih : FollowsAt fuel) (depth : Nat)
    (seen : List String) (cs : List Char) :
    Follows (fun p => StrictAfter seen p.1) (Ordinary.parseMembers (fuel + 1) depth cs)
      (parseMembers (fuel + 1) depth seen cs) := by
  rw [Ordinary.parseMembers, parseMembers_succ]
  cases skipWs cs with
  | nil => exact .invalid
  | cons c r =>
    dsimp only
    split
    · exact .ok ⟨fun k hk => (List.not_mem_nil hk).elim, List.nodup_nil, trivial⟩
    split
    · refine (ih.member depth seen r).pair (fun m r => ih.members depth (m.1 :: seen) r)
        List.cons ?_
      exact fun _ _ _ _ => strictAfter_cons
    · exact .invalid

theorem followsAt (fuel : Nat) : FollowsAt fuel := by
  induction fuel with
  | zero =>
    refine ⟨?_, ?_, ?_, ?_, ?_, ?_⟩ <;> intros
    · rw [Ordinary.parseValue, parseValue]
      exact .invalid
    · rw [Ordinary.parseArray, parseArray]
      exact .invalid
    · rw [Ordinary.parseElems, parseElems]
      exact .invalid
    · rw [Ordinary.parseObject, parseObject]
      exact .invalid
    · rw [Ordinary.parseMember, parseMember]
      exact .invalid
    · rw [Ordinary.parseMembers, parseMembers]
      exact .invalid
  | succ fuel ih =>
    exact ⟨ih.succ_value, ih.succ_array, ih.succ_elems, ih.succ_object, ih.succ_member,
      ih.succ_members⟩

/-- A strict document is one in which no object has a name twice. -/
theorem parse_ok_iff {cs : List Char} {v : Json} :
    parse cs = .ok v ↔ Ordinary.parse cs = some v ∧ Strict v := by
  rw [parse, Ordinary.parse]
  have h := (followsAt (2 * cs.length + 2)).value depthLimit cs
  generalize Ordinary.parseValue (2 * cs.length + 2) depthLimit cs = o at h ⊢
  generalize parseValue (2 * cs.length + 2) depthLimit cs = x at h ⊢
  cases h with
  | @ok p hg =>
    dsimp only
    split
    · exact ⟨fun h => by cases h; exact ⟨rfl, hg⟩, fun h => by cases h.1; rfl⟩
    · simp
  | duplicate hbad =>
    constructor
    · intro h
      cases h
    · rintro ⟨ho, hs⟩
      cases o with
      | none => cases ho
      | some p =>
        dsimp only at ho
        split at ho
        · cases ho
          exact (hbad p rfl hs).elim
        · cases ho
  | invalid => simp

/-- Where a value is read and a name is met twice, the parser says so. -/
theorem parse_duplicate {cs : List Char} {v : Json} (h : Ordinary.parse cs = some v)
    (hs : ¬ Strict v) : ∃ key, parse cs = .error (.duplicateKey key) := by
  rw [Ordinary.parse] at h
  rw [parse]
  have hf := (followsAt (2 * cs.length + 2)).value depthLimit cs
  generalize Ordinary.parseValue (2 * cs.length + 2) depthLimit cs = o at h hf
  generalize parseValue (2 * cs.length + 2) depthLimit cs = x at hf ⊢
  cases hf with
  | ok hg =>
    dsimp only at h
    split at h
    · cases h
      exact (hs hg).elim
    · cases h
  | duplicate hbad => exact ⟨_, rfl⟩
  | invalid => cases h

theorem parseStrictJson_ok_iff {bytes : Bytes} {v : Json} :
    parseStrictJson some bytes = .ok v ↔ document bytes = some v ∧ Strict v := by
  rw [document, ← parse_ok_iff, parseStrictJson]
  cases parse (readText bytes) with
  | error e => cases e <;> simp
  | ok w => exact ⟨fun h => by cases h; rfl, fun h => by cases h; rfl⟩

/-! ## Maps that keep everything -/

theorem lastOfName_nodup {ms : List (String × Json)} (h : (ms.map Prod.fst).Nodup) :
    lastOfName ms = ms := by
  induction ms with
  | nil => rfl
  | cons m ms ih =>
    obtain ⟨hm, hn⟩ := List.nodup_cons.mp h
    rw [lastOfName, if_neg hm, ih hn]

mutual
theorem mapValue_strict (v : Json) (h : Strict v) : mapValue v = v := by
  cases v with
  | arr vs => rw [mapValue, mapElems_strict vs h]
  | obj ms => rw [mapValue, mapMembers_strict ms h.2, lastOfName_nodup h.1]
  | null => rfl
  | bool b => rfl
  | num n => rfl
  | str s => rfl

theorem mapElems_strict (vs : List Json) (h : StrictElems vs) : mapElems vs = vs := by
  cases vs with
  | nil => rfl
  | cons v vs => rw [mapElems, mapValue_strict v h.1, mapElems_strict vs h.2]

theorem mapMembers_strict (ms : List (String × Json)) (h : StrictMembers ms) :
    mapMembers ms = ms := by
  cases ms with
  | nil => rfl
  | cons m ms => rw [mapMembers, mapValue_strict m.2 h.1, mapMembers_strict ms h.2]
end

theorem ordinaryJson_strict {bytes : Bytes} {v : Json} (h : document bytes = some v)
    (hs : Strict v) : ordinaryJson bytes = some v := by
  rw [ordinaryJson, h, Option.map_some, mapValue_strict v hs]

end Json
end EgoBridge
