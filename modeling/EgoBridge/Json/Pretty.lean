import EgoBridge.Json.Canonical

/-!
# Json.Pretty

Indented text: every element and member on a line of its own, two spaces a level.

* `prettyJson`   — the text of `to_vec_pretty`.
* `parse_pretty` — the parser reads the value back, also with blanks behind it.
* `parseStrictJson_pretty` — so does a typed decoder.
-/

namespace EgoBridge
namespace Json

def newLine (level : Nat) : List Char := '\n' :: List.replicate (2 * level) ' '

mutual
/-- A value on line `level`. -/
def pretty (level : Nat) : Json → List Char
  | .arr (v :: vs) =>
    '[' :: (newLine (level + 1) ++ (pretty (level + 1) v ++ prettyElems level vs))
  | .obj ((k, v) :: ms) =>
    '{' :: (newLine (level + 1) ++
      (renderString k ++ ':' :: ' ' :: (pretty (level + 1) v ++ prettyMembers level ms)))
  | .arr [] => ['[', ']']
  | .obj [] => ['{', '}']
  | .null => ['n', 'u', 'l', 'l']
  | .bool true => ['t', 'r', 'u', 'e']
  | .bool false => ['f', 'a', 'l', 's', 'e']
  | .num n => n.render
  | .str s => renderString s

def prettyElems (level : Nat) : List Json → List Char
  | [] => newLine level ++ [']']
  | v :: vs => ',' :: (newLine (level + 1) ++ (pretty (level + 1) v ++ prettyElems level vs))

def prettyMembers (level : Nat) : List (String × Json) → List Char
  | [] => newLine level ++ ['}']
  | (k, v) :: ms =>
    ',' :: (newLine (level + 1) ++
      (renderString k ++ ':' :: ' ' :: (pretty (level + 1) v ++ prettyMembers level ms)))
end

/-- `to_vec_pretty`. -/
def prettyJson (v : Json) : Bytes := utf8 (String.ofList (pretty 0 v))

/-! ## Blanks -/

def Blank (ws : List Char) : Prop := ∀ c ∈ ws, isWs c = true

theorem blank_newLine (level : Nat) : Blank (newLine level) := by
  intro c hc
  rcases List.mem_cons.mp hc with rfl | hc
  · decide
  · rw [List.eq_of_mem_replicate hc]
    decide

theorem skipWs_append {ws : List Char} (h : Blank ws) (r : List Char) : skipWs (ws ++ r) = skipWs r := by
  induction ws with
  | nil => rfl
  | cons c ws ih =>
    have hc : isWs c = true := h c List.mem_cons_self
    rw [List.cons_append, ← ih fun d hd => h d (List.mem_cons_of_mem _ hd)]
    simp [skipWs, hc]

theorem parseValue_blank {ws : List Char} (h : Blank ws) (fuel depth : Nat) (r : List Char) :
    parseValue fuel depth (ws ++ r) = parseValue fuel depth r := by
  cases fuel with
  | zero => rw [parseValue, parseValue]
  | succ fuel => rw [parseValue, parseValue, skipWs_append h]

theorem parseMember_blank {ws : List Char} (h : Blank ws) (fuel depth : Nat) (seen : List String)
    (r : List Char) : parseMember fuel depth seen (ws ++ r) = parseMember fuel depth seen r := by
  cases fuel with
  | zero => rw [parseMember, parseMember]
  | succ fuel => rw [parseMember, parseMember, skipWs_append h]

theorem blank_space : Blank [' '] := fun c hc => by
  rw [List.mem_singleton.mp hc]
  decide

theorem numEnd_newLine (level : Nat) (r : List Char) : NumEnd (newLine level ++ r) := by
  intro d hd
  cases hd
  decide

theorem numEnd_prettyElems (level : Nat) (vs : List Json) (r : List Char) :
    NumEnd (prettyElems level vs ++ r) := by
  cases vs with
  | nil =>
    rw [prettyElems, List.append_assoc]
    exact numEnd_newLine _ _
  | cons v vs =>
    rw [prettyElems]
    exact numEnd_cons (by simp) _

theorem numEnd_prettyMembers (level : Nat) (ms : List (String × Json)) (r : List Char) :
    NumEnd (prettyMembers level ms ++ r) := by
  cases ms with
  | nil =>
    rw [prettyMembers, List.append_assoc]
    exact numEnd_newLine _ _
  | cons m ms =>
    rw [prettyMembers]
    exact numEnd_cons (by simp) _

theorem pretty_head (level : Nat) (v : Json) :
    ∃ c r, pretty level v = c :: r ∧ isOpening c = true := by
  cases v with
  | null => exact ⟨_, _, rfl, by decide⟩
  | bool b => cases b <;> exact ⟨_, _, rfl, by decide⟩
  | num n =>
    obtain ⟨c, r, he, hc⟩ := n.render_head
    exact ⟨c, r, by rw [pretty, he], (isDigit_opening hc).1⟩
  | str s => exact ⟨_, _, by rw [pretty, renderString], by decide⟩
  | arr vs =>
    cases vs with
    | nil => exact ⟨_, _, rfl, by decide⟩
    | cons v vs => exact ⟨_, _, by rw [pretty], by decide⟩
  | obj ms =>
    cases ms with
    | nil => exact ⟨_, _, rfl, by decide⟩
    | cons m ms => exact ⟨_, _, by rw [pretty], by decide⟩

theorem skipWs_pretty (level : Nat) (v : Json) (r : List Char) :
    skipWs (pretty level v ++ r) = pretty level v ++ r := by
  obtain ⟨c, t, he, hc⟩ := pretty_head level v
  simp only [isOpening, Bool.and_eq_true, Bool.not_eq_true'] at hc
  rw [he]
  exact skipWs_cons hc.1 (t ++ r)

/-! ## Reading back -/

/-- A member after its opening. -/
theorem parseMember_pretty {fuel depth level : Nat} {seen : List String} {k : String} {v : Json}
    {r : List Char} (hk : k ∉ seen)
    (hv : parseValue fuel depth (pretty level v ++ r) = .ok (v, r)) :
    parseMember (fuel + 1) depth seen (renderString k ++ ':' :: ' ' :: (pretty level v ++ r)) =
      .ok ((k, v), r) := by
  have hl := lexString_esc k.toList (':' :: ' ' :: (pretty level v ++ r))
  have hb := parseValue_blank blank_space fuel depth (pretty level v ++ r)
  rw [List.cons_append, List.nil_append, hv] at hb
  simp only [renderString, List.cons_append, List.append_assoc, List.nil_append]
  rw [parseMember, skipWs_cons (by decide)]
  simp only [hl, skipWs_cons (show isWs ':' = false by decide), hb, String.ofList_toList,
    if_neg hk, if_true]

mutual
theorem parseValue_pretty (v : Json) : ∀ (fuel depth level : Nat) (r : List Char), Strict v →
    InRange v → nesting v < depth → 2 * (pretty level v).length ≤ fuel → NumEnd r →
      parseValue fuel depth (pretty level v ++ r) = .ok (v, r) := by
  intro fuel depth level r hs hn hd hf hr
  obtain ⟨c, t, hc, _⟩ := pretty_head level v
  have hpos : 0 < (pretty level v).length := by
    rw [hc]
    exact Nat.succ_pos _
  cases v with
  | arr vs =>
    cases vs with
    | nil => exact parseValue_render (.arr []) fuel depth r hs hn hd hf hr
    | cons v vs =>
      obtain ⟨fuel, rfl⟩ : ∃ n, fuel = n + 1 := ⟨fuel - 1, by omega⟩
      simp only [nesting, nestingElems] at hd
      simp only [pretty, List.length_cons, List.length_append] at hf
      obtain ⟨hv, hvs⟩ := hs
      obtain ⟨hnv, hnvs⟩ := hn
      obtain ⟨fuel, rfl⟩ : ∃ n, fuel = n + 1 := ⟨fuel - 1, by omega⟩
      have ihv := parseValue_pretty v fuel (depth - 1) (level + 1) (prettyElems level vs ++ r) hv
        hnv (by omega) (by omega) (numEnd_prettyElems level vs r)
      have ihs := parseElems_pretty vs fuel (depth - 1) level r hvs hnvs (by omega) (by omega)
      obtain ⟨c, t, hc, ho⟩ := pretty_head (level + 1) v
      simp only [isOpening, Bool.and_eq_true, decide_eq_true_eq] at ho
      rw [parseValue, skipWs_pretty]
      simp only [pretty, List.cons_append, List.append_assoc]
      simp only [if_neg (show ¬ depth ≤ 1 by omega), if_neg (show ¬ '[' = '"' by decide), if_true]
      rw [parseArray, skipWs_append (blank_newLine _), skipWs_pretty,
        parseValue_blank (blank_newLine _), ihv, if_neg (by rw [hc]; simpa using ho.2)]
      simp only [ihs]
  | obj ms =>
    cases ms with
    | nil => exact parseValue_render (.obj []) fuel depth r hs hn hd hf hr
    | cons m ms =>
      obtain ⟨k, v⟩ := m
      obtain ⟨fuel, rfl⟩ : ∃ n, fuel = n + 1 := ⟨fuel - 1, by omega⟩
      simp only [nesting, nestingMembers] at hd
      simp only [pretty, List.length_cons, List.length_append] at hf
      obtain ⟨hnodup, hv, hms⟩ := hs
      obtain ⟨hnv, hnms⟩ := hn
      simp only [List.map_cons, List.nodup_cons] at hnodup
      have hk := renderString_length k
      obtain ⟨fuel, rfl⟩ : ∃ n, fuel = n + 1 := ⟨fuel - 1, by omega⟩
      obtain ⟨fuel, rfl⟩ : ∃ n, fuel = n + 1 := ⟨fuel - 1, by omega⟩
      have ihv := parseValue_pretty v fuel (depth - 1) (level + 1) (prettyMembers level ms ++ r) hv
        hnv (by omega) (by omega) (numEnd_prettyMembers level ms r)
      have hseen : ∀ k' ∈ ms.map Prod.fst, k' ∉ [k] := by
        intro k' hk' hm
        exact hnodup.1 (List.mem_singleton.mp hm ▸ hk')
      have ihs := parseMembers_pretty ms (fuel + 1) (depth - 1) level r [k] hms hnms hnodup.2 hseen
        (by omega) (by omega)
      have ihm := parseMember_pretty (List.not_mem_nil (a := k)) ihv
      rw [parseValue, skipWs_pretty]
      simp only [pretty, List.cons_append, List.append_assoc]
      simp only [if_neg (show ¬ depth ≤ 1 by omega), if_neg (show ¬ '{' = '"' by decide),
        if_neg (show ¬ '{' = '[' by decide), if_true]
      rw [parseObject, skipWs_append (blank_newLine _), parseMember_blank (blank_newLine _), ihm]
      simp only [renderString, List.cons_append, skipWs_cons (show isWs '"' = false by decide)]
      rw [if_neg (by simp)]
      simp only [ihs]
  | null => exact parseValue_render .null fuel depth r hs hn hd hf hr
  | bool b =>
    have he : pretty level (.bool b) = render (.bool b) := by cases b <;> rfl
    rw [he] at hf ⊢
    exact parseValue_render (.bool b) fuel depth r hs hn hd hf hr
  | num n => exact parseValue_render (.num n) fuel depth r hs hn hd hf hr
  | str s => exact parseValue_render (.str s) fuel depth r hs hn hd hf hr

theorem parseElems_pretty (vs : List Json) : ∀ (fuel depth level : Nat) (r : List Char),
    StrictElems vs → InRangeElems vs → nestingElems vs < depth →
      2 * (prettyElems level vs).length ≤ fuel →
        parseElems fuel depth (prettyElems level vs ++ r) = .ok (vs, r) := by
  intro fuel depth level r hs hn hd hf
  cases vs with
  | nil =>
    obtain ⟨fuel, rfl⟩ : ∃ n, fuel = n + 1 := ⟨fuel - 1, by simp [prettyElems] at hf; omega⟩
    rw [prettyElems, List.append_assoc, parseElems, skipWs_append (blank_newLine _)]
    simp [skipWs_cons, isWs]
  | cons v vs =>
    simp only [nestingElems] at hd
    simp only [prettyElems, List.length_cons, List.length_append] at hf
    obtain ⟨hv, hvs⟩ := hs
    obtain ⟨hnv, hnvs⟩ := hn
    obtain ⟨fuel, rfl⟩ : ∃ n, fuel = n + 1 := ⟨fuel - 1, by omega⟩
    have ihv := parseValue_pretty v fuel depth (level + 1) (prettyElems level vs ++ r) hv hnv
      (by omega)
      (by omega) (numEnd_prettyElems level vs r)
    have ihs := parseElems_pretty vs fuel depth level r hvs hnvs (by omega) (by omega)
    simp only [prettyElems, List.cons_append, List.append_assoc]
    rw [parseElems, skipWs_cons (by decide)]
    simp only [if_neg (show ¬ ',' = ']' by decide), if_true, parseValue_blank (blank_newLine _), ihv,
      ihs]

theorem parseMembers_pretty (ms : List (String × Json)) : ∀ (fuel depth level : Nat)
    (r : List Char) (seen : List String), StrictMembers ms → InRangeMembers ms →
      (ms.map Prod.fst).Nodup →
      (∀ k ∈ ms.map Prod.fst, k ∉ seen) → nestingMembers ms < depth →
        2 * (prettyMembers level ms).length ≤ fuel →
          parseMembers fuel depth seen (prettyMembers level ms ++ r) = .ok (ms, r) := by
  intro fuel depth level r seen hs hn hnodup hseen hd hf
  cases ms with
  | nil =>
    obtain ⟨fuel, rfl⟩ : ∃ n, fuel = n + 1 := ⟨fuel - 1, by simp [prettyMembers] at hf; omega⟩
    rw [prettyMembers, List.append_assoc, parseMembers, skipWs_append (blank_newLine _)]
    simp [skipWs_cons, isWs]
  | cons m ms =>
    obtain ⟨k, v⟩ := m
    simp only [nestingMembers] at hd
    simp only [prettyMembers, List.length_cons, List.length_append] at hf
    obtain ⟨hv, hms⟩ := hs
    obtain ⟨hnv, hnms⟩ := hn
    simp only [List.map_cons, List.nodup_cons] at hnodup
    have hk := renderString_length k
    have hkseen : k ∉ seen := hseen k (by simp)
    obtain ⟨fuel, rfl⟩ : ∃ n, fuel = n + 1 := ⟨fuel - 1, by omega⟩
    obtain ⟨fuel, rfl⟩ : ∃ n, fuel = n + 1 := ⟨fuel - 1, by omega⟩
    have ihv := parseValue_pretty v fuel depth (level + 1) (prettyMembers level ms ++ r) hv
      hnv (by omega) (by omega) (numEnd_prettyMembers level ms r)
    have hseen' : ∀ k' ∈ ms.map Prod.fst, k' ∉ k :: seen := by
      intro k' hk' hm
      cases List.mem_cons.mp hm with
      | inl he => exact hnodup.1 (he ▸ hk')
      | inr hm => exact hseen k' (List.mem_cons_of_mem _ hk') hm
    have ihs := parseMembers_pretty ms (fuel + 1) depth level r (k :: seen) hms hnms hnodup.2 hseen'
      (by omega) (by omega)
    have ihm := parseMember_pretty hkseen ihv
    simp only [prettyMembers, List.cons_append, List.append_assoc]
    rw [parseMembers, skipWs_cons (by decide)]
    simp only [if_neg (show ¬ ',' = '}' by decide), if_true, parseMember_blank (blank_newLine _),
      ihm, ihs]
end

/-- The parser reads back what `pretty` writes, whatever blanks follow. -/
theorem parse_pretty {v : Json} (hs : Strict v) (hn : InRange v) (hd : nesting v < depthLimit)
    {ws : List Char} (hw : Blank ws) (hend : NumEnd ws) : parse (pretty 0 v ++ ws) = .ok v := by
  have hlen : (pretty 0 v ++ ws).length = (pretty 0 v).length + ws.length := List.length_append
  have h := parseValue_pretty v (2 * (pretty 0 v ++ ws).length + 2) depthLimit 0 ws hs hn hd (by omega)
    hend
  have hblank : skipWs ws = [] := by
    have h := skipWs_append hw []
    rwa [List.append_nil] at h
  rw [parse, h]
  exact if_pos hblank

/-- A decoder sees the value that was written, on a line of its own. -/
theorem parseStrictJson_pretty {α : Type} {decode : Json → Option α} {v : Json} {a : α}
    (hs : Strict v) (hn : InRange v) (hd : nesting v < depthLimit) (h : decode v = some a) :
    parseStrictJson decode (prettyJson v ++ utf8 "\n") = .ok a := by
  have hw : Blank ['\n'] := blank_newLine 0
  have hp := parse_pretty hs hn hd hw (numEnd_newLine 0 [])
  have htext : prettyJson v ++ utf8 "\n" = utf8 (String.ofList (pretty 0 v ++ ['\n'])) := by
    rw [String.ofList_append, utf8_append]
    rfl
  simp only [parseStrictJson, htext, readText_utf8, String.toList_ofList, hp, h]

end Json
end EgoBridge
